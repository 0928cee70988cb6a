import ReactNative.Foundation.Runs

/-! Mount items may be scheduled from any thread; on the UI thread they are dispatched at once,
unless they are being dispatched already. Executing an item may schedule another one, so that the
calls on the UI thread are a stack. -/
namespace ReactNative

structure FabricItem where
  order : ℕ
  isPreMountItem : Bool
  deriving DecidableEq

/-- A call on the UI thread, and where it is. -/
inductive FabricCall where
  /-- The loop of `dispatchPreMountItems`, in a frame. -/
  | dispatchPreMountItems
  | tryDispatchMountItems
  /-- `dispatchMountItems` has taken the mount items. -/
  | tookMountItems (mountItemsToDispatch : List FabricItem)
  | dispatchMountItems (preMountItemsToDispatch mountItemsToDispatch : List FabricItem)
  /-- `dispatchMountItems` has returned. -/
  | didDispatch (didDispatchItems : Bool)
  /-- `tryDispatchMountItems` has called itself again. -/
  | reDispatched
  | execute (item : FabricItem)

inductive FabricEvent where
  | started (item : FabricItem)
  | finished (item : FabricItem)

structure FabricUIManager where
  mountItems : List FabricItem := []
  preMountItems : List FabricItem := []
  inDispatch : Bool := false
  reDispatchCounter : ℕ := 0
  calls : List FabricCall := []
  added : List FabricItem := []
  log : List FabricEvent := []

inductive FabricAction where
  | preallocateView
  | dispatchCommand
  | scheduleMountItem (isOnUiThread : Bool)
  | doFrame
  /-- The innermost call goes on. The time that is left matters only for a frame. -/
  | next (timeLeft : Bool)

namespace FabricUIManager

variable (manager : FabricUIManager)

def addPreMountItem : FabricUIManager :=
  { manager with
    preMountItems := manager.preMountItems ++ [⟨manager.added.length, true⟩]
    added := manager.added ++ [⟨manager.added.length, true⟩] }

def addMountItem : FabricUIManager :=
  { manager with
    mountItems := manager.mountItems ++ [⟨manager.added.length, false⟩]
    added := manager.added ++ [⟨manager.added.length, false⟩] }

/-- On the UI thread, `tryDispatchMountItems` is called. -/
def scheduleMountItem (isOnUiThread : Bool) (manager : FabricUIManager) : FabricUIManager :=
  if isOnUiThread then
    { manager.addMountItem with calls := .tryDispatchMountItems :: manager.calls }
  else manager.addMountItem

/-- A frame first dispatches pre-mount items, and does not let mount items be dispatched in
between. -/
def doFrame : FabricUIManager :=
  { manager with
    inDispatch := true
    calls := .dispatchPreMountItems :: manager.calls }

def startItem (item : FabricItem) (calls : List FabricCall) (manager : FabricUIManager) :
    FabricUIManager :=
  { manager with
    calls := .execute item :: calls
    log := manager.log ++ [.started item] }

def next (timeLeft : Bool) (manager : FabricUIManager) : Option FabricUIManager :=
  match manager.calls with
  | [] => none
  | .dispatchPreMountItems :: rest =>
    match timeLeft, manager.preMountItems with
    | true, item :: preMountItems =>
      some ({ manager with preMountItems := preMountItems }.startItem item
        (.dispatchPreMountItems :: rest))
    | _, _ => some { manager with
        inDispatch := false
        calls := .tryDispatchMountItems :: rest }
  | .tryDispatchMountItems :: rest =>
    if manager.inDispatch then some { manager with calls := rest }
    else
      match manager.mountItems with
      | [] => some { manager with calls := .didDispatch false :: rest }
      | mountItems => some { manager with
          mountItems := []
          calls := .tookMountItems mountItems :: rest }
  | .tookMountItems mountItems :: rest => some { manager with
      preMountItems := []
      calls := .dispatchMountItems manager.preMountItems mountItems :: rest }
  | .dispatchMountItems (item :: preMountItems) mountItems :: rest =>
    some (manager.startItem item (.dispatchMountItems preMountItems mountItems :: rest))
  | .dispatchMountItems [] (item :: mountItems) :: rest =>
    some (manager.startItem item (.dispatchMountItems [] mountItems :: rest))
  | .dispatchMountItems [] [] :: rest => some { manager with calls := .didDispatch true :: rest }
  | .didDispatch didDispatchItems :: rest =>
    if manager.reDispatchCounter < 10 ∧ didDispatchItems = true then some { manager with
      inDispatch := false
      reDispatchCounter := manager.reDispatchCounter + 1
      calls := .tryDispatchMountItems :: .reDispatched :: rest }
    else some { manager with
      inDispatch := false
      reDispatchCounter := 0
      calls := rest }
  | .reDispatched :: rest => some { manager with
      reDispatchCounter := 0
      calls := rest }
  | .execute item :: rest => some { manager with
      calls := rest
      log := manager.log ++ [.finished item] }

/-- Code of others runs on the UI thread only when nothing of this does, or in an item. -/
def mayCall : Bool :=
  match manager.calls with
  | [] | .execute _ :: _ => true
  | _ => false

def step : FabricAction → Option FabricUIManager
  | .preallocateView => some manager.addPreMountItem
  | .dispatchCommand => some manager.addMountItem
  | .scheduleMountItem isOnUiThread =>
    if isOnUiThread = true → manager.mayCall = true then
      some (manager.scheduleMountItem isOnUiThread)
    else none
  | .doFrame => if manager.calls.isEmpty then some manager.doFrame else none
  | .next timeLeft => manager.next timeLeft

end FabricUIManager

end ReactNative

