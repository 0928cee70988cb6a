import Mathlib.Data.List.AList

/-! Timers live in slots that are reused; native says which of them are due, by their numbers. -/
namespace ReactNative

inductive TimerType where
  | setTimeout
  | setInterval
  | requestAnimationFrame
  | setImmediate
  | requestIdleCallback
  deriving DecidableEq

/-- The functions that the module puts into a slot: that of the user as it is, that of
an idle callback with a timeout, which clears the timeout first, the timeout of an idle
callback, and a function that throws a collected error again. -/
inductive TimerCallback (F E : Type) where
  | user (func : F)
  | clearsTimeout (func : F)
  | idleTimeout (idle : Nat)
  | rethrow (error : E)

structure Timer (F E : Type) where
  timerID : Nat
  type : TimerType
  callback : TimerCallback F E

abbrev TimerSlots (F E : Type) := List (Option (Timer F E))

namespace TimerSlots

variable {F E : Type}

def find (timerID : Nat) : TimerSlots F E → Option (Timer F E)
  | [] => none
  | none :: slots => find timerID slots
  | some timer :: slots => if timer.timerID = timerID then some timer else find timerID slots

/-- The first free index is used, or else the next one. -/
def allocate (timer : Timer F E) : TimerSlots F E → TimerSlots F E
  | [] => [some timer]
  | none :: slots => some timer :: slots
  | some other :: slots => some other :: allocate timer slots

def clear (timerID : Nat) : TimerSlots F E → TimerSlots F E
  | [] => []
  | none :: slots => none :: clear timerID slots
  | some timer :: slots =>
    if timer.timerID = timerID then none :: slots else some timer :: clear timerID slots

def live (slots : TimerSlots F E) : List (Timer F E) := slots.filterMap id

end TimerSlots

inductive TimerDriver where
  | callTimers
  | callIdleCallbacks
  | callImmediates
  deriving DecidableEq

/-- Where the module is: with nothing to do, at the head of a loop over numbers, about to
call an idle callback from its timeout, or in the code of a callback. The timeouts that
wait for a call to return are kept, innermost first. -/
inductive TimerControl where
  | idle
  | loop (driver : TimerDriver) (rest : List Nat)
  | calling (driver : TimerDriver) (rest timeouts : List Nat) (timerID : Nat)
  | running (driver : TimerDriver) (rest timeouts : List Nat)
  deriving DecidableEq

inductive TimerRecord (F E : Type) where
  | created (timer : Timer F E)
  | ran (timerID : Nat) (callback : TimerCallback F E)
  | cleared (timerID : Nat)
  /-- An idle callback had its own timeout cleared. -/
  | timeoutCleared (timeoutID idle : Nat)

structure JSTimers (F E : Type) where
  slots : TimerSlots F E := []
  immediates : List Nat := []
  requestIdleCallbacks : List Nat := []
  requestIdleCallbackTimeouts : AList (fun _ : Nat => Nat) := ∅
  guid : Nat := 1
  errors : List E := []
  control : TimerControl := .idle
  /-- The last value sent to `setSendIdleEvents`. -/
  sendIdleEvents : Bool := false
  /-- The latest record first. -/
  log : List (TimerRecord F E) := []
  /-- The errors that callbacks have thrown, and those thrown out of `callTimers`. -/
  thrown : List E := []
  surfaced : List E := []
  /-- The numbers of the pass, and those that had their turn, with whether there was
  such a timer. -/
  due : List Nat := []
  passed : List (Nat × Bool) := []

inductive TimerEvent (F E : Type) where
  | setTimeout (func : F)
  | setInterval (func : F)
  | setImmediate (func : F)
  | requestAnimationFrame (func : F)
  | requestIdleCallback (func : F) (timeout : Bool)
  | clearTimeout (timerID : Nat)
  | clearInterval (timerID : Nat)
  | clearImmediate (timerID : Nat)
  | cancelAnimationFrame (timerID : Nat)
  | cancelIdleCallback (timerID : Nat)
  | callTimers (timersToCall : List Nat)
  | callIdleCallbacks (timeRemains : Bool)
  | callImmediates
  | proceed
  | returns
  | throws (error : E)

namespace JSTimers

variable {F E : Type}

/-! ### Setting and clearing -/

variable (state : JSTimers F E) (callback : TimerCallback F E)

def allocateCallback (type : TimerType) : JSTimers F E :=
  let timer : Timer F E := ⟨state.guid, type, callback⟩
  { state with
    slots := state.slots.allocate timer
    guid := state.guid + 1
    log := .created timer :: state.log }

variable (timerID : Nat)

/-- Numbers that have not been given out yet are not recorded. -/
def freeCallback : JSTimers F E :=
  { state with
    slots := state.slots.clear timerID
    log := if timerID < state.guid then .cleared timerID :: state.log else state.log }

def setTimeout (state : JSTimers F E) (callback : TimerCallback F E) : JSTimers F E :=
  state.allocateCallback callback .setTimeout

def setInterval (state : JSTimers F E) (func : F) : JSTimers F E :=
  state.allocateCallback (.user func) .setInterval

def setImmediate (state : JSTimers F E) (func : F) : JSTimers F E :=
  { state.allocateCallback (.user func) .setImmediate with
    immediates := state.immediates ++ [state.guid] }

def requestAnimationFrame (state : JSTimers F E) (func : F) : JSTimers F E :=
  state.allocateCallback (.user func) .requestAnimationFrame

/-- The idle callback without its timeout. -/
def requestIdle : JSTimers F E :=
  { state.allocateCallback callback .requestIdleCallback with
    sendIdleEvents := if state.requestIdleCallbacks = [] then true else state.sendIdleEvents
    requestIdleCallbacks := state.requestIdleCallbacks ++ [state.guid] }

def requestIdleCallback (func : F) (timeout : Bool) : JSTimers F E :=
  if timeout then
    let id := state.guid
    let state := state.requestIdle (.clearsTimeout func)
    { state.setTimeout (.idleTimeout id) with
      requestIdleCallbackTimeouts := state.requestIdleCallbackTimeouts.insert id state.guid }
  else state.requestIdle (.user func)

/-- What an idle callback and its cancellation do to its timeout. -/
def clearTimeoutOf (idle : Nat) : JSTimers F E :=
  match state.requestIdleCallbackTimeouts.lookup idle with
  | some timeoutID =>
    { state with
      slots := state.slots.clear timeoutID
      requestIdleCallbackTimeouts := state.requestIdleCallbackTimeouts.erase idle
      log := .timeoutCleared timeoutID idle :: state.log }
  | none => state

/-- Native is told to stop when no idle callback is left. -/
def stopIdleEvents : JSTimers F E :=
  { state with
    sendIdleEvents := if state.requestIdleCallbacks = [] then false else state.sendIdleEvents }

def cancelIdleCallback : JSTimers F E :=
  let state := state.freeCallback timerID
  let state := { state with requestIdleCallbacks := state.requestIdleCallbacks.erase timerID }
  (state.clearTimeoutOf timerID).stopIdleEvents

def clearImmediate : JSTimers F E :=
  { state.freeCallback timerID with immediates := state.immediates.erase timerID }

/-! ### Calling -/

/-- The end of the timeout of an idle callback. -/
def endIdleTimeout (idle : Nat) : JSTimers F E :=
  { state with
    requestIdleCallbackTimeouts := state.requestIdleCallbackTimeouts.erase idle }.stopIdleEvents

variable (driver : TimerDriver)

/-- A call has returned: the timeouts that waited for it end, and the loop goes on. -/
def resume (rest timeouts : List Nat) : JSTimers F E :=
  { timeouts.foldl endIdleTimeout state with control := .loop driver rest }

/-- One-shot timers leave their slot before they are called. -/
def beginCallback (timer : Timer F E) : JSTimers F E :=
  { state with
    slots :=
      if timer.type = .setInterval then state.slots else state.slots.clear timer.timerID
    log := .ran timer.timerID timer.callback :: state.log }

/-- The callback of a timer, up to the code of the user. -/
def callCallback (rest timeouts : List Nat) (timer : Timer F E) : JSTimers F E :=
  match timer.callback with
  | .user _ => { state with control := .running driver rest timeouts }
  | .clearsTimeout _ =>
    { state.clearTimeoutOf timer.timerID with control := .running driver rest timeouts }
  | .idleTimeout idle =>
    if idle ∈ state.requestIdleCallbacks then
      { state with
        requestIdleCallbacks := state.requestIdleCallbacks.erase idle
        control := .calling driver rest (idle :: timeouts) idle }
    else state.resume driver rest (idle :: timeouts)
  | .rethrow error => { state with errors := state.errors ++ [error] }.resume driver rest timeouts

def callTimer (rest timeouts : List Nat) (timerID : Nat) : JSTimers F E :=
  match state.slots.find timerID with
  | none => state.resume driver rest timeouts
  | some timer => (state.beginCallback timer).callCallback driver rest timeouts timer

/-- Each of the errors gets a timeout that throws it. -/
def rethrowLater (errors : List E) : JSTimers F E :=
  errors.foldl (fun state error => state.setTimeout (.rethrow error)) state

/-- After the last number of a pass. -/
def finishPass : TimerDriver → JSTimers F E
  | .callTimers =>
    match state.errors with
    | [] => { state with control := .idle }
    | error :: errors =>
      { state.rethrowLater errors with
        control := .idle
        surfaced := state.surfaced ++ [error] }
  | .callIdleCallbacks =>
    { state.stopIdleEvents.rethrowLater state.errors with control := .idle }
  | .callImmediates =>
    match state.immediates with
    | [] => { state.rethrowLater state.errors with control := .idle }
    | immediates =>
      { state with
        immediates := []
        control := .loop .callImmediates immediates
        due := state.due ++ immediates }

def startPass (due : List Nat) : JSTimers F E :=
  { state with errors := [], control := .loop driver due, due, passed := [] }

/-- User code runs at the top level or in a callback. -/
def acceptsCalls : Bool :=
  match state.control with
  | .idle | .running _ _ _ => true
  | .loop _ _ | .calling _ _ _ _ => false

def operate : TimerEvent F E → Option (JSTimers F E)
  | .setTimeout func => some (state.setTimeout (.user func))
  | .setInterval func => some (state.setInterval func)
  | .setImmediate func => some (state.setImmediate func)
  | .requestAnimationFrame func => some (state.requestAnimationFrame func)
  | .requestIdleCallback func timeout => some (state.requestIdleCallback func timeout)
  | .clearTimeout timerID | .clearInterval timerID | .cancelAnimationFrame timerID =>
    some (state.freeCallback timerID)
  | .clearImmediate timerID => some (state.clearImmediate timerID)
  | .cancelIdleCallback timerID => some (state.cancelIdleCallback timerID)
  | _ => none

def drive : TimerEvent F E → Option (JSTimers F E)
  | .callTimers timersToCall =>
    if state.control = .idle ∧ timersToCall ≠ [] then
      some (state.startPass .callTimers timersToCall)
    else none
  | .callIdleCallbacks timeRemains =>
    if state.control = .idle then
      some (if timeRemains then
        { state.startPass .callIdleCallbacks state.requestIdleCallbacks with
          requestIdleCallbacks := [] }
        else state)
    else none
  | .callImmediates =>
    if state.control = .idle then
      some { state.startPass .callImmediates state.immediates with immediates := [] }
    else none
  | .proceed =>
    match state.control with
    | .loop driver [] => some (state.finishPass driver)
    | .loop driver (timerID :: rest) =>
      some ({ state with
        passed := state.passed ++ [(timerID, (state.slots.find timerID).isSome)] }.callTimer
          driver rest [] timerID)
    | .calling driver rest timeouts timerID =>
      some (state.callTimer driver rest timeouts timerID)
    | _ => none
  | .returns =>
    match state.control with
    | .running driver rest timeouts => some (state.resume driver rest timeouts)
    | _ => none
  | .throws error =>
    match state.control with
    | .running driver rest timeouts =>
      some ({ state with
        errors := state.errors ++ [error]
        thrown := state.thrown ++ [error] }.resume driver rest timeouts)
    | _ => none
  | _ => none

def step (event : TimerEvent F E) : Option (JSTimers F E) :=
  match state.operate event with
  | some next => if state.acceptsCalls then some next else none
  | none => state.drive event

end JSTimers

end ReactNative

