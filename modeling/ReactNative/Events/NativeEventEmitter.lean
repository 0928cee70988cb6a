import Mathlib.Data.Finset.Card
import ReactNative.Foundation.Runs

/-! `NativeEventEmitter`s share one subscriber, which has an array of subscriptions for each event
type; removing a subscription makes a hole in the array, removing all of a type forgets the array.
-/
namespace ReactNative

structure EmitterSubscription (Emitter EventType : Type) where
  emitter : Emitter
  eventType : EventType
  key : ℕ
  once : Bool

/-- A running `emit`. Events that come from native are emitted by `RCTDeviceEventEmitter`, which is
no `NativeEventEmitter`. -/
structure Emission (Emitter EventType : Type) where
  emitter : Option Emitter
  eventType : EventType
  serial : ℕ
  index : ℕ
  length : ℕ

inductive Observation where
  | startObserving
  | stopObserving
  deriving DecidableEq

inductive EmitterOperation (Emitter EventType : Type) where
  | addListener (emitter : Emitter) (eventType : EventType)
  | once (emitter : Emitter) (eventType : EventType)
  | emit (emitter : Option Emitter) (eventType : EventType)
  | next
  /-- A listener throws out of the innermost emission. -/
  | throwOut
  | remove (subscription : ℕ)
  | removeSubscription (emitter : Emitter) (subscription : ℕ)
  | removeCurrentListener (emitter : Emitter)
  | removeAllListeners (emitter : Emitter) (eventType : Option EventType)

structure EmitterState (Emitter Module EventType : Type) where
  created : List (EmitterSubscription Emitter EventType) := []
  array : EventType → ℕ → List (Option ℕ) := fun _ _ => []
  /-- The array of a type that is registered is the one with this number. -/
  serial : EventType → ℕ := fun _ => 0
  registered : EventType → Bool := fun _ => false
  currentSubscription : Option Emitter → Option ℕ := fun _ => none
  emissions : List (Emission Emitter EventType) := []
  listenerCount : Module → ℕ := fun _ => 0
  observations : Module → List Observation := fun _ => []

namespace EmitterState

variable {Emitter Module EventType : Type} [DecidableEq Emitter] [DecidableEq Module]
  [DecidableEq EventType] (nativeModule : Emitter → Module)

def nativeAddListener (nativeModule : Module) (state : EmitterState Emitter Module EventType) :
    EmitterState Emitter Module EventType :=
  let listenerCount := state.listenerCount nativeModule + 1
  { state with
    listenerCount := Function.update state.listenerCount nativeModule listenerCount
    observations :=
      if listenerCount = 1 then
        Function.update state.observations nativeModule
          (state.observations nativeModule ++ [.startObserving])
      else state.observations }

def nativeRemoveListeners (nativeModule : Module) (count : ℕ)
    (state : EmitterState Emitter Module EventType) : EmitterState Emitter Module EventType :=
  let listenerCount := state.listenerCount nativeModule - count
  { state with
    listenerCount := Function.update state.listenerCount nativeModule listenerCount
    observations :=
      if listenerCount = 0 then
        Function.update state.observations nativeModule
          (state.observations nativeModule ++ [.stopObserving])
      else state.observations }

/-! ### The subscriber -/

variable (state : EmitterState Emitter Module EventType)

def getSubscriptionsForType (eventType : EventType) : Option (List (Option ℕ)) :=
  if state.registered eventType then some (state.array eventType (state.serial eventType)) else none

/-- Changes the array that is registered for the type. -/
def setSubscriptionsForType (eventType : EventType) (subscriptions : List (Option ℕ)) :
    EmitterState Emitter Module EventType :=
  { state with
    array := Function.update state.array eventType
      (Function.update (state.array eventType) (state.serial eventType) subscriptions)
    registered := Function.update state.registered eventType true }

variable (emitter : Emitter) (eventType : EventType)

def addSubscription (once : Bool)
    (state : EmitterState Emitter Module EventType) : EmitterState Emitter Module EventType :=
  let subscriptions := (state.getSubscriptionsForType eventType).getD []
  { state.setSubscriptionsForType eventType (subscriptions ++ [some state.created.length]) with
    created := state.created ++ [⟨emitter, eventType, subscriptions.length, once⟩] }

def deleteSlot (key : ℕ) (state : EmitterState Emitter Module EventType) :
    EmitterState Emitter Module EventType :=
  match state.getSubscriptionsForType eventType with
  | none => state
  | some subscriptions => state.setSubscriptionsForType eventType (subscriptions.set key none)

def removeAllSubscriptions
    (state : EmitterState Emitter Module EventType) : EmitterState Emitter Module EventType :=
  { state with
    registered := Function.update state.registered eventType false
    serial := Function.update state.serial eventType (state.serial eventType + 1) }

/-! ### Emitters -/

def addListener (once : Bool)
    (state : EmitterState Emitter Module EventType) : EmitterState Emitter Module EventType :=
  addSubscription emitter eventType once (state.nativeAddListener (nativeModule emitter))

def removeSubscription (subscription : EmitterSubscription Emitter EventType)
    (state : EmitterState Emitter Module EventType) :
    EmitterState Emitter Module EventType × Bool :=
  let told := state.nativeRemoveListeners (nativeModule emitter) 1
  if subscription.emitter = emitter then
    (told.deleteSlot subscription.eventType subscription.key, false)
  else (told, true)

/-- Nothing if what is current has not been created. -/
def removeCurrentListener (state : EmitterState Emitter Module EventType) :
    Option (EmitterState Emitter Module EventType × Bool) :=
  match state.currentSubscription (some emitter) with
  | none => some (state, true)
  | some id => state.created[id]?.map fun subscription =>
      state.removeSubscription nativeModule emitter subscription

/-- The number of listeners is the one of all emitters. -/
def removeAllListeners
    (state : EmitterState Emitter Module EventType) : EmitterState Emitter Module EventType :=
  let count := ((state.getSubscriptionsForType eventType).getD []).reduceOption.length
  (state.nativeRemoveListeners (nativeModule emitter) count).removeAllSubscriptions eventType

def emit (emitter : Option Emitter) (eventType : EventType)
    (state : EmitterState Emitter Module EventType) : EmitterState Emitter Module EventType :=
  match state.getSubscriptionsForType eventType with
  | none => state
  | some subscriptions =>
    { state with
      emissions :=
        ⟨emitter, eventType, state.serial eventType, 0, subscriptions.length⟩ :: state.emissions }

/-- A turn of the loop of `emit`. The listener of `once` removes itself first, and if that throws
the emission is left. -/
def invokeNext (emission : Emission Emitter EventType) (rest : List (Emission Emitter EventType))
    (state : EmitterState Emitter Module EventType) :
    Option (EmitterState Emitter Module EventType) :=
  let state := { state with emissions := { emission with index := emission.index + 1 } :: rest }
  match (state.array emission.eventType emission.serial)[emission.index]?.join with
  | none => some state
  | some id =>
    let current := { state with
      currentSubscription := Function.update state.currentSubscription emission.emitter (some id) }
    state.created[id]?.bind fun subscription =>
      if subscription.once then
        (current.removeCurrentListener nativeModule subscription.emitter).map fun removed =>
          if removed.2 then { removed.1 with emissions := rest } else removed.1
      else some current

def step : EmitterOperation Emitter EventType → Option (EmitterState Emitter Module EventType)
  | .addListener emitter eventType => some (state.addListener nativeModule emitter eventType false)
  | .once emitter eventType => some (state.addListener nativeModule emitter eventType true)
  | .emit emitter eventType => some (state.emit emitter eventType)
  | .next =>
    match state.emissions with
    | [] => none
    | emission :: rest =>
      if emission.index < emission.length then state.invokeNext nativeModule emission rest
      else some { state with
        emissions := rest
        currentSubscription := Function.update state.currentSubscription emission.emitter none }
  | .throwOut =>
    match state.emissions with
    | [] => none
    | _ :: rest => some { state with emissions := rest }
  | .remove id => state.created[id]?.map fun subscription =>
      (state.removeSubscription nativeModule subscription.emitter subscription).1
  | .removeSubscription emitter id => state.created[id]?.map fun subscription =>
      (state.removeSubscription nativeModule emitter subscription).1
  | .removeCurrentListener emitter =>
    (state.removeCurrentListener nativeModule emitter).map Prod.fst
  | .removeAllListeners emitter (some eventType) =>
    some (state.removeAllListeners nativeModule emitter eventType)
  -- The event type is required.
  | .removeAllListeners _ none => some state

end EmitterState

end ReactNative


