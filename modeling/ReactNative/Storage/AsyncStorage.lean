import ReactNative.Storage.MergeItem

/-! `getItem` asks native for one key and unpacks the answer. -/
namespace ReactNative

abbrev JSString := List UInt16

/-- An error, with the message and the key of what native passed. -/
structure KeyedError where
  message : String
  key : Option JSString

/-- What native passes for errors: one, a list that may have nulls in it, or nothing. -/
inductive NativeErrors where
  | null
  | single (error : KeyedError)
  | list (errors : List (Option KeyedError))

/-- The arguments that native calls back with. A key without a value has a null. -/
structure NativeAnswer where
  errors : NativeErrors
  result : Option (List (JSString × Option JSString))

/-- How a promise settles. The first of no errors is undefined, and an error may be null. -/
inductive Settlement (α : Type) where
  | rejected (reason : Option (Option KeyedError))
  | resolved (value : α)

/-- A value that is read; an inherited one is a function or an object. -/
inductive ReadValue where
  | undefined
  | null
  | string (value : JSString)
  | inherited (name : JSString)

/-- A value as native passes it. -/
def ReadValue.ofStored : Option JSString → ReadValue
  | some value => .string value
  | none => .null

/-- What a call passes to its callback, and how its promise settles. -/
structure CalledBack (α β : Type) where
  callback : α
  settlement : Settlement β

def convertError (error : Option KeyedError) : Option KeyedError :=
  error.map fun error => { message := error.message, key := error.key }

def convertErrors : NativeErrors → Option (List (Option KeyedError))
  | .null => none
  | .single error => some ([some error].map convertError)
  | .list errors => some (errors.map convertError)

/-- `errs && errs[0]`. -/
def firstError : Option (List (Option KeyedError)) → Option (Option KeyedError)
  | none => some none
  | some errs => errs.head?

/-! ### The object of a flush -/

/-- The properties of `Object.prototype`. -/
def objectPrototypeKeys : List JSString :=
  ["constructor", "__defineGetter__", "__defineSetter__", "hasOwnProperty", "__lookupGetter__",
    "__lookupSetter__", "isPrototypeOf", "propertyIsEnumerable", "toString", "valueOf",
    "__proto__", "toLocaleString"].map codeUnits

def protoKey : JSString := codeUnits "__proto__"

/-- An object that begins as `\x7b\x7d`, with strings and nulls. -/
structure PlainObject where
  own : JSString → Option (Option JSString) := fun _ => none
  hasPrototype : Bool := true

namespace PlainObject

/-- With the prototype, `__proto__` is no property of its own: a null there takes the prototype
away, and a string is ignored. -/
def put (object : PlainObject) (key : JSString) (value : Option JSString) : PlainObject :=
  if key = protoKey ∧ object.hasPrototype = true then
    match value with
    | none => { object with hasPrototype := false }
    | some _ => object
  else { object with own := Function.update object.own key (some value) }

def get (object : PlainObject) (key : JSString) : ReadValue :=
  match object.own key with
  | some value => .ofStored value
  | none =>
    if object.hasPrototype && objectPrototypeKeys.contains key then .inherited key else .undefined

end PlainObject

/-! ### The calls -/

structure GetRequest where
  keys : List JSString
  hasCallback : Bool
  keyIndex : ℕ
  promise : ℕ

structure AsyncStorage where
  getRequests : List GetRequest
  getKeys : List JSString
  /-- Whether an immediate is set. -/
  immediate : Bool
  /-- How many promises `multiGet` has returned. -/
  promises : ℕ
  fresh : ∀ request ∈ getRequests, request.promise < promises

namespace AsyncStorage

def initial : AsyncStorage where
  getRequests := []
  getKeys := []
  immediate := false
  promises := 0
  fresh _ member := absurd member List.not_mem_nil

/-- The value of `[[key,value]]`, if it is truthy. -/
def unpack : Option (List (JSString × Option JSString)) → ReadValue
  | some ((_, some value) :: _) => if value ≠ [] then .string value else .null
  | _ => .null

def getItem (answer : NativeAnswer) : CalledBack (Option (Option KeyedError) × ReadValue) ReadValue :=
  let value := unpack answer.result
  let errs := convertErrors answer.errors
  { callback := (firstError errs, value)
    settlement :=
      match errs with
      | some errs => .rejected errs.head?
      | none => .resolved value }

def setItem (errors : NativeErrors) : CalledBack (Option (Option KeyedError)) Unit :=
  let errs := convertErrors errors
  { callback := firstError errs
    settlement :=
      match errs with
      | some errs => .rejected errs.head?
      | none => .resolved () }

/-- Duplicates are not fetched. -/
def addKey (getKeys : List JSString) (key : JSString) : List JSString :=
  if key ∈ getKeys then getKeys else getKeys ++ [key]

variable (self : AsyncStorage)

def multiGet (keys : List JSString) (hasCallback : Bool) : AsyncStorage where
  getRequests := self.getRequests ++ [⟨keys, hasCallback, self.getKeys.length, self.promises⟩]
  getKeys := keys.foldl addKey self.getKeys
  immediate := true
  promises := self.promises + 1
  fresh := by
    intro request member
    obtain earlier | last := List.mem_append.mp member
    · exact Nat.lt_succ_of_lt (self.fresh request earlier)
    · rw [List.mem_singleton.mp last]
      exact Nat.lt_succ_self self.promises

/-- The keys that native is asked for, and the requests that wait for its answer. -/
structure Flushed where
  self : AsyncStorage
  keys : List JSString
  requests : List GetRequest

def flushGetRequests : Flushed where
  self := { self with
    getRequests := []
    getKeys := []
    fresh := nofun }
  keys := self.getKeys
  requests := self.getRequests

def runImmediate : Flushed := { self with immediate := false }.flushGetRequests

def fill (result : Option (List (JSString × Option JSString))) : PlainObject :=
  (result.getD []).foldl (fun object entry => object.put entry.1 entry.2) {}

/-- What the requests get when native answers, by their promises. The errors are not looked at. -/
def answerRequests (requests : List GetRequest) (answer : NativeAnswer) :
    List (ℕ × CalledBack (Option (List (JSString × ReadValue))) (List (JSString × ReadValue))) :=
  requests.map fun request =>
    let requestResult := request.keys.map fun key => (key, (fill answer.result).get key)
    (request.promise,
      { callback := if request.hasCallback then some requestResult else none
        settlement := .resolved requestResult })

/-- How the promise of a `multiGet` settles when the immediate has run and native answers. -/
def multiGetSettlement (keys : List JSString) (hasCallback : Bool)
    (answer : NativeAnswer) : Option (Settlement (List (JSString × ReadValue))) :=
  ((answerRequests (self.multiGet keys hasCallback).runImmediate.requests answer).lookup
    self.promises).map CalledBack.settlement

end AsyncStorage

end ReactNative

