import Mathlib.Data.List.Iterate
import Mathlib.Data.Rat.Defs

/-! JS hands its queue over as an array of three parallel arrays and the number of the first call.
`parseMethodCalls` checks the shape and turns it into a list of method calls. -/
namespace ReactNative

inductive JsNumber where
  | finite (value : Rat)
  | infinity (negative : Bool)
  | nan

namespace JsNumber

def isFinite : JsNumber → Bool
  | finite _ => true
  | infinity _ | nan => false

end JsNumber

/-- A value of the language without sharing. -/
inductive JsValue where
  | undefined
  | null
  | boolean (value : Bool)
  | string (value : String)
  | number (value : JsNumber)
  | function (name : String)
  | symbol (description : String)
  | bigint (value : Int)
  | array (items : List JsValue)
  | object (fields : List (String × JsValue))

namespace JsValue

def integer (value : Int) : JsValue := .number (.finite value)

def isArray : JsValue → Bool
  | array _ => true
  | _ => false

def typeName : JsValue → String
  | undefined | null => "null"
  | boolean _ => "boolean"
  | string _ => "string"
  | number _ => "double"
  | array _ => "array"
  | function _ | symbol _ | bigint _ | object _ => "object"

/-- A number that is not an integer does not convert without loss. -/
def asInt : JsValue → Option Int
  | boolean value => some value.toNat
  | string value => value.toInt?
  | number (.finite value) => if value.den = 1 then some value.num else none
  | _ => none

@[simp]
theorem asInt_integer (value : Int) : (integer value).asInt = some value := by
  simp [integer, asInt]

end JsValue

/-- The queue as JS builds it. -/
structure Queue where
  moduleIds : List Int := []
  methodIds : List Int := []
  params : List (List JsValue) := []
  callID : Nat := 0

namespace Queue

variable (queue : Queue)

/-- What native receives. -/
def toDynamic : JsValue :=
  .array [.array (queue.moduleIds.map .integer), .array (queue.methodIds.map .integer),
    .array (queue.params.map .array), .integer queue.callID]

/-- The three arrays are parallel. -/
def Aligned : Prop :=
  queue.methodIds.length = queue.moduleIds.length ∧ queue.params.length = queue.moduleIds.length

/-- The entries of the three arrays side by side. -/
def calls : List (Int × Int × List JsValue) :=
  queue.moduleIds.zip (queue.methodIds.zip queue.params)

end Queue

structure MethodCall where
  moduleId : Int
  methodId : Int
  arguments : List JsValue
  callId : Int

inductive MalformedCalls where
  | inputNotArray (typeName : String)
  | size (size : Nat)
  | notAllFieldsArrays
  | fieldSizesDifferent
  | invalidCallId (typeName : String)
  | argumentsNotArray (typeName : String)
  | notAnInteger

/-- The cast to an `int` of 32 bits. -/
def toInt32 (value : Int) : Int := (BitVec.ofInt 32 value).toInt

/-- The number of a call is optional, and `-1` stands for none. -/
def nextCallId (callId : Int) : Int := if callId ≠ -1 then toInt32 (callId + 1) else callId

def parseEntries : List JsValue → List JsValue → List JsValue → Int →
    Except MalformedCalls (List MethodCall)
  | moduleId :: moduleIds, methodId :: methodIds, params :: paramss, callId =>
    match params, moduleId.asInt, methodId.asInt with
    | .array arguments, some moduleId, some methodId =>
      (parseEntries moduleIds methodIds paramss (nextCallId callId)).map
        fun calls => ⟨moduleId, methodId, arguments, callId⟩ :: calls
    | .array _, _, _ => .error .notAnInteger
    | params, _, _ => .error (.argumentsNotArray params.typeName)
  | _, _, _, _ => .ok []

def parseFields (moduleIds methodIds params : JsValue) (others : List JsValue) :
    Except MalformedCalls (List MethodCall) :=
  match moduleIds, methodIds, params with
  | .array moduleIds, .array methodIds, .array params =>
    if moduleIds.length ≠ methodIds.length ∨ moduleIds.length ≠ params.length then
      .error .fieldSizesDifferent
    else
      match others with
      | [] => parseEntries moduleIds methodIds params (-1)
      | .number number :: _ =>
        match (JsValue.number number).asInt with
        | some callId => parseEntries moduleIds methodIds params (toInt32 callId)
        | none => .error .notAnInteger
      | callId :: _ => .error (.invalidCallId callId.typeName)
  | _, _, _ => .error .notAllFieldsArrays

def parseMethodCalls : JsValue → Except MalformedCalls (List MethodCall)
  | .null => .ok []
  | .array (moduleIds :: methodIds :: params :: others) =>
    parseFields moduleIds methodIds params others
  | .array items => .error (.size items.length)
  | value => .error (.inputNotArray value.typeName)

def MethodCall.triple (call : MethodCall) : Int × Int × List JsValue :=
  (call.moduleId, call.methodId, call.arguments)

/-- The calls of a queue that native accepts. -/
def parsedCalls (queue : Queue) : List (Int × Int × List JsValue) :=
  match parseMethodCalls queue.toDynamic with
  | .ok calls => calls.map MethodCall.triple
  | .error _ => []

theorem parseEntries_aligned (moduleIds methodIds : List Int) (params : List (List JsValue))
    (callId : Int) :
    ∃ calls, parseEntries (moduleIds.map .integer)
        (methodIds.map .integer) (params.map .array) callId = .ok calls ∧
      calls.map MethodCall.triple = moduleIds.zip (methodIds.zip params) ∧
      calls.map MethodCall.callId = List.iterate nextCallId callId calls.length := by
  induction moduleIds generalizing methodIds params callId with
  | nil => exact ⟨[], by simp [parseEntries], by simp, rfl⟩
  | cons moduleId moduleIds ih =>
    cases methodIds with
    | nil => exact ⟨[], by simp [parseEntries], by simp, rfl⟩
    | cons methodId methodIds =>
      cases params with
      | nil => exact ⟨[], by simp [parseEntries], by simp, rfl⟩
      | cons arguments params =>
        obtain ⟨calls, parsed, triples, numbered⟩ := ih methodIds params (nextCallId callId)
        refine ⟨⟨moduleId, methodId, arguments, callId⟩ :: calls, ?_, ?_, ?_⟩
        · simp only [List.map_cons, parseEntries, JsValue.asInt_integer]
          rw [parsed]
          rfl
        · rw [List.map_cons, triples]
          rfl
        · rw [List.map_cons, numbered]
          rfl

theorem parseMethodCalls_aligned {queue : Queue} (aligned : queue.Aligned) :
    ∃ calls, parseMethodCalls queue.toDynamic = .ok calls ∧
      calls.map MethodCall.triple = queue.calls ∧
      calls.map MethodCall.callId = List.iterate nextCallId (toInt32 queue.callID) calls.length := by
  obtain ⟨calls, parsed, aligns⟩ :=
    parseEntries_aligned queue.moduleIds queue.methodIds queue.params (toInt32 queue.callID)
  refine ⟨calls, ?_, aligns⟩
  have sizes : ¬ ((queue.moduleIds.map JsValue.integer).length ≠
        (queue.methodIds.map JsValue.integer).length ∨
      (queue.moduleIds.map JsValue.integer).length ≠ (queue.params.map JsValue.array).length) := by
    simp [aligned.1, aligned.2]
  simp only [Queue.toDynamic, parseMethodCalls, parseFields]
  rw [if_neg sizes]
  simpa [JsValue.integer, JsValue.asInt] using parsed

theorem parsedCalls_aligned {queue : Queue} (aligned : queue.Aligned) :
    parsedCalls queue = queue.calls := by
  obtain ⟨calls, parsed, triples, -⟩ := parseMethodCalls_aligned aligned
  rw [parsedCalls, parsed]
  exact triples

theorem parseMethodCalls_misaligned {queue : Queue} (misaligned : ¬ queue.Aligned) :
    parseMethodCalls queue.toDynamic = .error .fieldSizesDifferent := by
  have sizes : (queue.moduleIds.map JsValue.integer).length ≠
        (queue.methodIds.map JsValue.integer).length ∨
      (queue.moduleIds.map JsValue.integer).length ≠ (queue.params.map JsValue.array).length := by
    simp only [List.length_map]
    unfold Queue.Aligned at misaligned
    omega
  simp only [Queue.toDynamic, parseMethodCalls, parseFields]
  rw [if_pos sizes]

end ReactNative

