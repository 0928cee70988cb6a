import Mathlib.Tactic.Linarith
import ReactNative.Foundation.JSValue

/-! Objects are compared property by property, and a property that an object has not may come from
`Object.prototype`. Equality is decided where these properties do not tell. -/
namespace ReactNative.DeepDiffer

open JSValue Regex

/-- `value.constructor` and other properties. -/
def getProperty (keys : List (List UInt16)) (value : List UInt16 → JSValue) (key : List UInt16) :
    JSValue :=
  if key ∈ keys then value key else inherited key

/-- The first tests, in front of those that depend on the types. -/
def differUnlessIdentical (maxDepth : ℚ) (one two : JSValue) (otherwise : Bool) : Bool :=
  if maxDepth = 0 then true else if identical one two then false else otherwise

def deepDiffer (unsafelyIgnoreFunctions : Bool) : JSValue → JSValue → ℚ → Bool
  | .function name, two, maxDepth =>
    differUnlessIdentical maxDepth (.function name) two (match two with
      | .function _ => !unsafelyIgnoreFunctions
      | _ => true)
  | .array id length item, two, maxDepth =>
    differUnlessIdentical maxDepth (.array id length item) two (match two with
      | .array _ otherLength otherItem =>
        otherLength != length || (List.range length).any fun ii =>
          deepDiffer unsafelyIgnoreFunctions (item ii) (otherItem ii) (maxDepth - 1)
      -- The constructor of an array is that of no value of JSON.
      | _ => true)
  | .object id keys value, two, maxDepth =>
    differUnlessIdentical maxDepth (.object id keys value) two (match two with
      | .object _ otherKeys otherValue =>
        !identical (getProperty keys value (units "constructor"))
            (getProperty otherKeys otherValue (units "constructor")) ||
          keys.any (fun key => deepDiffer unsafelyIgnoreFunctions (value key)
            (getProperty otherKeys otherValue key) (maxDepth - 1)) ||
          otherKeys.any fun twoKey =>
            identical (getProperty keys value twoKey) .undefined &&
              !identical (otherValue twoKey) .undefined
      | _ => true)
  | one, two, maxDepth => differUnlessIdentical maxDepth one two true

/-! ### What values mean -/

/-- A value without identities, in which absent and undefined properties are the same. -/
inductive Meaning where
  | undefined
  | null
  | bool (value : Bool)
  | number (value : ℚ)
  | string (text : List UInt16)
  | function (name : List UInt16)
  | array (length : ℕ) (item : ℕ → Meaning)
  | object (value : List UInt16 → Meaning)

def meaning : JSValue → Meaning
  | .undefined => .undefined
  | .null => .null
  | .bool value => .bool value
  | .number value => .number value
  | .string text => .string text
  | .function name => .function name
  | .array _ length item => .array length fun i => if i < length then meaning (item i) else .undefined
  | .object _ keys value => .object fun key => if key ∈ keys then meaning (value key) else .undefined

/-- Identities lead to the values in the heap, which has `Object.prototype` at 0. -/
def Placed (heap : ℕ → JSValue) : JSValue → Prop :=
  All fun part => match part with
    | .array id _ _ | .object id _ _ => heap id = part
    | _ => True

/-- Values as in JSON. -/
def Plain (heap : ℕ → JSValue) : JSValue → Prop :=
  All fun part => match part with
    | .function _ => False
    | .array id _ _ | .object id _ _ => heap id = part
    | _ => True

/-- The second value with the properties that are looked up in it: at each place, those that it
inherits for keys of the first value, and without the keys that the first value only inherits. -/
def lookedUp : JSValue → JSValue → JSValue
  | .array id length item, .array otherId otherLength otherItem =>
    if id = otherId ∨ otherLength ≠ length then .array otherId otherLength otherItem
    else .array otherId otherLength fun ii => lookedUp (item ii) (otherItem ii)
  | .object id keys value, .object otherId otherKeys otherValue =>
    if id = otherId then .object otherId otherKeys otherValue
    else
      .object otherId (keys ++ otherKeys.filter fun key => identical (inherited key) .undefined)
        fun key =>
          if key ∈ keys then lookedUp (value key) (getProperty otherKeys otherValue key)
          else otherValue key
  | _, two => two

/-- Any two different objects at the same place have the identical `constructor`. -/
def SameConstructors : JSValue → JSValue → Prop
  | .array id length item, .array otherId _ otherItem =>
    id = otherId ∨ ∀ ii < length, SameConstructors (item ii) (otherItem ii)
  | .object id keys value, .object otherId otherKeys otherValue =>
    id = otherId ∨
      identical (getProperty keys value (units "constructor"))
        (getProperty otherKeys otherValue (units "constructor")) ∧
      ∀ key ∈ keys, SameConstructors (value key) (getProperty otherKeys otherValue key)
  | _, _ => True

/-- That objects inherit properties does not change whether the values are equal. -/
def PrototypeDoesNotTell (a b : JSValue) : Prop :=
  SameConstructors a b ∧ meaning a = meaning (lookedUp a b) ↔ meaning a = meaning b

/-- What is promised of the comparison of two values. -/
structure DecidesEquality (differ : JSValue → JSValue → ℚ → Bool) (a b : JSValue) : Prop where
  decides : differ a b (-1) = false ↔ meaning a = meaning b
  depth : ∀ maxDepth, differ a b maxDepth = false → differ a b (-1) = false

variable {heap : ℕ → JSValue} {options : Bool} {a b : JSValue}

theorem Plain.placed (plain : Plain heap a) : Placed heap a := by
  induction a with
  | array _ _ _ ih => exact ⟨plain.1, fun i below => ih i (plain.2 i below)⟩
  | object _ _ _ ih => exact ⟨plain.1, fun key member => ih key (plain.2 key member)⟩
  | _ => trivial

theorem eq_of_identical (plain : Plain heap a) (placed : Placed heap b) (same : identical a b) :
    a = b := by
  have hereA := plain.here
  have hereB := placed.here
  cases a <;> cases b <;> simp_all [identical]

@[simp]
theorem identical_self (value : JSValue) : identical value value = true := by
  cases value <;> simp [identical]

theorem identical_undefined {value : JSValue} :
    identical value .undefined = true ↔ value = .undefined := by
  cases value <;> simp [identical]

theorem meaning_eq_undefined {value : JSValue} :
    .undefined = meaning value ↔ value = .undefined := by
  cases value <;> simp [meaning]

theorem differUnlessIdentical_eq_false {maxDepth : ℚ} {otherwise : Bool} :
    differUnlessIdentical maxDepth a b otherwise = false ↔
      maxDepth ≠ 0 ∧ (identical a b ∨ otherwise = false) := by
  unfold differUnlessIdentical
  split_ifs <;> simp_all

theorem placed_getProperty (prototype : heap 0 = .object 0 [] fun _ => .undefined)
    {keys : List (List UInt16)} {value : List UInt16 → JSValue}
    (placed : ∀ key ∈ keys, Placed heap (value key)) (key : List UInt16) :
    Placed heap (getProperty keys value key) := by
  unfold getProperty inherited
  split_ifs with member
  · exact placed key member
  · exact ⟨prototype, by simp⟩
  · trivial
  · trivial

/-- Where there is no limit of the depth, the comparison finds what is looked up. -/
theorem deepDiffer_eq_false_iff (prototype : heap 0 = .object 0 [] fun _ => .undefined)
    (plain : Plain heap a) (placed : Placed heap b) {maxDepth : ℚ} (unlimited : maxDepth < 0) :
    deepDiffer options a b maxDepth = false ↔
      SameConstructors a b ∧ meaning a = meaning (lookedUp a b) := by
  -- Induction over the first value, for every value that it is compared with.
  induction a generalizing b maxDepth with
  | array id length item ih =>
    cases b with
    | array otherId otherLength otherItem =>
      rw [deepDiffer, differUnlessIdentical_eq_false, SameConstructors, lookedUp]
      by_cases same : id = otherId
      · cases eq_of_identical plain placed (by simpa [identical] using same)
        simp [identical, unlimited.ne]
      · have each i (below : i < length) (inside : i < otherLength) :=
          ih i (plain.2 i below) (placed.2 i inside) (show maxDepth - 1 < 0 by linarith)
        by_cases sameLength : otherLength = length
        · subst sameLength
          simp only [unlimited.ne, identical, same, meaning, or_self, ne_eq, not_true_eq_false,
            not_false_eq_true, decide_false, Bool.false_eq_true, false_or, true_and, bne_self_eq_false,
            Bool.false_or, List.any_eq_false, List.mem_range, Bool.not_eq_true, if_false,
            Meaning.array.injEq, funext_iff]
          constructor
          · intro equal
            refine ⟨fun i below => ((each i below below).1 (equal i below)).1, fun i => ?_⟩
            split_ifs with below
            · exact ((each i below below).1 (equal i below)).2
            · rfl
          · rintro ⟨constructors, equal⟩ i below
            have here := equal i
            rw [if_pos below, if_pos below] at here
            exact (each i below below).2 ⟨constructors i below, here⟩
        · simp [identical, same, sameLength, meaning, Ne.symm sameLength]
    | _ => simp [deepDiffer, differUnlessIdentical, identical, meaning, lookedUp, SameConstructors]
  | object id keys value ih =>
    cases b with
    | object otherId otherKeys otherValue =>
      rw [deepDiffer, differUnlessIdentical_eq_false, SameConstructors, lookedUp]
      by_cases same : id = otherId
      · cases eq_of_identical plain placed (by simpa [identical] using same)
        simp [identical, unlimited.ne]
      · have each key (member : key ∈ keys) := ih key (plain.2 key member)
          (placed_getProperty prototype placed.2 key) (show maxDepth - 1 < 0 by linarith)
        have different : identical (.object id keys value) (.object otherId otherKeys otherValue) =
            false := by
          simpa [identical] using same
        simp only [unlimited.ne, different, same, meaning, ne_eq, not_false_eq_true,
          Bool.false_eq_true, false_or, true_and, Bool.or_eq_false_iff, List.any_eq_false,
          Bool.not_eq_true, Bool.not_eq_false', if_false, Meaning.object.injEq, funext_iff,
          List.mem_append, List.mem_filter]
        constructor
        · rintro ⟨⟨constructors, first⟩, second⟩
          refine ⟨⟨constructors, fun key member => ((each key member).1 (first key member)).1⟩,
            fun key => ?_⟩
          by_cases member : key ∈ keys
          · simpa [member] using ((each key member).1 (first key member)).2
          · simp only [member, if_false, false_or]
            split_ifs with shown
            · rw [meaning_eq_undefined]
              have unseen := second key shown.1
              rw [getProperty, if_neg member, shown.2] at unseen
              simpa [identical_undefined] using unseen
            · rfl
        · rintro ⟨⟨constructors, below⟩, equal⟩
          refine ⟨⟨constructors, fun key member => (each key member).2 ⟨below key member, ?_⟩⟩,
            fun key otherMember => ?_⟩
          · simpa [member] using equal key
          · have here := equal key
            by_cases member : key ∈ keys
            · simp only [member, if_true, true_or] at here
              rw [getProperty, if_pos member]
              by_cases missing : value key = .undefined
              · rw [missing, lookedUp, getProperty, if_pos otherMember] at here
                · simp [meaning_eq_undefined.1 here]
                all_goals simp
              · simp [Bool.eq_false_iff.2 (mt identical_undefined.1 missing)]
            · simp only [member, if_false, false_or, otherMember, true_and] at here
              rw [getProperty, if_neg member]
              by_cases missing : identical (inherited key) .undefined
              · rw [if_pos missing, meaning_eq_undefined] at here
                simp [here]
              · simp [missing]
    | _ => simp [deepDiffer, differUnlessIdentical, identical, meaning, lookedUp, SameConstructors]
  | function => exact plain.elim
  | _ =>
    cases b <;>
      simp [deepDiffer, differUnlessIdentical, identical, meaning, lookedUp, SameConstructors,
        unlimited.ne]

/-- A comparison that does not come to its depth goes on as one without a limit. -/
theorem deepDiffer_unlimited {maxDepth unlimited : ℚ} (negative : unlimited < 0)
    (equal : deepDiffer options a b maxDepth = false) :
    deepDiffer options a b unlimited = false := by
  induction a generalizing b maxDepth unlimited with
  | array _ _ item ih =>
    cases b with
    | array =>
      rw [deepDiffer, differUnlessIdentical_eq_false] at equal ⊢
      refine ⟨negative.ne, equal.2.imp_right fun otherwise => ?_⟩
      simp only [Bool.or_eq_false_iff, List.any_eq_false, Bool.not_eq_true] at otherwise ⊢
      exact ⟨otherwise.1, fun i below => ih i (by linarith) (otherwise.2 i below)⟩
    | _ => simp [deepDiffer, differUnlessIdentical, identical] at equal
  | object _ _ value ih =>
    cases b with
    | object =>
      rw [deepDiffer, differUnlessIdentical_eq_false] at equal ⊢
      refine ⟨negative.ne, equal.2.imp_right fun otherwise => ?_⟩
      simp only [Bool.or_eq_false_iff, List.any_eq_false, Bool.not_eq_true] at otherwise ⊢
      exact ⟨⟨otherwise.1.1, fun key member => ih key (by linarith) (otherwise.1.2 key member)⟩,
        otherwise.2⟩
    | _ => simp [deepDiffer, differUnlessIdentical, identical] at equal
  | _ =>
    cases b <;>
      simp only [deepDiffer, differUnlessIdentical_eq_false, ne_eq, negative.ne, not_false_eq_true,
        true_and] at equal ⊢ <;> exact equal.2

theorem deepDiffer_self (value : JSValue) : deepDiffer options value value (-1) = false := by
  cases value <;> simp [deepDiffer, differUnlessIdentical]

def bare (id : ℕ) : JSValue := .object id [] fun _ => .undefined

def single (id : ℕ) (key : List UInt16) (value : JSValue) : JSValue := .object id [key] fun _ => value

end ReactNative.DeepDiffer

