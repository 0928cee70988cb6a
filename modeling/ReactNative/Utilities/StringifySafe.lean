import Mathlib.Data.Rat.Floor
import Mathlib.Algebra.Order.BigOperators.Group.List
import Mathlib.Data.List.TakeWhile
import ReactNative.Foundation.JSValue

/-! The replacer infers the depth of a value from a stack that it shares with all calls: what stands
in front of the value that contains the current one is dropped. -/
namespace ReactNative.StringifySafe

open JSValue Regex List

abbrev Text := List UInt16

/-- A document as `JSON.stringify` writes it. -/
inductive Written where
  | null
  | bool (value : Bool)
  | number (value : ℚ)
  | string (text : Text)
  | array (items : List Written)
  | object (entries : List (Text × Written))

/-- Without a limit where it is `Infinity`. -/
structure Limits where
  maxDepth : Option ℚ := none
  maxStringLimit : Option ℚ := none
  maxArrayLimit : Option ℚ := none
  maxObjectKeysLimit : Option ℚ := none

def toInteger (x : ℚ) : ℤ := if x < 0 then ⌈x⌉ else ⌊x⌋

/-- The number of items in `slice(0, limit)`. -/
def sliceEnd (length : ℕ) (limit : ℚ) : ℕ :=
  let stop := toInteger limit
  if stop < 0 then (length + stop).toNat else min stop.toNat length

variable (numberText : ℚ → Text) (limits : Limits)

def cutString (text : Text) : Text :=
  let truncatedString := units "...(truncated)..."
  match limits.maxStringLimit with
  | none => text
  | some limit =>
    if text.length > limit + truncatedString.length then
      text.take (toInteger limit).toNat ++ truncatedString
    else text

/-- How many are left of a number of values that is over its limit, and how many are not. -/
def excess (count : ℕ) (limit : Option ℚ) : Option (ℕ × ℚ) :=
  match limit with
  | none => none
  | some limit => if count > limit then some (sliceEnd count limit, count - limit) else none

def isDeep (depth : ℕ) : Bool :=
  match limits.maxDepth with
  | none => false
  | some limit => depth ≥ limit

def arraySummary (length : ℕ) : Text :=
  units "[ ... array with " ++ numberText length ++ units " values ... ]"

def objectSummary (count : ℕ) : Text :=
  units "\x7b ... object with " ++ numberText count ++ units " keys ... \x7d"

def extraValues (count : ℚ) : Text :=
  units "... extra " ++ numberText count ++ units " values truncated ..."

def truncatedKey : Text := units "...(truncated keys)..."

/-- The keys after `retval[truncatedKey]` has been assigned. -/
def withTruncatedKey (keys : List Text) : List Text :=
  if truncatedKey ∈ keys then keys else keys ++ [truncatedKey]

/-- To assign `__proto__` does not make a key. -/
def isAssigned (key : Text) : Bool := key ≠ units "__proto__"

/-- What the replacer returns for an array or object at a depth, a copy of it having the identity
`fresh`. -/
def shorten (fresh depth : ℕ) : JSValue → JSValue
  | .array id length item =>
    if isDeep limits depth then .string (arraySummary numberText length)
    else match excess length limits.maxArrayLimit with
      | none => .array id length item
      | some (kept, extra) => .array fresh (kept + 1) fun i =>
        if i < kept then item i else .string (extraValues numberText extra)
  | .object id keys value =>
    if isDeep limits depth then .string (objectSummary numberText keys.length)
    else match excess keys.length limits.maxObjectKeysLimit with
      | none => .object id keys value
      | some (kept, extra) =>
        .object fresh (withTruncatedKey ((keys.take kept).filter isAssigned)) fun key =>
          if key = truncatedKey then .number extra else value key
  | value => value

/-! ### `JSON.stringify` with the replacer -/

def identity : JSValue → Option ℕ
  | .array id _ _ | .object id _ _ => some id
  | _ => none

/-- The stack has the identities of what the replacer returned, and nothing for a string. The next
identity has not been used. -/
structure Closure where
  stack : List (Option ℕ) := []
  next : ℕ

/-- What is left when `this` is the first of the stack. -/
def popTo (this : ℕ) (stack : List (Option ℕ)) : List (Option ℕ) := stack.dropWhile (· ≠ some this)

def replacer (this : ℕ) (value : JSValue) (closure : Closure) : JSValue × Closure :=
  let stack := popTo this closure.stack
  match value with
  | .string text => (.string (cutString limits text), { closure with stack })
  | .array .. | .object .. =>
    let retval := shorten numberText limits closure.next stack.length value
    (retval, { stack := identity retval :: stack, next := closure.next + 1 })
  | value => (value, { closure with stack })

def pairs (keys : List Text) (values : List (Option Written)) : List (Text × Written) :=
  (keys.zip values).filterMap fun entry => entry.2.map (entry.1, ·)

def serializeProperty : ℕ → ℕ → JSValue → StateM Closure (Option Written)
  | 0, _, _ => pure none
  | fuel + 1, this, value => do
    match ← replacer numberText limits this value with
    | .undefined | .function _ => pure none
    | .null => pure (some .null)
    | .bool value => pure (some (.bool value))
    | .number value => pure (some (.number value))
    | .string text => pure (some (.string text))
    | .array id length item => do
      let items ← ((range length).map item).mapM (serializeProperty fuel id)
      pure (some (.array (items.map (·.getD .null))))
    | .object id keys value => do
      let values ← (keys.map value).mapM (serializeProperty fuel id)
      pure (some (.object (pairs keys values)))

/-- Enough steps for `JSON.stringify`. -/
def size : JSValue → ℕ
  | .array _ length item => ((range length).map fun i => size (item i)).sum + 1
  | .object _ keys value => (keys.map fun key => size (value key)).sum + 1
  | _ => 0

/-- What is written of the value; the object that contains it is new. -/
def stringifySafe (arg : JSValue) (closure : Closure) : Option Written × Closure :=
  match arg with
  | .null => (some .null, closure)
  | arg => serializeProperty numberText limits (size arg + 1) closure.next arg
      { closure with next := closure.next + 1 }

/-- What is left of the value at a depth, where an object that is cut keeps the keys that count. -/
def truncate (counts : Text → Bool) : JSValue → ℕ → Option Written
  | .undefined, _ | .function _, _ => none
  | .null, _ => some .null
  | .bool value, _ => some (.bool value)
  | .number value, _ => some (.number value)
  | .string text, _ => some (.string (cutString limits text))
  | .array _ length item, depth =>
    if isDeep limits depth then some (.string (arraySummary numberText length))
    else
      let items count := (range count).map fun i =>
        (truncate counts (item i) (depth + 1)).getD .null
      some (.array (match excess length limits.maxArrayLimit with
        | none => items length
        | some (kept, extra) =>
          items kept ++ [.string (cutString limits (extraValues numberText extra))]))
  | .object _ keys value, depth =>
    if isDeep limits depth then some (.string (objectSummary numberText keys.length))
    else some (.object (match excess keys.length limits.maxObjectKeysLimit with
      | none => pairs keys (keys.map fun key => truncate counts (value key) (depth + 1))
      | some (kept, extra) =>
        let names := withTruncatedKey ((keys.take kept).filter counts)
        pairs names (names.map fun key =>
          if key = truncatedKey then some (.number extra)
          else truncate counts (value key) (depth + 1))))

/-! ### Depth -/

def ids : JSValue → List ℕ
  | .array id length item => id :: (range length).flatMap fun i => ids (item i)
  | .object id keys value => id :: keys.flatMap fun key => ids (value key)
  | _ => []

/-- No value contains itself. -/
def Finite : JSValue → Prop := All fun value => match ids value with
  | [] => True
  | id :: inner => id ∉ inner

/-- Only values with these identities, or new ones, have been put on the stack since. -/
structure On (base : List (Option ℕ)) (known : List ℕ) (n : ℕ) (closure : Closure) : Prop where
  added : ∃ added, closure.stack = added ++ base ∧ ∀ id, some id ∈ added → id ∈ known ∨ n ≤ id
  next : n ≤ closure.next

variable {base : List (Option ℕ)} {known : List ℕ} {n : ℕ} {closure : Closure}

theorem On.mono {inner : List ℕ} {m : ℕ} (on : On base inner m closure)
    (within : ∀ id ∈ inner, id ∈ known) (le : n ≤ m) : On base known n closure := by
  obtain ⟨added, isStack, origin⟩ := on.added
  exact ⟨⟨added, isStack, fun id member => (origin id member).imp (within id) le.trans⟩,
    le.trans on.next⟩

theorem On.popTo {this : ℕ} (on : On base known n closure) (other : this ∉ known) (old : this < n)
    (based : popTo this base = base) : popTo this closure.stack = base := by
  obtain ⟨added, isStack, origin⟩ := on.added
  rw [isStack, StringifySafe.popTo, dropWhile_append_of_pos, ← StringifySafe.popTo, based]
  intro frame member
  simp only [decide_eq_true_eq]
  rintro rfl
  exact (origin this member).elim other (Nat.not_le.2 old)

/-- What is written is what is left at the depth that the stack has, and what is added to the stack
is dropped again. -/
def Writes (fuel : ℕ) (value : JSValue) : Prop :=
  ∀ this closure, this ∉ ids value → this < closure.next → (∀ id ∈ ids value, id < closure.next) →
    ∃ after, serializeProperty numberText limits fuel this value closure =
      (truncate numberText limits isAssigned value (popTo this closure.stack).length, after) ∧
      On (popTo this closure.stack) (ids value) closure.next after

variable {numberText limits}

theorem pure_apply {α : Type} (result : α) (closure : Closure) :
    (pure result : StateM Closure α) closure = (result, closure) := rfl

theorem mapM_writes {fuel this : ℕ} {values : List JSValue}
    (writes : ∀ value ∈ values, Writes numberText limits fuel value)
    (within : ∀ value ∈ values, ∀ id ∈ ids value, id ∈ known) (other : this ∉ known)
    (old : this < n) (allOld : ∀ id ∈ known, id < n) (based : popTo this base = base)
    (on : On base known n closure) :
    ∃ after, values.mapM (serializeProperty numberText limits fuel this) closure =
      (values.map (truncate numberText limits isAssigned · base.length), after) ∧
      On base known n after := by
  induction values generalizing closure with
  | nil => exact ⟨closure, rfl, on⟩
  | cons value values ih =>
    rw [forall_mem_cons] at writes within
    obtain ⟨_, isFirst, onMiddle⟩ := writes.1 this closure
      (fun member => other (within.1 this member)) (old.trans_le on.next)
      fun id member => (allOld id (within.1 id member)).trans_le on.next
    rw [on.popTo other old based] at isFirst onMiddle
    obtain ⟨after, isRest, onAfter⟩ := ih writes.2 within.2 (onMiddle.mono within.1 on.next)
    refine ⟨after, ?_, onAfter⟩
    simp only [mapM_cons, bind, StateT.bind, isFirst, isRest, pure_apply, map_cons]

variable {value : JSValue}

theorem children_write (numberText : ℚ → Text) (limits : Limits) (fuel : ℕ) {id outer : ℕ}
    (popped : List (Option ℕ)) (children : List JSValue) (isIds : ids value = outer :: known)
    (finite : outer ∉ known) (allOld : ∀ inner ∈ ids value, inner < closure.next)
    (isId : id = outer ∨ id = closure.next) (write : ∀ child ∈ children,
      Writes numberText limits fuel child ∧ ∀ inner ∈ ids child, inner ∈ known) :
    ∃ after, children.mapM (serializeProperty numberText limits fuel id)
        { stack := some id :: popped, next := closure.next + 1 } =
      (children.map (truncate numberText limits isAssigned · (popped.length + 1)), after) ∧
      On popped (ids value) closure.next after := by
  rw [isIds, forall_mem_cons] at allOld
  have other : id ∉ known := by
    rcases isId with rfl | rfl
    · exact finite
    · exact fun member => (allOld.2 _ member).false
  have old : id < closure.next + 1 := by
    have := allOld.1
    omega
  have start : On (some id :: popped) known (closure.next + 1)
      { stack := some id :: popped, next := closure.next + 1 } := ⟨⟨[], rfl, by simp⟩, le_rfl⟩
  obtain ⟨after, isChildren, on⟩ := mapM_writes (fun child member => (write child member).1)
    (fun child member => (write child member).2) other old
    (fun inner member => (allOld.2 inner member).trans (Nat.lt_succ_self _))
    (dropWhile_cons_of_neg (by simp)) start
  obtain ⟨added, isStack, origin⟩ := on.added
  refine ⟨after, isChildren, ⟨added ++ [some id], by simp [isStack], fun frame member => ?_⟩,
    (Nat.le_succ _).trans on.next⟩
  rw [isIds, mem_cons]
  rcases mem_append.1 member with member | isFrame
  · exact (origin frame member).imp .inr Nat.le_of_succ_le
  · cases mem_singleton.1 isFrame
    exact isId.imp .inl Eq.ge

theorem mem_of_mem_withTruncatedKey {names : List Text} {key : Text}
    (member : key ∈ withTruncatedKey names) (other : key ≠ truncatedKey) : key ∈ names := by
  unfold withTruncatedKey at member
  split_ifs at member
  · exact member
  · simpa [other] using member

theorem excess_le {count kept : ℕ} {limit : Option ℚ} {extra : ℚ}
    (more : excess count limit = some (kept, extra)) : kept ≤ count := by
  cases limit with
  | none => cases more
  | some limit =>
    simp only [excess] at more
    split_ifs at more
    simp only [Option.some.injEq, Prod.mk.injEq] at more
    rw [← more.1, sliceEnd]
    split <;> omega

section Serialized

variable {fuel this : ℕ} {middle after : Closure}

theorem serialize_string {text : Text}
    (replaced : replacer numberText limits this value closure = (.string text, after)) :
    serializeProperty numberText limits (fuel + 1) this value closure =
      (some (.string text), after) := by
  simp [serializeProperty, bind, StateT.bind, replaced, pure_apply]

theorem summary_written {text : Text} {known : List ℕ} {popped : List (Option ℕ)}
    (replaced : replacer numberText limits this value closure =
      (.string text, ⟨none :: popped, closure.next + 1⟩)) :
    ∃ after, serializeProperty numberText limits (fuel + 1) this value closure =
      (some (.string text), after) ∧ On popped known closure.next after :=
  ⟨_, serialize_string replaced, ⟨[none], rfl, by simp⟩, Nat.le_succ _⟩

theorem serialize_array {id length : ℕ} {item : ℕ → JSValue} {items : List (Option Written)}
    (replaced : replacer numberText limits this value closure = (.array id length item, middle))
    (written : ((range length).map item).mapM (serializeProperty numberText limits fuel id) middle =
      (items, after)) :
    serializeProperty numberText limits (fuel + 1) this value closure =
      (some (.array (items.map (·.getD .null))), after) := by
  simp [serializeProperty, bind, StateT.bind, replaced, written, pure_apply]

theorem serialize_object {id : ℕ} {keys : List Text} {entry : Text → JSValue}
    {values : List (Option Written)}
    (replaced : replacer numberText limits this value closure = (.object id keys entry, middle))
    (written : (keys.map entry).mapM (serializeProperty numberText limits fuel id) middle =
      (values, after)) :
    serializeProperty numberText limits (fuel + 1) this value closure =
      (some (.object (pairs keys values)), after) := by
  simp [serializeProperty, bind, StateT.bind, replaced, written, pure_apply, -mapM_map]

end Serialized

theorem writes_leaf {fuel : ℕ} (enough : 0 < fuel) (leaf : ids value = []) :
    Writes numberText limits fuel value := by
  intro this closure other old allOld
  obtain ⟨fuel, rfl⟩ : ∃ k, fuel = k + 1 := ⟨fuel - 1, by omega⟩
  cases value with
  | array | object => cases leaf
  | _ => exact ⟨_, rfl, ⟨[], rfl, by simp⟩, le_rfl⟩

theorem writes_of_size (numberText : ℚ → Text) (limits : Limits) {fuel : ℕ}
    (enough : size value < fuel) (finite : Finite value) : Writes numberText limits fuel value := by
  induction value generalizing fuel with
  | array id length item ih =>
    intro this closure other old allOld
    obtain ⟨fuel, rfl⟩ : ∃ k, fuel = k + 1 := ⟨fuel - 1, by omega⟩
    have isBelow : ∀ i < length, size (item i) < fuel := by
      intro i below
      have := le_sum_of_mem (mem_map.2 ⟨i, mem_range.2 below, rfl⟩ :
        size (item i) ∈ (range length).map fun i => size (item i))
      simp only [size] at enough
      omega
    have write i (below : i < length) : Writes numberText limits fuel (item i) ∧
        ∀ inner ∈ ids (item i), inner ∈ (range length).flatMap fun i => ids (item i) :=
      ⟨ih i (isBelow i below) (finite.2 i below),
        fun inner member => mem_flatMap.2 ⟨i, mem_range.2 below, member⟩⟩
    cases deep : isDeep limits (popTo this closure.stack).length with
    | true =>
      rw [truncate, if_pos deep]
      exact summary_written (by simp [replacer, shorten, deep, identity])
    | false =>
      cases more : excess length limits.maxArrayLimit with
      | none =>
        obtain ⟨after, isItems, on⟩ := children_write numberText limits fuel (popTo this closure.stack)
          ((range length).map item) rfl finite.1 allOld (.inl rfl)
          (forall_mem_map.2 fun i below => write i (mem_range.1 below))
        refine ⟨after, (serialize_array (by simp [replacer, shorten, deep, more, identity])
          isItems).trans ?_, on⟩
        simp [truncate, deep, more, Function.comp_def]
      | some cut =>
        obtain ⟨kept, extra⟩ := cut
        have few := excess_le more
        obtain ⟨after, isItems, on⟩ := children_write numberText limits fuel (popTo this closure.stack)
          ((range kept).map item ++ [.string (extraValues numberText extra)]) rfl finite.1 allOld
          (.inr rfl) (by
            simp only [mem_append, mem_map, mem_range, mem_singleton]
            rintro _ (⟨i, below, rfl⟩ | rfl)
            · exact write i (by omega)
            · exact ⟨writes_leaf (by simp only [size] at enough; omega) rfl, by simp [ids]⟩)
        have isCopy : (range (kept + 1)).map (fun i =>
            if i < kept then item i else .string (extraValues numberText extra)) =
            (range kept).map item ++ [.string (extraValues numberText extra)] := by
          rw [range_succ, map_append]
          refine congrArg₂ _ (map_congr_left fun i member => if_pos (mem_range.1 member)) ?_
          simp
        rw [← isCopy] at isItems
        refine ⟨after, (serialize_array (by simp [replacer, shorten, deep, more, identity])
          isItems).trans ?_, on⟩
        rw [isCopy]
        simp [truncate, deep, more, Function.comp_def]
  | object id keys value ih =>
    intro this closure other old allOld
    obtain ⟨fuel, rfl⟩ : ∃ k, fuel = k + 1 := ⟨fuel - 1, by omega⟩
    have write key (member : key ∈ keys) : Writes numberText limits fuel (value key) ∧
        ∀ inner ∈ ids (value key), inner ∈ keys.flatMap fun key => ids (value key) := by
      refine ⟨ih key ?_ (finite.2 key member),
        fun inner isInner => mem_flatMap.2 ⟨key, member, isInner⟩⟩
      have := le_sum_of_mem (mem_map.2 ⟨key, member, rfl⟩ :
        size (value key) ∈ keys.map fun key => size (value key))
      simp only [size] at enough
      omega
    cases deep : isDeep limits (popTo this closure.stack).length with
    | true =>
      rw [truncate, if_pos deep]
      exact summary_written (by simp [replacer, shorten, deep, identity])
    | false =>
      cases more : excess keys.length limits.maxObjectKeysLimit with
      | none =>
        obtain ⟨after, isValues, on⟩ := children_write numberText limits fuel (popTo this closure.stack)
          (keys.map value) rfl finite.1 allOld (.inl rfl) (forall_mem_map.2 write)
        refine ⟨after, (serialize_object (by simp [replacer, shorten, deep, more, identity])
          isValues).trans ?_, on⟩
        simp [truncate, deep, more, Function.comp_def]
      | some cut =>
        obtain ⟨kept, extra⟩ := cut
        obtain ⟨after, isValues, on⟩ := children_write numberText limits fuel (popTo this closure.stack)
          ((withTruncatedKey ((keys.take kept).filter isAssigned)).map fun key =>
            if key = truncatedKey then .number extra else value key) rfl finite.1 allOld
          (.inr rfl) (forall_mem_map.2 fun key member => by
            split_ifs with isTruncated
            · exact ⟨writes_leaf (by simp only [size] at enough; omega) rfl, by simp [ids]⟩
            · have inNames := mem_of_mem_withTruncatedKey member isTruncated
              exact write key (mem_of_mem_take (mem_of_mem_filter inNames)))
        have isTruncate (depth : ℕ) : (fun key => truncate numberText limits isAssigned
            (if key = truncatedKey then .number extra else value key) depth) = fun key =>
            if key = truncatedKey then some (.number extra)
            else truncate numberText limits isAssigned (value key) depth := by
          funext key
          split_ifs <;> rfl
        refine ⟨after, (serialize_object (by simp [replacer, shorten, deep, more, identity])
          isValues).trans ?_, on⟩
        rw [List.map_map, Function.comp_def, isTruncate]
        simp [truncate, deep, more]
  | _ => exact writes_leaf (by omega) rfl

/-- **The depth does not depend on earlier calls**, which leave any stack of older values. -/
theorem stringifySafe_eq (finite : Finite value) (known : ∀ id ∈ ids value, id < closure.next)
    (old : ∀ id, some id ∈ closure.stack → id < closure.next) :
    (stringifySafe numberText limits value closure).1 =
      truncate numberText limits isAssigned value 0 := by
  unfold stringifySafe
  split
  next => rfl
  next =>
    obtain ⟨_, isWritten, -⟩ := writes_of_size numberText limits
      (Nat.lt_succ_self (size value)) finite closure.next
      { closure with next := closure.next + 1 } (fun member => (known _ member).false)
      (Nat.lt_succ_self _) fun id member => (known id member).trans (Nat.lt_succ_self _)
    have empty : popTo closure.next closure.stack = [] := by
      refine dropWhile_eq_nil_iff.2 fun frame member => ?_
      simp only [decide_eq_true_eq]
      rintro rfl
      exact (old _ member).false
    rw [isWritten, empty]
    rfl

/-! ### Where keys are lost -/

def Plain : JSValue → Prop := All fun value => match value with
  | .undefined | .function _ => False
  | _ => True

/-- No object that is cut and written has `__proto__` among the keys that are left. -/
def KeepsKeys (limits : Limits) : JSValue → ℕ → Prop
  | .array _ length item, depth => isDeep limits depth = false →
    ∀ i < (excess length limits.maxArrayLimit).elim length (·.1), KeepsKeys limits (item i) (depth + 1)
  | .object _ keys value, depth => isDeep limits depth = false →
    match excess keys.length limits.maxObjectKeysLimit with
    | none => ∀ key ∈ keys, KeepsKeys limits (value key) (depth + 1)
    | some (kept, _) => units "__proto__" ∉ keys.take kept ∧
      ∀ key ∈ keys.take kept, key ≠ truncatedKey → KeepsKeys limits (value key) (depth + 1)
  | _, _ => True

theorem truncate_isSome {counts : Text → Bool} {depth : ℕ} (plain : Plain value) :
    (truncate numberText limits counts value depth).isSome := by
  cases value with
  | undefined | function => exact plain.elim
  | array | object =>
    rw [truncate]
    split <;> rfl
  | _ => rfl

theorem getD_inj {first second : Option Written} (isFirst : first.isSome) (isSecond : second.isSome) :
    first.getD .null = second.getD .null ↔ first = second := by
  cases first <;> cases second <;> simp_all

theorem pairs_map {keys : List Text} {value : Text → Option Written}
    (written : ∀ key ∈ keys, (value key).isSome) :
    pairs keys (keys.map value) = keys.map fun key => (key, (value key).getD .null) := by
  induction keys with
  | nil => rfl
  | cons key keys ih =>
    rw [forall_mem_cons] at written
    obtain ⟨_, isHere⟩ := Option.isSome_iff_exists.1 written.1
    have := ih written.2
    simp only [pairs] at this
    simp [pairs, isHere, this]

theorem pairs_inj {keys : List Text} {first second : Text → Option Written}
    (isFirst : ∀ key ∈ keys, (first key).isSome) (isSecond : ∀ key ∈ keys, (second key).isSome) :
    pairs keys (keys.map first) = pairs keys (keys.map second) ↔
      ∀ key ∈ keys, first key = second key := by
  rw [pairs_map isFirst, pairs_map isSecond, map_inj_left]
  refine forall₂_congr fun key member => ?_
  rw [Prod.mk.injEq, getD_inj (isFirst key member) (isSecond key member)]
  exact and_iff_right rfl

theorem truncate_eq_iff {depth : ℕ} (plain : Plain value) :
    truncate numberText limits isAssigned value depth =
      truncate numberText limits (fun _ => true) value depth ↔ KeepsKeys limits value depth := by
  induction value generalizing depth with
  | array id length item ih =>
    cases deep : isDeep limits depth with
    | true => simp [truncate, KeepsKeys, deep]
    | false =>
      have items count (few : count ≤ length) : (∀ i < count,
          (truncate numberText limits isAssigned (item i) (depth + 1)).getD .null =
            (truncate numberText limits (fun _ => true) (item i) (depth + 1)).getD .null) ↔
          ∀ i < count, KeepsKeys limits (item i) (depth + 1) := by
        refine forall₂_congr fun i below => ?_
        have plainItem := plain.2 i (by omega)
        rw [getD_inj (truncate_isSome plainItem) (truncate_isSome plainItem), ih i plainItem]
      cases more : excess length limits.maxArrayLimit with
      | none => simpa [truncate, KeepsKeys, deep, more] using items length le_rfl
      | some cut => simpa [truncate, KeepsKeys, deep, more] using items cut.1 (excess_le more)
  | object id keys value ih =>
    cases deep : isDeep limits depth with
    | true => simp [truncate, KeepsKeys, deep]
    | false =>
      cases more : excess keys.length limits.maxObjectKeysLimit with
      | none =>
        simp only [truncate, KeepsKeys, deep, more, Bool.false_eq_true, if_false, Option.some.injEq,
          Written.object.injEq, forall_const]
        rw [pairs_inj (fun key member => truncate_isSome (plain.2 key member))
          fun key member => truncate_isSome (plain.2 key member)]
        exact forall₂_congr fun key member => ih key (plain.2 key member)
      | some cut =>
        obtain ⟨kept, extra⟩ := cut
        simp only [truncate, KeepsKeys, deep, more, Bool.false_eq_true, if_false, Option.some.injEq,
          Written.object.injEq, forall_const, filter_true]
        have written {counts : Text → Bool} (names : List Text)
            (within : ∀ key ∈ names, key ∈ keys.take kept) : ∀ key ∈ withTruncatedKey names,
            (if key = truncatedKey then some (Written.number extra)
              else truncate numberText limits counts (value key) (depth + 1)).isSome := by
          intro key member
          split_ifs with isTruncated
          · rfl
          · have inNames := within key (mem_of_mem_withTruncatedKey member isTruncated)
            exact truncate_isSome (plain.2 key (mem_of_mem_take inNames))
        by_cases lost : units "__proto__" ∈ keys.take kept
        · refine iff_of_false (fun same => ?_) fun keeps => keeps.1 lost
          have shorter : ((keys.take kept).filter isAssigned).length < (keys.take kept).length :=
            length_filter_lt_length_iff_exists.2 ⟨_, lost, by simp [isAssigned]⟩
          have sameLength := congrArg List.length same
          rw [pairs_map (written _ fun _ => mem_of_mem_filter),
            pairs_map (written _ fun _ member => member), length_map, length_map] at sameLength
          have kept : truncatedKey ∈ (keys.take kept).filter isAssigned ↔
              truncatedKey ∈ keys.take kept := by
            rw [mem_filter, and_iff_left (by decide)]
          unfold withTruncatedKey at sameLength
          split_ifs at sameLength <;> simp_all
          omega
        · have all : (keys.take kept).filter isAssigned = keys.take kept :=
            filter_eq_self.2 fun key member => by
              simp only [isAssigned, decide_eq_true_eq]
              rintro rfl
              exact lost member
          rw [all, pairs_inj (written _ fun _ member => member) (written _ fun _ member => member),
            and_iff_right lost]
          constructor
          · intro same key member other
            have sameKey := same key (by unfold withTruncatedKey; split_ifs <;> simp [member])
            rw [if_neg other, if_neg other] at sameKey
            exact (ih key (plain.2 key (mem_of_mem_take member))).1 sameKey
          · intro keeps key member
            split_ifs with isTruncated
            · rfl
            · have inNames := mem_of_mem_withTruncatedKey member isTruncated
              exact (ih key (plain.2 key (mem_of_mem_take inNames))).2
                (keeps key inNames isTruncated)
  | undefined | function => exact plain.elim
  | _ => exact iff_of_true rfl trivial

/-- **The document is that of the truncated value, whatever calls there were before, exactly if no
object that is cut has `__proto__` among the keys that are left.** -/
theorem stringifySafe_truncates_iff (numberText : ℚ → Text) (limits : Limits) (value : JSValue)
    (closure : Closure) (plain : Plain value) (finite : Finite value)
    (known : ∀ id ∈ ids value, id < closure.next)
    (old : ∀ id, some id ∈ closure.stack → id < closure.next) :
    (stringifySafe numberText limits value closure).1 =
      truncate numberText limits (fun _ => true) value 0 ↔ KeepsKeys limits value 0 := by
  rw [stringifySafe_eq finite known old, truncate_eq_iff plain]

def sample : JSValue := .object 0 [units "__proto__", units "a"] fun key =>
  .number (if key = units "a" then 2 else 1)

theorem stringifySafe_truncates_iff_sample :
    (stringifySafe (fun _ => []) { maxDepth := some 1 } (.array 1 1 fun _ => sample)
      { stack := [some 1, none, some 0], next := 2 }).1 =
      truncate (fun _ => []) { maxDepth := some 1 } (fun _ => true) (.array 1 1 fun _ => sample) 0 ↔
      KeepsKeys { maxDepth := some 1 } (.array 1 1 fun _ => sample) 0 :=
  stringifySafe_truncates_iff _ _ _ _ (by simp [Plain, All, sample]) (by simp [Finite, All, sample, ids])
    (by simp [sample, ids]) (by simp)

theorem proto_lost : ¬ ∀ (limits : Limits) value closure, Plain value → Finite value →
    (∀ id ∈ ids value, id < closure.next) → (∀ id, some id ∈ closure.stack → id < closure.next) →
    (stringifySafe (fun _ => []) limits value closure).1 =
      truncate (fun _ => []) limits (fun _ => true) value 0 := by
  intro truncates
  have plain : Plain sample := by simp [Plain, All, sample]
  have finite : Finite sample := by simp [Finite, All, sample, ids]
  have known : ∀ id ∈ ids sample, id < 1 := by simp [sample, ids]
  have same := truncates { maxObjectKeysLimit := some 1 } sample { next := 1 } plain finite known
    (by simp)
  rw [stringifySafe_eq finite known (by simp), truncate_eq_iff plain] at same
  have kept := same rfl
  simp [excess, sliceEnd, toInteger] at kept

end ReactNative.StringifySafe


