import Mathlib.Data.List.ReduceOption
import ReactNative.Storage.AsyncStorageModule

/-! A call settles if its callback is invoked once, either with an error, and then the table is as
before, or without one, and then all of it has been applied. -/
namespace ReactNative

open List Option

namespace AsyncStorageModule

/-- The table by its keys. -/
abbrev Items := JavaString → Option JavaString

inductive AndroidCall where
  | multiSet (keyValueArray : List ReadableEntry)
  | multiMerge (keyValueArray : List ReadableEntry)
  | multiRemove (keys : List ReadableItem)
  | multiGet (keys : Option (List ReadableItem))

section

variable {Key Number : Type} [DecidableEq Key]
  (parse : JavaString → Option (JSONValue Key Number))
  (stringify : JSONValue Key Number → JavaString)

variable (faults : DatabaseFaults) (before : CatalystTable)

def perform : AndroidCall → TaskOutcome
  | .multiSet keyValueArray => multiSet faults keyValueArray before
  | .multiMerge keyValueArray => multiMerge parse stringify faults keyValueArray before
  | .multiRemove keys => multiRemove faults keys before
  | .multiGet keys => multiGet faults keys before

def setItemIn (items : Items) (pair : JavaString × JavaString) : Option Items :=
  some (Function.update items pair.1 (some pair.2))

def mergeItemIn (items : Items) (pair : JavaString × JavaString) : Option Items :=
  (mergedText parse stringify (items pair.1) pair.2).map fun newValue =>
    Function.update items pair.1 (some newValue)

def Applied (before after : CatalystTable) (data : List (JavaString × Option JavaString)) :
    AndroidCall → Prop
  | .multiSet keyValueArray => ∃ pairs : List (JavaString × JavaString),
      keyValueArray = pairs.map ReadableEntry.ofPair ∧
      pairs.foldlM setItemIn before.getItem = some after.getItem
  | .multiMerge keyValueArray => ∃ pairs : List (JavaString × JavaString),
      keyValueArray = pairs.map ReadableEntry.ofPair ∧
      pairs.foldlM (mergeItemIn parse stringify) before.getItem = some after.getItem
  | .multiRemove keys => ∀ key, after.getItem key =
      if ReadableItem.string key ∈ keys then none else before.getItem key
  | .multiGet keys => after = before ∧ ∀ pair, pair ∈ data ↔
      ReadableItem.string pair.1 ∈ keys.getD [] ∧ pair.2 = before.getItem pair.1

/-- The callback is invoked once, and the table is as it says. -/
def Settles (call : AndroidCall) (outcome : TaskOutcome) : Prop :=
  (∃ error, outcome.callbacks = [.failure error] ∧ outcome.table = before) ∨
    ∃ data, outcome.callbacks = [.success data] ∧
      Applied parse stringify before outcome.table data call

/-- The pairs applied one after the other, unless something fails. -/
def applyPairs (plain : Items → JavaString × JavaString → Option Items) (fails : ℕ → Bool) :
    ℕ → List (JavaString × JavaString) → Items → Option Items
  | _, [], items => some items
  | idx, pair :: rest, items =>
    if fails idx then none else (plain items pair).bind (applyPairs plain fails (idx + 1) rest)

/-- An entry of another size than two, or one whose key or whose value is null. -/
def Refused (entry : ReadableEntry) : Prop :=
  ∃ items, entry = .array items ∧
    (items.length ≠ 2 ∨ (∃ value, items = [.null, value]) ∨ ∃ key, items = [.string key, .null])

/-- The loop gets to the entry, with the items that the pairs before it leave. -/
def Reaches (plain : Items → JavaString × JavaString → Option Items) (fails : ℕ → Bool)
    (keyValueArray : List ReadableEntry) (before : Items) (idx : ℕ) (entry : ReadableEntry)
    (items : Items) : Prop :=
  ∃ (pairs : List (JavaString × JavaString)) (rest : List ReadableEntry),
    keyValueArray = pairs.map ReadableEntry.ofPair ++ entry :: rest ∧
    idx = pairs.length ∧ applyPairs plain fails 0 pairs before = some items

def mergeFails (idx : ℕ) : Bool := faults.statementThrows idx || faults.insertFails idx

/-- No exception leaves the task, and the loops get to nothing that they refuse. -/
def Answerable : AndroidCall → Prop
  | .multiSet keyValueArray => keyValueArray = [] ∨ faults.shuttingDown = true ∨
      faults.ensureDatabaseThrows = false ∧ faults.compileStatementThrows = false ∧
        (faults.beginTransactionThrows = true ∨ ∀ idx entry items,
          Reaches setItemIn faults.statementThrows keyValueArray before.getItem idx entry items →
            ¬ Refused entry)
  | .multiMerge keyValueArray => faults.shuttingDown = true ∨ faults.ensureDatabaseThrows = false ∧
        (faults.beginTransactionThrows = true ∨ ∀ idx entry items,
          Reaches (mergeItemIn parse stringify) (mergeFails faults) keyValueArray before.getItem
              idx entry items →
            ¬ Refused entry ∧ ∀ pair, entry = .ofPair pair →
              mergedText parse stringify (items pair.1) pair.2 ≠ none →
                faults.statementThrows idx = false → faults.insertFails idx = false)
  | .multiRemove keys => keys = [] ∨ faults.shuttingDown = true ∨
      faults.ensureDatabaseThrows = false
  | .multiGet keys => keys = none ∨ faults.shuttingDown = true ∨
      faults.ensureDatabaseThrows = false ∧
        ∀ earlier keyStart later, keyStarts (keys.getD []).length 0 = earlier ++ keyStart :: later →
          (∀ start ∈ earlier, faults.cursorThrows start = false) →
            faults.statementThrows keyStart = false ∧
              ∀ item ∈ keySlice (keys.getD []) keyStart, ∃ value, item = .string value

end

/-! ### The table -/

variable {key value : JavaString}

theorem lookup_eq_some_iff {rows : List (JavaString × JavaString)}
    (distinct : (rows.map Prod.fst).Nodup) :
    rows.lookup key = some value ↔ (key, value) ∈ rows := by
  induction rows with
  | nil => simp
  | cons row rest ih =>
    obtain ⟨rowKey, _⟩ := row
    obtain ⟨missing, distinct⟩ := nodup_cons.mp distinct
    rw [lookup_cons]
    by_cases same : key = rowKey
    · subst same
      have elsewhere : (key, value) ∉ rest := fun member =>
        missing (mem_map.mpr ⟨_, member, rfl⟩)
      simp [elsewhere, eq_comm]
    · rw [beq_false_of_ne same]
      simp [same, ih distinct]

theorem getItem_eq_some_iff {table : CatalystTable} :
    table.getItem key = some value ↔ (key, value) ∈ table.rows :=
  lookup_eq_some_iff table.distinct

theorem getItem_setItem (table : CatalystTable) (key value : JavaString) :
    (table.setItem key value).getItem = Function.update table.getItem key (some value) := by
  funext other
  refine Option.ext fun found => ?_
  rw [getItem_eq_some_iff]
  by_cases same : other = key
  · subst same
    simp [CatalystTable.setItem, eq_comm]
  · rw [Function.update_of_ne same, getItem_eq_some_iff]
    simp [CatalystTable.setItem, same]

theorem getItem_delete (table : CatalystTable) (args : List (Option JavaString))
    (key : JavaString) :
    (table.delete args).getItem key = if some key ∈ args then none else table.getItem key := by
  refine Option.ext fun found => ?_
  rw [getItem_eq_some_iff]
  by_cases deleted : some key ∈ args
  · simp [CatalystTable.delete, deleted]
  · rw [if_neg deleted, getItem_eq_some_iff]
    simp [CatalystTable.delete, deleted]

/-! ### The loop over entries -/

theorem ReadableEntry.bySize {holds : ReadableEntry → Prop} (isNull : holds .null)
    (isOther : holds .other)
    (otherSize : ∀ items : List ReadableItem, items.length ≠ 2 → holds (.array items))
    (two : ∀ keyItem valueItem, holds (.array [keyItem, valueItem])) (entry : ReadableEntry) :
    holds entry := by
  cases entry with
  | null => exact isNull
  | other => exact isOther
  | array items =>
    by_cases size : items.length = 2
    · obtain ⟨keyItem, valueItem, rfl⟩ := length_eq_two.mp size
      exact two keyItem valueItem
    · exact otherSize items size

theorem checkEntry_of_size {items : List ReadableItem} (size : items.length ≠ 2) :
    checkEntry (.array items) = .error (.returns .invalidValue) := by
  rw [checkEntry]
  rintro keyItem valueItem rfl
  exact size rfl

theorem checkEntry_eq_ok_iff {entry : ReadableEntry} {pair : JavaString × JavaString} :
    checkEntry entry = .ok pair ↔ entry = .ofPair pair := by
  obtain ⟨-, -⟩ := pair
  rw [ReadableEntry.ofPair]
  induction entry using ReadableEntry.bySize with
  | isNull | isOther => simp [checkEntry]
  | otherSize _ size =>
    rw [checkEntry_of_size size]
    constructor
    · nofun
    · rintro ⟨⟩
      exact absurd rfl size
  | two keyItem valueItem =>
    cases keyItem <;> cases valueItem <;> simp [checkEntry, getString]

theorem checkEntry_returns_iff {entry : ReadableEntry} :
    (∃ error, checkEntry entry = .error (.returns error)) ↔ Refused entry := by
  rw [Refused]
  induction entry using ReadableEntry.bySize with
  | isNull | isOther => simp [checkEntry]
  | otherSize items size =>
    exact iff_of_true ⟨_, checkEntry_of_size size⟩ ⟨items, rfl, Or.inl size⟩
  | two keyItem valueItem =>
    cases keyItem <;> cases valueItem <;> simp [checkEntry, getString]

section

variable {act : ℕ → CatalystTable → JavaString × JavaString → Except Exit CatalystTable}
  {plain : Items → JavaString × JavaString → Option Items} {fails : ℕ → Bool}
  {refuses : ℕ → Items → JavaString × JavaString → Prop}

structure TurnSpec (act : ℕ → CatalystTable → JavaString × JavaString → Except Exit CatalystTable)
    (plain : Items → JavaString × JavaString → Option Items) (fails : ℕ → Bool)
    (refuses : ℕ → Items → JavaString × JavaString → Prop) : Prop where
  ok : ∀ idx table pair items, (∃ next, act idx table pair = .ok next ∧ next.getItem = items) ↔
    fails idx = false ∧ plain table.getItem pair = some items
  returns : ∀ idx table pair, (∃ error, act idx table pair = .error (.returns error)) ↔
    refuses idx table.getItem pair

variable {idx : ℕ} {table : CatalystTable}

theorem TurnSpec.ok_of_plain (spec : TurnSpec act plain fails refuses)
    {pair : JavaString × JavaString} {next : CatalystTable} (acts : act idx table pair = .ok next) :
    fails idx = false ∧ plain table.getItem pair = some next.getItem :=
  (spec.ok idx table pair next.getItem).mp ⟨next, acts, rfl⟩

variable {entries : List ReadableEntry}

section

variable (spec : TurnSpec act plain fails refuses)
include spec

theorem TurnSpec.forEntries_ok {after : CatalystTable}
    (runs : forEntries act idx entries table = .ok after) :
    ∃ pairs, entries = pairs.map ReadableEntry.ofPair ∧
      applyPairs plain fails idx pairs table.getItem = some after.getItem := by
  induction entries generalizing idx table with
  | nil =>
    cases runs
    exact ⟨[], rfl, rfl⟩
  | cons _ _ ih =>
    rw [forEntries] at runs
    split at runs
    next => cases runs
    next pair checked =>
      split at runs
      next => cases runs
      next next acts =>
        obtain ⟨succeeds, isNext⟩ := spec.ok_of_plain acts
        obtain ⟨pairs, rfl, applied⟩ := ih runs
        refine ⟨pair :: pairs, ?_, ?_⟩
        · rw [checkEntry_eq_ok_iff.mp checked, map_cons]
        · rw [applyPairs, succeeds, if_neg Bool.false_ne_true, isNext]
          exact applied

theorem TurnSpec.forEntries_returns_iff :
    (∃ error, forEntries act idx entries table = .error (.returns error)) ↔
      ∃ (pairs : List (JavaString × JavaString)) (entry : ReadableEntry)
        (rest : List ReadableEntry) (items : Items),
        entries = pairs.map ReadableEntry.ofPair ++ entry :: rest ∧
        applyPairs plain fails idx pairs table.getItem = some items ∧
        (Refused entry ∨ ∃ pair, entry = .ofPair pair ∧ refuses (idx + pairs.length) items pair) := by
  -- Induction over the entries, for every table that the earlier ones may have left.
  induction entries generalizing idx table with
  | nil => simp [forEntries]
  | cons entry rest ih =>
    rw [forEntries]
    constructor
    -- From the run: the first entry is refused here, or plain, and then a later one is.
    · rintro ⟨error, runs⟩
      split at runs
      next exit checked =>
        cases runs
        exact ⟨[], entry, rest, table.getItem, rfl, rfl, Or.inl (checkEntry_returns_iff.mp ⟨error, checked⟩)⟩
      next pair checked =>
        obtain rfl := checkEntry_eq_ok_iff.mp checked
        split at runs
        next exit acts =>
          cases runs
          refine ⟨[], .ofPair pair, rest, table.getItem, rfl, rfl, Or.inr ⟨pair, rfl, ?_⟩⟩
          exact (spec.returns idx table pair).mp ⟨error, acts⟩
        next next acts =>
          obtain ⟨succeeds, isNext⟩ := spec.ok_of_plain acts
          obtain ⟨pairs, later, others, items, rfl, applied, refused⟩ := ih.mp ⟨error, runs⟩
          refine ⟨pair :: pairs, later, others, items, rfl, ?_, ?_⟩
          · rw [applyPairs, succeeds, if_neg Bool.false_ne_true, isNext]
            exact applied
          · rw [length_cons, Nat.add_comm pairs.length 1, ← Nat.add_assoc]
            exact refused
    -- Back: the pairs before the refused entry are all applied.
    · rintro ⟨pairs, later, others, items, isEntries, applied, refused⟩
      cases pairs with
      | nil =>
        obtain ⟨rfl, rfl⟩ := List.cons.inj isEntries
        cases applied
        rcases refused with refused | ⟨pair, rfl, refused⟩
        · obtain ⟨error, checked⟩ := checkEntry_returns_iff.mpr refused
          exact ⟨error, by rw [checked]⟩
        · obtain ⟨error, acts⟩ := (spec.returns idx table pair).mpr refused
          rw [checkEntry_eq_ok_iff.mpr rfl]
          simp [acts]
      | cons pair pairs =>
        obtain ⟨rfl, rfl⟩ := List.cons.inj isEntries
        rw [applyPairs] at applied
        split at applied
        next => cases applied
        next succeeds =>
          obtain ⟨nextItems, isNext, applied⟩ := bind_eq_some_iff.mp applied
          obtain ⟨next, acts, rfl⟩ := (spec.ok idx table pair nextItems).mpr
            ⟨Bool.not_eq_true _ ▸ succeeds, isNext⟩
          rw [checkEntry_eq_ok_iff.mpr rfl]
          simp only [acts]
          refine ih.mpr ⟨pairs, later, others, items, rfl, applied, ?_⟩
          rw [length_cons, Nat.add_comm pairs.length 1, ← Nat.add_assoc] at refused
          exact refused

theorem TurnSpec.not_returns_iff :
    (¬ ∃ error, forEntries act 0 entries table = .error (.returns error)) ↔
      ∀ idx entry items, Reaches plain fails entries table.getItem idx entry items →
        ¬ Refused entry ∧ ∀ pair, entry = .ofPair pair → ¬ refuses idx items pair := by
  rw [spec.forEntries_returns_iff]
  constructor
  · rintro notReturns idx entry items ⟨pairs, rest, isEntries, rfl, applied⟩
    refine ⟨fun refused => ?_, fun pair isPair refused => ?_⟩
    · exact notReturns ⟨pairs, entry, rest, items, isEntries, applied, Or.inl refused⟩
    · refine notReturns ⟨pairs, entry, rest, items, isEntries, applied, Or.inr ⟨pair, isPair, ?_⟩⟩
      rw [Nat.zero_add]
      exact refused
  · rintro notRefused ⟨pairs, entry, rest, items, isEntries, applied, refused⟩
    have here := notRefused pairs.length entry items ⟨pairs, rest, isEntries, rfl, applied⟩
    rcases refused with refused | ⟨pair, isPair, refused⟩
    · exact here.1 refused
    · rw [Nat.zero_add] at refused
      exact here.2 pair isPair refused

end

theorem foldlM_of_applyPairs {pairs : List (JavaString × JavaString)}
    {items after : Items} (applied : applyPairs plain fails idx pairs items = some after) :
    pairs.foldlM plain items = some after := by
  induction pairs generalizing idx items with
  | nil => exact applied
  | cons _ _ ih =>
    rw [applyPairs] at applied
    split at applied
    next => cases applied
    next =>
      obtain ⟨_, isNext, applied⟩ := bind_eq_some_iff.mp applied
      rw [foldlM_cons, isNext]
      exact ih applied

end

theorem setPair_spec (faults : DatabaseFaults) :
    TurnSpec (setPair faults) setItemIn faults.statementThrows fun _ _ _ => False where
  ok idx table pair items := by
    rw [setPair, setItemIn, ← getItem_setItem]
    cases faults.statementThrows idx with
    | true => simp
    | false => simp
  returns idx table pair := by
    rw [setPair]
    cases faults.statementThrows idx with
    | true => simp
    | false => simp

section

variable {Key Number : Type} [DecidableEq Key]
  (parse : JavaString → Option (JSONValue Key Number))
  (stringify : JSONValue Key Number → JavaString)

theorem mergeImpl_spec (faults : DatabaseFaults) :
    TurnSpec (mergeImpl parse stringify faults) (mergeItemIn parse stringify) (mergeFails faults)
      fun idx items pair => faults.statementThrows idx = false ∧ faults.insertFails idx = true ∧
        mergedText parse stringify (items pair.1) pair.2 ≠ none where
  ok idx table pair items := by
    rw [mergeImpl, mergeItemIn, mergeFails]
    cases faults.statementThrows idx with
    | true => simp
    | false =>
      cases mergedText parse stringify (table.getItem pair.1) pair.2 with
      | none => simp
      | some newValue =>
        rw [map_some, ← getItem_setItem]
        cases faults.insertFails idx with
        | true => simp
        | false => simp
  returns idx table pair := by
    rw [mergeImpl]
    cases faults.statementThrows idx with
    | true => simp
    | false =>
      cases mergedText parse stringify (table.getItem pair.1) pair.2 with
      | none => simp
      | some newValue =>
        cases faults.insertFails idx with
        | true => simp
        | false => simp

/-! ### Tasks -/

variable {parse stringify} {faults : DatabaseFaults} {before : CatalystTable} {call : AndroidCall}

theorem settles_of_failure (error : AsyncStorageError) :
    Settles parse stringify before call ⟨before, [.failure error]⟩ :=
  Or.inl ⟨error, rfl, rfl⟩

theorem not_settles_unanswered (table : CatalystTable) :
    ¬ Settles parse stringify before call ⟨table, []⟩ := by
  rintro (⟨_, answered, -⟩ | ⟨_, answered, -⟩)
  · cases answered
  · cases answered

theorem settles_ensureDatabase {task : TaskOutcome} :
    Settles parse stringify before call (ensureDatabase faults before task) ↔
      faults.shuttingDown = true ∨
        faults.ensureDatabaseThrows = false ∧ Settles parse stringify before call task := by
  rw [ensureDatabase]
  cases faults.shuttingDown with
  | true => simpa using settles_of_failure .dbError
  | false =>
    cases faults.ensureDatabaseThrows with
    | true => simpa using not_settles_unanswered before
    | false => simp

theorem settles_inTransaction {block : CatalystTable → Except Exit CatalystTable}
    (applied : ∀ after, block before = .ok after → Applied parse stringify before after [] call) :
    Settles parse stringify before call (inTransaction faults before block) ↔
      faults.beginTransactionThrows = true ∨ ¬ ∃ error, block before = .error (.returns error) := by
  rw [inTransaction]
  cases faults.beginTransactionThrows with
  | true => simpa using settles_of_failure .exception
  | false =>
    rw [if_neg Bool.false_ne_true]
    split
    next written ends =>
      have settled : Settles parse stringify before call
          (if faults.endTransactionThrows then ⟨before, [.failure .exception]⟩
            else ⟨written, [.success []]⟩) := by
        split
        next => exact settles_of_failure .exception
        next => exact Or.inr ⟨[], rfl, applied written ends⟩
      simp [ends, settled]
    next error ends => simp [ends, not_settles_unanswered]
    next ends => simp [ends, settles_of_failure]

/-! ### Slices -/

variable (keys : List ReadableItem)

theorem keySlice_eq (keyStart : ℕ) :
    keySlice keys keyStart = (keys.drop keyStart).take maxSqlKeys := by
  rw [keySlice, Nat.min_comm, ← length_drop, ← take_eq_take_min]

theorem flatMap_keySlice (keyStart : ℕ) :
    (keyStarts keys.length keyStart).flatMap (keySlice keys) = keys.drop keyStart := by
  fun_induction keyStarts keys.length keyStart with
  | case1 keyStart before ih =>
    rw [flatMap_cons, ih, keySlice_eq, ← drop_drop, take_append_drop]
  | case2 keyStart after => rw [flatMap_nil, drop_eq_nil_of_le (Nat.le_of_not_lt after)]

variable {keys : List ReadableItem}

theorem mem_keySlice_iff {item : ReadableItem} :
    (∃ keyStart ∈ keyStarts keys.length 0, item ∈ keySlice keys keyStart) ↔ item ∈ keys := by
  rw [← mem_flatMap, flatMap_keySlice, drop_zero]

theorem buildKeySelectionArgs_spec (items : List ReadableItem) :
    (∃ args, buildKeySelectionArgs items = .ok args ∧ args.length = items.length ∧
        (∀ key, some key ∈ args ↔ .string key ∈ items) ∧ (none ∈ args ↔ .null ∈ items) ∧
        .other ∉ items) ∨ buildKeySelectionArgs items = .error .throws ∧ .other ∈ items := by
  induction items with
  | nil => exact Or.inl ⟨[], by simp [buildKeySelectionArgs]⟩
  | cons item _ ih =>
    rw [buildKeySelectionArgs]
    rcases ih with ⟨args, isArgs, sameLength, strings, nulls, noOther⟩ | ⟨throws, member⟩
    · cases item with
      | null => exact Or.inl ⟨none :: args, by simp [getString, isArgs, sameLength, strings, noOther]⟩
      | string value =>
        exact Or.inl ⟨some value :: args,
          by simp [getString, isArgs, sameLength, strings, nulls, noOther]⟩
      | other => exact Or.inr (by simp [getString])
    · cases item with
      | null | string | other => exact Or.inr (by simp [getString, throws, member])

theorem deleteSlices_not_returns (keys : List ReadableItem) (starts : List ℕ)
    (table : CatalystTable) (error : AsyncStorageError) :
    deleteSlices faults keys starts table ≠ .error (.returns error) := by
  induction starts generalizing table with
  | nil => exact nofun
  | cons keyStart _ ih =>
    rw [deleteSlices]
    rcases buildKeySelectionArgs_spec (keySlice keys keyStart) with ⟨_, isArgs, -⟩ | ⟨throws, -⟩
    · simp only [isArgs]
      split
      next => exact nofun
      next => exact ih _
    · simp [throws]

variable {starts : List ℕ} {table : CatalystTable}

theorem getItem_deleteSlices
    {after : CatalystTable} (runs : deleteSlices faults keys starts table = .ok after)
    (key : JavaString) :
    after.getItem key = if ∃ keyStart ∈ starts, .string key ∈ keySlice keys keyStart then none
      else table.getItem key := by
  induction starts generalizing table with
  | nil =>
    cases runs
    simp
  | cons keyStart _ ih =>
    rw [deleteSlices] at runs
    rcases buildKeySelectionArgs_spec (keySlice keys keyStart) with
      ⟨args, isArgs, -, strings, -⟩ | ⟨throws, -⟩
    · simp only [isArgs] at runs
      split at runs
      next => cases runs
      next =>
        rw [ih runs, getItem_delete]
        by_cases here : .string key ∈ keySlice keys keyStart
        · simp [strings, here]
        · simp [strings, here]
    · simp [throws] at runs

theorem mem_sliceData_iff {size : ℕ} {args : List JavaString} (fits : args.length ≤ size)
    (table : CatalystTable) (pair : JavaString × Option JavaString) :
    pair ∈ sliceData size (table.query args) args ↔
      pair.1 ∈ args ∧ pair.2 = table.getItem pair.1 := by
  obtain ⟨key, value⟩ := pair
  have isRow : ∀ key value, (key, value) ∈ table.query args ↔
      key ∈ args ∧ table.getItem key = some value := by
    intro key value
    rw [getItem_eq_some_iff]
    -- A row is an argument with its value.
    simp [CatalystTable.query, and_comm]
  have isFound : ∀ key, key ∈ (table.query args).map Prod.fst ↔
      key ∈ args ∧ table.getItem key ≠ none := by
    simp [isRow, ne_none_iff_exists']
  -- As many rows as arguments means a row for every argument.
  have allFound : (table.query args).length = size → ∀ key ∈ args, table.getItem key ≠ none := by
    intro sameSize key member
    have distinct : ((table.query args).map Prod.fst).Nodup :=
      (filter_sublist.map Prod.fst).nodup table.distinct
    have subset : (table.query args).map Prod.fst ⊆ args := fun key found =>
      ((isFound key).mp found).1
    have perm : ((table.query args).map Prod.fst).Perm args := by
      refine (subperm_of_subset distinct subset).perm_of_length_le ?_
      rw [length_map, sameSize]
      exact fits
    exact ((isFound key).mp (perm.mem_iff.mpr member)).2
  rw [sliceData, mem_append]
  cases value with
  | some value => simp [isRow, @eq_comm _ (some value)]
  | none =>
    -- Without a row for each, the missing keys are filled in with no value.
    by_cases sameSize : (table.query args).length = size
    · grind
    · simp [sameSize, isRow]
      grind

def Dies (faults : DatabaseFaults) (keys : List ReadableItem) (keyStart : ℕ) : Prop :=
  faults.statementThrows keyStart = true ∨
    ∃ item ∈ keySlice keys keyStart, ∀ value, item ≠ ReadableItem.string value

theorem getSlices_of_dies {keyStart : ℕ} {rest : List ℕ} (dies : Dies faults keys keyStart) :
    getSlices faults keys before (keyStart :: rest) = .error [] := by
  rw [getSlices]
  rcases buildKeySelectionArgs_spec (keySlice keys keyStart) with
    ⟨args, isArgs, -, -, nulls, noOther⟩ | ⟨throws, -⟩
  · have bad : none ∈ args ∨ faults.statementThrows keyStart = true := by
      rcases dies with throws | ⟨item, member, notString⟩
      · exact Or.inr throws
      · cases item with
        | null => exact Or.inl (nulls.mpr member)
        | string value => exact absurd rfl (notString value)
        | other => exact absurd member noOther
    simp [isArgs, bad]
  · simp [throws]

theorem getSlices_of_not_dies {keyStart : ℕ}
    (lives : ¬ Dies faults keys keyStart) (table : CatalystTable) :
    ∃ args, args.length ≤ keys.length ∧ (∀ key, key ∈ args ↔ .string key ∈ keySlice keys keyStart) ∧
      ∀ rest, getSlices faults keys table (keyStart :: rest) =
        if faults.cursorThrows keyStart then .error [.failure .exception]
        else (getSlices faults keys table rest).map
          (sliceData keys.length (table.query args) args ++ ·) := by
  rcases buildKeySelectionArgs_spec (keySlice keys keyStart) with
    ⟨args, isArgs, sameLength, strings, nulls, -⟩ | ⟨-, member⟩
  · refine ⟨args.reduceOption, ?_, fun key => ?_, fun rest => ?_⟩
    · calc args.reduceOption.length ≤ args.length := reduceOption_length_le args
        _ = (keySlice keys keyStart).length := sameLength
        _ ≤ keys.length := by
          rw [keySlice_eq, length_take, length_drop]
          exact Nat.le_trans (Nat.min_le_right _ _) (Nat.sub_le _ _)
    · rw [reduceOption_mem_iff, strings]
    · have good : ¬ (none ∈ args ∨ faults.statementThrows keyStart = true) := by
        rintro (isNull | throws)
        · exact lives (Or.inr ⟨.null, nulls.mp isNull, fun value => by simp⟩)
        · exact lives (Or.inl throws)
      rw [getSlices]
      simp only [isArgs, good, if_false]
      split
      next => rfl
      next =>
        cases getSlices faults keys table rest with
        | error => rfl
        | ok => rfl
  · exact absurd (Or.inr ⟨.other, member, fun value => by simp⟩) lives

theorem getSlices_unanswered_iff : getSlices faults keys table starts = .error [] ↔
      ∃ earlier keyStart later, starts = earlier ++ keyStart :: later ∧
        (∀ start ∈ earlier, faults.cursorThrows start = false) ∧ Dies faults keys keyStart := by
  -- Induction over the slices; the loop ends at the first that dies, if it gets there.
  induction starts with
  | nil => simp [getSlices]
  | cons start rest ih =>
    by_cases dies : Dies faults keys start
    · refine iff_of_true (getSlices_of_dies dies) ⟨[], start, rest, rfl, ?_, dies⟩
      exact nofun
    · obtain ⟨_, -, -, slices⟩ := getSlices_of_not_dies dies table
      rw [slices]
      constructor
      · intro unanswered
        split at unanswered
        next => cases unanswered
        next moves =>
          cases later : getSlices faults keys table rest with
          | ok =>
            rw [later] at unanswered
            cases unanswered
          | error =>
            rw [later] at unanswered
            cases unanswered
            obtain ⟨earlier, keyStart, others, rfl, answers, diesLater⟩ := ih.mp later
            refine ⟨start :: earlier, keyStart, others, rfl, ?_, diesLater⟩
            rw [forall_mem_cons]
            exact ⟨by simpa using moves, answers⟩
      · rintro ⟨earlier, keyStart, later, isStarts, answers, diesLater⟩
        cases earlier with
        | nil =>
          obtain ⟨rfl, rfl⟩ := List.cons.inj isStarts
          exact absurd diesLater dies
        | cons _ earlier =>
          obtain ⟨rfl, rfl⟩ := List.cons.inj isStarts
          rw [forall_mem_cons] at answers
          rw [answers.1, if_neg Bool.false_ne_true,
            ih.mpr ⟨earlier, keyStart, later, rfl, answers.2, diesLater⟩]
          rfl

theorem getSlices_callbacks {callbacks : List StorageAnswer}
    (ends : getSlices faults keys table starts = .error callbacks) :
    callbacks = [] ∨ callbacks = [.failure .exception] := by
  induction starts with
  | nil => cases ends
  | cons start rest ih =>
    by_cases dies : Dies faults keys start
    · rw [getSlices_of_dies dies] at ends
      cases ends
      exact Or.inl rfl
    · obtain ⟨_, -, -, slices⟩ := getSlices_of_not_dies dies table
      rw [slices] at ends
      split at ends
      next =>
        cases ends
        exact Or.inr rfl
      next =>
        cases later : getSlices faults keys table rest with
        | ok =>
          rw [later] at ends
          cases ends
        | error =>
          rw [later] at ends
          cases ends
          exact ih later

theorem mem_getSlices {data : List (JavaString × Option JavaString)}
    (runs : getSlices faults keys table starts = .ok data) (pair : JavaString × Option JavaString) :
    pair ∈ data ↔ (∃ keyStart ∈ starts, .string pair.1 ∈ keySlice keys keyStart) ∧
      pair.2 = table.getItem pair.1 := by
  induction starts generalizing data with
  | nil =>
    cases runs
    simp
  | cons start rest ih =>
    by_cases dies : Dies faults keys start
    · rw [getSlices_of_dies dies] at runs
      cases runs
    · obtain ⟨_, fits, strings, slices⟩ := getSlices_of_not_dies dies table
      rw [slices] at runs
      split at runs
      next => cases runs
      next =>
        cases later : getSlices faults keys table rest with
        | error =>
          rw [later] at runs
          cases runs
        | ok =>
          rw [later] at runs
          cases runs
          rw [mem_append, mem_sliceData_iff fits, strings, ih later, ← or_and_right]
          simp

/-! ### Answers -/

theorem settles_multiGet : Settles parse stringify before (.multiGet (some keys))
        (multiGet faults (some keys) before) ↔
      faults.shuttingDown = true ∨ faults.ensureDatabaseThrows = false ∧
        getSlices faults keys before (keyStarts keys.length 0) ≠ .error [] := by
  rw [multiGet, settles_ensureDatabase]
  refine or_congr_right (and_congr_right fun _ => ?_)
  split
  next callbacks ends =>
    rcases getSlices_callbacks ends with rfl | rfl
    · simp [ends, not_settles_unanswered]
    · simp [ends, settles_of_failure]
  next data ends =>
    refine iff_of_true (Or.inr ⟨data, rfl, rfl, fun pair => ?_⟩) (by simp [ends])
    rw [mem_getSlices ends, mem_keySlice_iff]
    rfl

theorem settles_multiRemove :
    Settles parse stringify before (.multiRemove keys) (multiRemove faults keys before) ↔
      keys = [] ∨ faults.shuttingDown = true ∨ faults.ensureDatabaseThrows = false := by
  rw [multiRemove]
  simp only [length_eq_zero_iff]
  split
  next empty => exact iff_of_true (settles_of_failure .invalidKey) (Or.inl empty)
  next nonempty =>
    rw [settles_ensureDatabase, settles_inTransaction]
    · have notReturns : ∀ error, deleteSlices faults keys (keyStarts keys.length 0) before ≠
          .error (.returns error) := deleteSlices_not_returns keys _ before
      simp [nonempty, notReturns]
    · intro after runs key
      rw [getItem_deleteSlices runs]
      simp only [mem_keySlice_iff]

theorem settles_multiSet {keyValueArray : List ReadableEntry} :
    Settles parse stringify before (.multiSet keyValueArray)
        (multiSet faults keyValueArray before) ↔
      Answerable parse stringify faults before (.multiSet keyValueArray) := by
  rw [multiSet, Answerable]
  simp only [length_eq_zero_iff]
  split
  next empty => exact iff_of_true (settles_of_failure .invalidKey) (Or.inl empty)
  next nonempty =>
    rw [settles_ensureDatabase, or_iff_right nonempty]
    refine or_congr_right (and_congr_right fun _ => ?_)
    cases faults.compileStatementThrows with
    | true => simpa using not_settles_unanswered before
    | false =>
      rw [if_neg Bool.false_ne_true, settles_inTransaction]
      · rw [(setPair_spec faults).not_returns_iff]
        simp
      · intro after runs
        obtain ⟨pairs, isPairs, applied⟩ := (setPair_spec faults).forEntries_ok runs
        exact ⟨pairs, isPairs, foldlM_of_applyPairs applied⟩

theorem settles_multiMerge {keyValueArray : List ReadableEntry} :
    Settles parse stringify before (.multiMerge keyValueArray)
        (multiMerge parse stringify faults keyValueArray before) ↔
      Answerable parse stringify faults before (.multiMerge keyValueArray) := by
  rw [multiMerge, Answerable, settles_ensureDatabase]
  rw [settles_inTransaction]
  · rw [(mergeImpl_spec parse stringify faults).not_returns_iff]
    grind
  · intro after runs
    obtain ⟨pairs, isPairs, applied⟩ := (mergeImpl_spec parse stringify faults).forEntries_ok runs
    exact ⟨pairs, isPairs, foldlM_of_applyPairs applied⟩

end

/-- **A call settles exactly if no exception leaves its task and its loop refuses nothing.** -/
theorem settles_iff {Key Number : Type} [DecidableEq Key]
    (parse : JavaString → Option (JSONValue Key Number))
    (stringify : JSONValue Key Number → JavaString) (faults : DatabaseFaults)
    (before : CatalystTable) (call : AndroidCall) :
    Settles parse stringify before call (perform parse stringify faults before call) ↔
      Answerable parse stringify faults before call := by
  cases call with
  | multiSet keyValueArray => exact settles_multiSet
  | multiMerge keyValueArray => exact settles_multiMerge
  | multiRemove keys => exact settles_multiRemove
  | multiGet keys =>
    cases keys with
    | none => exact iff_of_true (settles_of_failure .invalidKey) (Or.inl rfl)
    | some keys =>
      rw [perform, settles_multiGet, Answerable, Ne, getSlices_unanswered_iff]
      simp only [Dies, getD_some]
      grind

theorem missingValue_not_settles :
    ¬ Settles (fun _ => none) (fun _ : JSONValue ℕ ℕ => []) ⟨[], nodup_nil⟩
      (.multiSet [.array [.string [97], .null]])
      (perform (fun _ => none) (fun _ : JSONValue ℕ ℕ => []) {} ⟨[], nodup_nil⟩
        (.multiSet [.array [.string [97], .null]])) :=
  not_settles_unanswered _

end AsyncStorageModule

end ReactNative

