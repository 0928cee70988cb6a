import Mathlib.Data.List.InsertIdx
import Mathlib.Data.List.Nodup

/-! A list has entries that do not count: a reader sees the list without them and gives indices into
that. -/
namespace HiddenEntries

open List

variable {α : Type} {hidden : α → Bool}

def visible (hidden : α → Bool) (entries : List α) : List α :=
  entries.filter fun entry => !hidden entry

/-- The first position with as many visible entries before it as the index says. -/
def position (hidden : α → Bool) : ℕ → List α → ℕ
  | 0, _ => 0
  | _, [] => 0
  | index + 1, entry :: rest =>
    position hidden (if hidden entry then index + 1 else index) rest + 1

variable {entries : List α}

theorem mem_visible {entry : α} :
    entry ∈ visible hidden entries ↔ entry ∈ entries ∧ hidden entry = false := by
  simp [visible]

theorem visible_of_none (none : ∀ entry ∈ entries, hidden entry = false) :
    visible hidden entries = entries := by
  rw [visible, filter_eq_self]
  intro entry member
  rw [none entry member]
  rfl

theorem position_le (index : ℕ) (entries : List α) :
    position hidden index entries ≤ entries.length := by
  induction entries generalizing index with
  | nil => cases index <;> exact Nat.le_refl 0
  | cons _ _ ih =>
    cases index with
    | zero => exact Nat.zero_le _
    | succ index => exact Nat.succ_le_succ (ih _)

theorem position_of_none {index : ℕ}
    (none : ∀ entry ∈ entries, hidden entry = false) (inRange : index ≤ entries.length) :
    position hidden index entries = index := by
  induction entries generalizing index with
  | nil =>
    obtain rfl : index = 0 := Nat.le_zero.mp inRange
    rfl
  | cons entry _ ih =>
    cases index with
    | zero => rfl
    | succ index =>
      rw [position, none entry mem_cons_self, if_neg Bool.false_ne_true,
        ih (fun other member => none other (mem_cons_of_mem entry member))
          (Nat.le_of_succ_le_succ inRange)]

/-- What stands before a position is hidden, or among the first visible entries. -/
theorem mem_take_position {index : ℕ} {entry : α}
    (member : entry ∈ entries.take (position hidden index entries)) :
    hidden entry = true ∨ entry ∈ (visible hidden entries).take index := by
  induction entries generalizing index with
  | nil => simp at member
  | cons first rest ih =>
    cases index with
    | zero => simp [position] at member
    | succ index =>
      rw [position, take_succ_cons, mem_cons] at member
      cases isHidden : hidden first with
      | true =>
        have skip : visible hidden (first :: rest) = visible hidden rest := by
          simp [visible, isHidden]
        rw [isHidden, if_pos rfl] at member
        rw [skip]
        rcases member with rfl | later
        · exact .inl isHidden
        · exact ih later
      | false =>
        have keep : visible hidden (first :: rest) = first :: visible hidden rest := by
          simp [visible, isHidden]
        rw [isHidden, if_neg Bool.false_ne_true] at member
        rw [keep, take_succ_cons, mem_cons]
        rcases member with rfl | later
        · exact .inr (.inl rfl)
        · exact (ih later).imp_right .inr

/-- A list without some of its entries has the same position, if they stand behind it. -/
theorem position_filter {keep : α → Bool} {index : ℕ}
    (inRange : index ≤ (visible hidden entries).length)
    (before : ∀ entry ∈ entries.take (position hidden index entries), keep entry = true) :
    position hidden index (entries.filter keep) = position hidden index entries := by
  induction entries generalizing index with
  | nil => rfl
  | cons first rest ih =>
    cases index with
    | zero =>
      cases (first :: rest).filter keep <;> rfl
    | succ index =>
      rw [position, take_succ_cons] at before
      rw [filter_cons_of_pos (before first mem_cons_self), position, position]
      congr 1
      apply ih
      · cases isHidden : hidden first with
        | true => simpa [visible, isHidden] using inRange
        | false => simpa [visible, isHidden] using inRange
      · exact fun entry member => before entry (mem_cons_of_mem first member)

theorem visible_insertIdx_position {entry : α} (shown : hidden entry = false) (index : ℕ)
    (entries : List α) (inRange : index ≤ (visible hidden entries).length) :
    visible hidden (entries.insertIdx (position hidden index entries) entry) =
      (visible hidden entries).insertIdx index entry := by
  induction entries generalizing index with
  | nil =>
    obtain rfl : index = 0 := Nat.le_zero.mp inRange
    simp [position, visible, shown]
  | cons first rest ih =>
    cases index with
    | zero => simp [position, visible, shown]
    | succ index =>
      rw [position, insertIdx_succ_cons]
      cases isHidden : hidden first with
      | true =>
        have skip : visible hidden (first :: rest) = visible hidden rest := by
          simp [visible, isHidden]
        rw [skip] at inRange ⊢
        rw [if_pos rfl, ← ih (index + 1) inRange]
        simp [visible, isHidden]
      | false =>
        have keep : visible hidden (first :: rest) = first :: visible hidden rest := by
          simp [visible, isHidden]
        rw [keep, length_cons] at inRange
        rw [keep, insertIdx_succ_cons, if_neg Bool.false_ne_true,
          ← ih index (Nat.le_of_succ_le_succ inRange)]
        simp [visible, isHidden]

def entriesAt (indices : List ℕ) (entries : List α) : List α :=
  indices.filterMap fun index => entries[index]?

theorem mem_of_mem_entriesAt {indices : List ℕ} {entry : α}
    (member : entry ∈ entriesAt indices entries) : entry ∈ entries := by
  obtain ⟨_, -, found⟩ := mem_filterMap.mp member
  exact mem_of_getElem? found

def removeAt (kept : α → Bool) : List ℕ → List α → List α
  | [], entries => entries
  | index :: rest, entries =>
    match entries[index]? with
    | none => removeAt kept rest entries
    | some entry =>
      removeAt kept rest (if kept entry then entries else entries.eraseIdx index)

section RemoveAt

variable [DecidableEq α] {kept : α → Bool}

theorem eraseIdx_eq_filter {entries : List α} (nodup : entries.Nodup) {index : ℕ} {entry : α}
    (found : entries[index]? = some entry) :
    entries.eraseIdx index = entries.filter fun other => other ≠ entry := by
  obtain ⟨inRange, rfl⟩ := List.getElem?_eq_some_iff.mp found
  rw [← nodup.erase_getElem index inRange, nodup.erase_eq_filter]
  apply filter_congr
  intro other _
  by_cases same : other = entries[index] <;> simp [same]

theorem removeAt_eq_filter {entries : List α} (nodup : entries.Nodup) {indices : List ℕ}
    (descending : indices.Pairwise (· > ·)) :
    removeAt kept indices entries =
      entries.filter fun entry => kept entry || entry ∉ entriesAt indices entries := by
  induction indices generalizing entries with
  | nil => simp [removeAt, entriesAt]
  | cons index rest ih =>
    obtain ⟨below, descendingRest⟩ := pairwise_cons.mp descending
    rw [removeAt]
    cases found : entries[index]? with
    | none =>
      rw [ih nodup descendingRest]
      simp [entriesAt, found]
    | some entry =>
      have at_cons : entriesAt (index :: rest) entries = entry :: entriesAt rest entries := by
        simp [entriesAt, found]
      rw [at_cons]
      cases keep : kept entry with
      | true =>
        dsimp only
        rw [if_pos keep, ih nodup descendingRest]
        apply filter_congr
        intro other _
        by_cases same : other = entry
        · subst same
          simp [keep]
        · simp [same]
      | false =>
        dsimp only
        rw [if_neg (by rw [keep]; exact Bool.false_ne_true), ih (nodup.eraseIdx index) descendingRest]
        -- The entries before the index are where they were.
        have sameAt : entriesAt rest (entries.eraseIdx index) = entriesAt rest entries := by
          apply filterMap_congr
          intro earlier member
          exact getElem?_eraseIdx_of_lt (below earlier member)
        rw [sameAt, eraseIdx_eq_filter nodup found, filter_filter]
        apply filter_congr
        intro other _
        by_cases same : other = entry
        · subst same
          simp [keep]
        · simp [same]

end RemoveAt

end HiddenEntries

