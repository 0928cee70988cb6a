import Mathlib.Data.List.Perm.Basic
import Mathlib.Data.List.Sort
import ReactNative.Foundation.HiddenEntries

/-! Indices of entries to remove are meant in the list as it was, and indices of entries to insert
in the list as it will be. -/
namespace PlacedEntries

open List

variable {α : Type}

/-- The entries that are at no index of the kind, in their order. -/
def without (gone : ℕ → Bool) : List α → List α
  | [] => []
  | entry :: rest =>
    if gone 0 then without (fun index => gone (index + 1)) rest
    else entry :: without (fun index => gone (index + 1)) rest

def among (indices : List ℕ) (index : ℕ) : Bool := decide (index ∈ indices)

variable (gone : ℕ → Bool)

theorem without_sublist (entries : List α) : (without gone entries).Sublist entries := by
  induction entries generalizing gone with
  | nil => exact List.Sublist.refl _
  | cons entry _ ih =>
    rw [without]
    split
    · exact (ih _).cons entry
    · exact (ih _).cons_cons entry

variable {entries : List α}

theorem without_of_none {gone : ℕ → Bool} (none : ∀ index < entries.length, gone index = false) :
    without gone entries = entries := by
  induction entries generalizing gone with
  | nil => rfl
  | cons _ _ ih =>
    rw [without, none 0 (Nat.zero_lt_succ _), if_neg Bool.false_ne_true, ih]
    intro index inRange
    exact none (index + 1) (Nat.succ_lt_succ inRange)

theorem without_congr {gone other : ℕ → Bool} (same : ∀ index, gone index = other index)
    (entries : List α) : without gone entries = without other entries := by
  rw [funext same]

def orAt (last index : ℕ) : Bool := gone index || index = last

theorem orAt_zero_zero : orAt gone 0 0 = true := by
  simp [orAt]

theorem orAt_zero_succ :
    (fun index => orAt gone 0 (index + 1)) = fun index => gone (index + 1) := by
  simp [orAt]

theorem orAt_succ_zero (last : ℕ) : orAt gone (last + 1) 0 = gone 0 := by
  simp [orAt]

theorem orAt_succ_succ (last : ℕ) :
    (fun index => orAt gone (last + 1) (index + 1)) = orAt (fun index => gone (index + 1)) last := by
  funext index
  simp [orAt]

variable (first : ℕ)

theorem among_cons (rest : List ℕ) (index : ℕ) :
    among (first :: rest) index = (decide (index = first) || among rest index) := by
  simp [among]

theorem orAt_among (rest : List ℕ) (index : ℕ) :
    orAt (fun index => gone index || among rest index) first index =
      (gone index || among (first :: rest) index) := by
  rw [among_cons, orAt, Bool.or_assoc, Bool.or_comm (among rest index)]

theorem among_orAt (rest : List ℕ) (index : ℕ) :
    (orAt gone first index || among rest index) = (gone index || among (first :: rest) index) := by
  rw [among_cons, orAt, Bool.or_assoc]

section

variable {gone : ℕ → Bool} {last : ℕ} (before : ∀ index, last ≤ index → gone index = false)
include before

/-- **An erasure behind the indices that are still to go.** -/
theorem without_eraseIdx (entries : List α) :
    without gone (entries.eraseIdx last) = without (orAt gone last) entries := by
  induction entries generalizing gone last with
  | nil => rfl
  | cons _ _ ih =>
    cases last with
    | zero =>
      have none : ∀ index, gone index = false := fun index => before index (Nat.zero_le index)
      rw [eraseIdx_cons_zero, without_of_none fun index _ => none index, without,
        orAt_zero_zero, if_pos rfl, orAt_zero_succ, without_of_none fun index _ => none (index + 1)]
    | succ last =>
      have shifted : ∀ index, last ≤ index → gone (index + 1) = false :=
        fun index later => before (index + 1) (Nat.succ_le_succ later)
      rw [eraseIdx_cons_succ, without, without, ih shifted, orAt_succ_zero, orAt_succ_succ]

/-- **An insertion behind the indices that are filled already.** -/
theorem without_insertIdx (inRange : last ≤ entries.length) (entry : α) :
    without (orAt gone last) (entries.insertIdx last entry) = without gone entries := by
  induction entries generalizing gone last with
  | nil =>
    obtain rfl : last = 0 := Nat.le_zero.mp inRange
    simp [without, orAt]
  | cons _ _ ih =>
    cases last with
    | zero =>
      have none : ∀ index, gone index = false := fun index => before index (Nat.zero_le index)
      rw [insertIdx_zero, without, orAt_zero_zero, if_pos rfl, orAt_zero_succ,
        without_of_none fun index _ => none (index + 1), without_of_none fun index _ => none index]
    | succ last =>
      have shifted : ∀ index, last ≤ index → gone (index + 1) = false :=
        fun index later => before (index + 1) (Nat.succ_le_succ later)
      rw [insertIdx_succ_cons, without, without, orAt_succ_zero, orAt_succ_succ,
        ih shifted (Nat.le_of_succ_le_succ inRange)]

end

/-! ### Removals from the last index on -/

theorem without_foldl_eraseIdx {gone : ℕ → Bool} {indices : List ℕ} {entries : List α}
    (descending : indices.Pairwise (· > ·))
    (before : ∀ last ∈ indices, ∀ index, last ≤ index → gone index = false) :
    without gone (indices.foldl eraseIdx entries) =
      without (fun index => gone index || among indices index) entries := by
  -- Induction over the indices: the first is behind the others, and behind those gone before.
  induction indices generalizing gone entries with
  | nil => simp [among]
  | cons last rest ih =>
    obtain ⟨below, descendingRest⟩ := pairwise_cons.mp descending
    rw [foldl_cons, ih descendingRest fun other member =>
      before other (mem_cons_of_mem last member), without_eraseIdx]
    · exact without_congr (orAt_among gone last rest) entries
    · intro index later
      rw [before last mem_cons_self index later, Bool.false_or, among, decide_eq_false_iff_not]
      intro member
      exact absurd (below index member) (Nat.not_lt.mpr later)

/-- **Removing from the last index on** removes the entries that were at the indices. -/
theorem foldl_eraseIdx {indices : List ℕ} (descending : indices.Pairwise (· > ·))
    (entries : List α) :
    indices.foldl eraseIdx entries = without (among indices) entries := by
  have erased := @without_foldl_eraseIdx _ (fun _ => false) _ entries descending
  rw [without_of_none fun _ _ => rfl] at erased
  simpa using erased

theorem filter_eq_without {gone : ℕ → Bool} {p : α → Bool}
    (is : ∀ index entry, entries[index]? = some entry → p entry = !gone index) :
    entries.filter p = without gone entries := by
  induction entries generalizing gone with
  | nil => rfl
  | cons entry _ ih =>
    have isEntry := is 0 entry rfl
    rw [without, filter_cons, isEntry, ih fun index other found => is (index + 1) other found]
    cases gone 0 <;> rfl

theorem filter_entriesAt [DecidableEq α] (nodup : entries.Nodup) (indices : List ℕ) :
    (entries.filter fun entry => entry ∉ HiddenEntries.entriesAt indices entries) =
      without (among indices) entries := by
  apply filter_eq_without
  intro index entry found
  have isAmong : entry ∈ HiddenEntries.entriesAt indices entries ↔ index ∈ indices := by
    rw [HiddenEntries.entriesAt, mem_filterMap]
    constructor
    · rintro ⟨_, member, same⟩
      obtain ⟨_, isEntry⟩ := List.getElem?_eq_some_iff.mp found
      obtain ⟨_, isOther⟩ := List.getElem?_eq_some_iff.mp same
      rwa [nodup.getElem_inj_iff.mp (isEntry.trans isOther.symm)]
    · intro member
      exact ⟨index, member, found⟩
  rw [decide_not, decide_eq_decide.mpr isAmong]
  rfl

/-! ### Insertions from the first index on -/

def insertAt (placed : List (ℕ × α)) (entries : List α) : List α :=
  placed.foldl (fun entries place => entries.insertIdx place.1 place.2) entries

def InRange : ℕ → List (ℕ × α) → Prop
  | _, [] => True
  | count, place :: rest => place.1 ≤ count ∧ InRange (count + 1) rest

theorem add_length_lt_of_ascending {first count : ℕ} {indices : List ℕ}
    (ascending : (first :: indices).Pairwise (· < ·)) (below : ∀ index ∈ first :: indices, index < count) :
    first + indices.length < count := by
  induction indices generalizing first with
  | nil => exact below first mem_cons_self
  | cons next _ ih =>
    obtain ⟨less, ascendingRest⟩ := pairwise_cons.mp ascending
    have room := ih ascendingRest fun index member => below index (mem_cons_of_mem first member)
    have greater := less next mem_cons_self
    rw [length_cons]
    omega

variable {placed : List (ℕ × α)}

theorem inRange_of_ascending {count : ℕ} (ascending : (placed.map Prod.fst).Pairwise (· < ·))
    (below : ∀ place ∈ placed, place.1 < count + placed.length) : InRange count placed := by
  induction placed generalizing count with
  | nil => trivial
  | cons place rest ih =>
    have room := @add_length_lt_of_ascending _ (count + (rest.length + 1)) _ ascending (by
      rw [← map_cons]
      intro index member
      obtain ⟨other, present, rfl⟩ := mem_map.mp member
      exact below other present)
    rw [length_map] at room
    refine ⟨by omega, ih (pairwise_cons.mp ascending).2 ?_⟩
    intro other member
    have less := below other (mem_cons_of_mem place member)
    rw [length_cons] at less
    omega

theorem without_insertAt_or {gone : ℕ → Bool} {placed : List (ℕ × α)} {entries : List α}
    (ascending : (placed.map Prod.fst).Pairwise (· < ·)) (inRange : InRange entries.length placed)
    (before : ∀ place ∈ placed, ∀ index, place.1 ≤ index → gone index = false) :
    without (fun index => gone index || among (placed.map Prod.fst) index) (insertAt placed entries) =
      without gone entries := by
  induction placed generalizing gone entries with
  | nil => simp [among, insertAt]
  | cons place rest ih =>
    obtain ⟨here, later⟩ := inRange
    obtain ⟨above, ascendingRest⟩ := pairwise_cons.mp ascending
    have length := length_insertIdx_of_le_length here place.2
    have behind : ∀ other ∈ rest, ∀ index, other.1 ≤ index → orAt gone place.1 index = false := by
      intro other member index least
      have greater := above other.1 (mem_map_of_mem member)
      rw [orAt, before place mem_cons_self index (by omega), Bool.false_or, decide_eq_false_iff_not]
      omega
    have inserted := ih ascendingRest (by rw [length]; exact later) behind
    rw [without_insertIdx (before place mem_cons_self) here] at inserted
    rw [← inserted, insertAt, foldl_cons, ← insertAt]
    exact without_congr (fun index => (among_orAt gone place.1 (rest.map Prod.fst) index).symm) _

/-- **Inserting from the first index on** leaves the other entries as they are. -/
theorem without_insertAt (ascending : (placed.map Prod.fst).Pairwise (· < ·))
    (inRange : InRange entries.length placed) :
    without (among (placed.map Prod.fst)) (insertAt placed entries) = entries := by
  have inserted := @without_insertAt_or _ (fun _ => false) _ _ ascending inRange
  rw [without_of_none fun _ _ => rfl] at inserted
  simpa using inserted

theorem insertAt_perm (inRange : InRange entries.length placed) :
    (insertAt placed entries).Perm (placed.map Prod.snd ++ entries) := by
  induction placed generalizing entries with
  | nil => exact List.Perm.refl entries
  | cons place _ ih =>
    obtain ⟨here, later⟩ := inRange
    have length := length_insertIdx_of_le_length here place.2
    have inserted := perm_insertIdx place.2 entries here
    refine (ih (by rw [length]; exact later)).trans ?_
    exact (inserted.append_left _).trans perm_middle

theorem insertAt_of_lt {index : ℕ} (entries : List α) (before : ∀ place ∈ placed, index < place.1) :
    (insertAt placed entries)[index]? = entries[index]? := by
  induction placed generalizing entries with
  | nil => rfl
  | cons place _ ih =>
    rw [insertAt, foldl_cons, ← insertAt,
      ih _ fun other member => before other (mem_cons_of_mem place member)]
    exact getElem?_insertIdx_of_lt (before place mem_cons_self)

/-- **Inserting from the first index on** brings every entry to its index. -/
theorem getElem_insertAt (ascending : (placed.map Prod.fst).Pairwise (· < ·))
    (inRange : InRange entries.length placed) :
    ∀ place ∈ placed, (insertAt placed entries)[place.1]? = some place.2 := by
  induction placed generalizing entries with
  | nil => exact fun place member => absurd member not_mem_nil
  | cons place _ ih =>
    obtain ⟨here, later⟩ := inRange
    obtain ⟨above, ascendingRest⟩ := pairwise_cons.mp ascending
    have length := length_insertIdx_of_le_length here place.2
    rw [insertAt, foldl_cons, ← insertAt]
    intro other member
    rcases mem_cons.mp member with rfl | present
    · rw [insertAt_of_lt _ fun next isLater => above next.1 (mem_map_of_mem isLater)]
      simp [getElem?_insertIdx_self, here]
    · exact ih ascendingRest (by rw [length]; exact later) other present

section Sorting

variable (key : α → ℕ)

/-- The stable sort. -/
def sortBy (entries : List α) : List α :=
  entries.insertionSort fun first second => key first ≤ key second

theorem sortBy_perm (entries : List α) : (sortBy key entries).Perm entries :=
  perm_insertionSort _ entries

theorem sortBy_ascending {entries : List α} (nodup : (entries.map key).Nodup) :
    ((sortBy key entries).map key).Pairwise (· < ·) := by
  have sorted := pairwise_insertionSort (fun first second : α => key first ≤ key second) entries
  have distinct : ((sortBy key entries).map key).Nodup :=
    ((sortBy_perm key entries).map key).nodup_iff.mpr nodup
  exact ((pairwise_map.mpr sorted).and distinct).imp fun ⟨least, differs⟩ =>
    Nat.lt_of_le_of_ne least differs

end Sorting

/-! ### The result -/

theorem among_congr {first second : List ℕ} (same : ∀ index, index ∈ first ↔ index ∈ second)
    (index : ℕ) : among first index = among second index := by
  simp [among, same]

theorem without_perm_cons {gone : ℕ → Bool} {last : ℕ} {entry : α} (stays : gone last = false)
    (found : entries[last]? = some entry) :
    (without gone entries).Perm (entry :: without (orAt gone last) entries) := by
  induction entries generalizing gone last with
  | nil => cases found
  | cons first _ ih =>
    cases last with
    | zero =>
      obtain rfl : first = entry := by simpa using found
      rw [without, without, stays, if_neg Bool.false_ne_true, orAt_zero_zero, if_pos rfl,
        orAt_zero_succ]
    | succ last =>
      have inner := @ih (fun index => gone (index + 1)) last stays found
      rw [without, without, orAt_succ_zero, orAt_succ_succ]
      split
      · exact inner
      · exact (inner.cons first).trans (List.Perm.swap entry first _)

theorem without_perm {gone : ℕ → Bool} {indices : List ℕ} {entries : List α}
    (nodup : indices.Nodup) (stay : ∀ index ∈ indices, gone index = false)
    (inRange : ∀ index ∈ indices, index < entries.length) :
    (without gone entries).Perm
      (HiddenEntries.entriesAt indices entries ++
        without (fun index => gone index || among indices index) entries) := by
  induction indices generalizing gone with
  | nil => simp [HiddenEntries.entriesAt, among]
  | cons index rest ih =>
    obtain ⟨notLater, nodupRest⟩ := nodup_cons.mp nodup
    have here := inRange index mem_cons_self
    have found : entries[index]? = some entries[index] := getElem?_eq_getElem here
    -- One index after the other goes with the others that are gone.
    have first := without_perm_cons (stay index mem_cons_self) found
    have staysLater : ∀ other ∈ rest, orAt gone index other = false := by
      intro other member
      rw [orAt, stay other (mem_cons_of_mem index member), Bool.false_or, decide_eq_false_iff_not]
      rintro rfl
      exact notLater member
    have later := ih nodupRest staysLater fun other member =>
      inRange other (mem_cons_of_mem index member)
    have sameAt : HiddenEntries.entriesAt (index :: rest) entries =
        entries[index] :: HiddenEntries.entriesAt rest entries := by
      simp [HiddenEntries.entriesAt, found]
    rw [sameAt, cons_append]
    refine first.trans ((later.trans ?_).cons _)
    rw [without_congr (among_orAt gone index rest)]

end PlacedEntries

