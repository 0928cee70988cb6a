import Mathlib.Algebra.Order.Ring.Int
import Mathlib.Data.List.Sort

/-! The search knows the range only through a probe, which compares what is at an index with what is
looked for and fails at an index that must not be read. -/
namespace BinarySearch

/-- Bounds are inclusive. The result is `none` if a read fails, and else the index that was found. -/
def search (probe : ℤ → Option Ordering) : (fuel : ℕ) → (lower upper : ℤ) → Option (Option ℤ)
  | 0, _, _ => none
  | fuel + 1, lower, upper =>
    if lower ≤ upper then
      let median := (lower + upper) / 2
      match probe median with
      | none => none
      | some .lt => search probe fuel (median + 1) upper
      | some .eq => some (some median)
      | some .gt => search probe fuel lower (median - 1)
    else some none

variable {probe : ℤ → Option Ordering}

structure Rises (probe : ℤ → Option Ordering) (order : ℤ → Ordering) (lower upper : ℤ) : Prop where
  reads : ∀ i, lower ≤ i → i ≤ upper → probe i = some (order i)
  below : ∀ i j, lower ≤ i → i < j → j ≤ upper → order j = .lt → order i = .lt
  above : ∀ i j, lower ≤ i → i < j → j ≤ upper → order i = .gt → order j = .gt

variable {order : ℤ → Ordering} {lower upper : ℤ}

theorem Rises.narrow {lower' upper' : ℤ}
    (rises : Rises probe order lower upper) (left : lower ≤ lower') (right : upper' ≤ upper) :
    Rises probe order lower' upper' where
  reads i inLower inUpper := rises.reads i (left.trans inLower) (inUpper.trans right)
  below i j inLower ahead inUpper :=
    rises.below i j (left.trans inLower) ahead (inUpper.trans right)
  above i j inLower ahead inUpper :=
    rises.above i j (left.trans inLower) ahead (inUpper.trans right)

/-- What the search returns is where the probe answers `eq`, or nothing if it never does. -/
def Finds (order : ℤ → Ordering) (lower upper : ℤ) : Option ℤ → Prop
  | none => ∀ i, lower ≤ i → i ≤ upper → order i ≠ .eq
  | some found => lower ≤ found ∧ found ≤ upper ∧ order found = .eq

theorem Finds.widen {lower' upper' : ℤ} {result : Option ℤ}
    (finds : Finds order lower' upper' result) (left : lower ≤ lower') (right : upper' ≤ upper)
    (outside : ∀ i, lower ≤ i → i ≤ upper → i < lower' ∨ upper' < i → order i ≠ .eq) :
    Finds order lower upper result := by
  cases result with
  | some => exact ⟨left.trans finds.1, finds.2.1.trans right, finds.2.2⟩
  | none =>
    intro i inLower inUpper
    by_cases inside : lower' ≤ i ∧ i ≤ upper'
    · exact finds i inside.1 inside.2
    · exact outside i inLower inUpper (by omega)

/-- **Binary search.** With fuel for the range, the search ends and finds what there is. -/
theorem search_finds {fuel : ℕ}
    (rises : Rises probe order lower upper) (enough : (upper - lower + 1).toNat < fuel) :
    ∃ result, search probe fuel lower upper = some result ∧ Finds order lower upper result := by
  induction fuel generalizing lower upper with
  | zero => exact absurd enough (Nat.not_lt_zero _)
  | succ fuel ih =>
    rw [search]
    split
    next inRange =>
      have low : lower ≤ (lower + upper) / 2 := by omega
      have high : (lower + upper) / 2 ≤ upper := by omega
      simp only [rises.reads _ low high]
      cases answer : order ((lower + upper) / 2) with
      | eq => exact ⟨_, rfl, low, high, answer⟩
      | lt =>
        -- nothing up to the median is what is looked for
        have left : lower ≤ (lower + upper) / 2 + 1 := by omega
        obtain ⟨result, searched, finds⟩ := ih (rises.narrow left le_rfl) (by omega)
        refine ⟨result, searched, finds.widen left le_rfl ?_⟩
        intro i inLower inUpper out
        rcases lt_or_eq_of_le (show i ≤ (lower + upper) / 2 by omega) with before | rfl
        · simp [rises.below i _ inLower before high answer]
        · simp [answer]
      | gt =>
        have right : (lower + upper) / 2 - 1 ≤ upper := by omega
        obtain ⟨result, searched, finds⟩ := ih (rises.narrow le_rfl right) (by omega)
        refine ⟨result, searched, finds.widen le_rfl right ?_⟩
        intro i inLower inUpper out
        rcases lt_or_eq_of_le (show (lower + upper) / 2 ≤ i by omega) with after | rfl
        · simp [rises.above _ i low after inUpper answer]
        · simp [answer]
    next empty =>
      refine ⟨none, rfl, ?_⟩
      intro i inLower inUpper
      omega

theorem lt_countP_iff {α : Type} {f : α → ℕ} {items : List α}
    (sorted : items.Pairwise fun a b => f a ≤ f b) (bound : ℕ) {i : ℕ} {item : α}
    (there : items[i]? = some item) : i < items.countP (fun a => f a ≤ bound) ↔ f item ≤ bound := by
  induction items generalizing i with
  | nil => simp at there
  | cons first rest ih =>
    obtain ⟨least, sortedRest⟩ := List.pairwise_cons.mp sorted
    by_cases below : f first ≤ bound
    · rw [List.countP_cons_of_pos (by simpa using below)]
      cases i with
      | zero =>
        cases there
        simpa using below
      | succ i =>
        rw [Nat.succ_lt_succ_iff]
        exact ih sortedRest there
    · have none_below : rest.countP (fun a => f a ≤ bound) = 0 := by
        rw [List.countP_eq_zero]
        intro other member
        have := least other member
        simp only [decide_eq_true_eq]
        omega
      have above : ¬f item ≤ bound := by
        rcases List.mem_cons.mp (List.mem_of_getElem? there) with rfl | member
        · exact below
        · have := least item member
          omega
      rw [List.countP_cons_of_neg (by simpa using below), none_below]
      simp [above]

end BinarySearch


