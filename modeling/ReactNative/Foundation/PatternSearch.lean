import Mathlib.Data.List.Infix

/-! `indexOf` is the first index from a start on at which a pattern occurs. A text of which only a
part is known is a `take` of it, and one whose beginning has been dropped a `drop`: the lemmas move
indices between them. -/
namespace PatternSearch

open List

variable {α : Type}

def OccursAt (pattern text : List α) (i : ℕ) : Prop := pattern <+: text.drop i

instance [DecidableEq α] (pattern text : List α) (i : ℕ) : Decidable (OccursAt pattern text i) :=
  inferInstanceAs (Decidable (_ <+: _))

def indexOf [DecidableEq α] (pattern text : List α) (start : ℕ) : Option ℕ :=
  (range' start (text.length + 1 - start)).find? fun i => OccursAt pattern text i

variable {pattern text : List α} {i n start : ℕ}

theorem OccursAt.add_length_le (occurs : OccursAt pattern text i) (nonempty : pattern ≠ []) :
    i + pattern.length ≤ text.length := by
  have fits := occurs.length_le
  rw [length_drop] at fits
  have positive := length_pos_iff.mpr nonempty
  omega

theorem forall_occursAt {holds : ℕ → Prop} (nonempty : pattern ≠ [])
    (within : ∀ i < text.length, OccursAt pattern text i → holds i) (i : ℕ)
    (occurs : OccursAt pattern text i) : holds i := by
  have fits := occurs.add_length_le nonempty
  have positive := length_pos_iff.mpr nonempty
  exact within i (by omega) occurs

theorem occursAt_take_iff (nonempty : pattern ≠ []) :
    OccursAt pattern (text.take n) i ↔ OccursAt pattern text i ∧ i + pattern.length ≤ n := by
  have positive := length_pos_iff.mpr nonempty
  rw [OccursAt, drop_take, prefix_take_iff, OccursAt]
  refine and_congr_right fun _ => ?_
  omega

theorem occursAt_drop_iff : OccursAt pattern (text.drop n) i ↔ OccursAt pattern text (n + i) := by
  rw [OccursAt, drop_drop, OccursAt]

theorem occursAt_append (before after : List α) :
    OccursAt pattern (before ++ (pattern ++ after)) before.length := by
  rw [OccursAt, drop_left]
  exact prefix_append pattern after

theorem occursAt_append_iff {first second : List α} : OccursAt (first ++ second) text i ↔
      OccursAt first text i ∧ OccursAt second text (i + first.length) := by
  rw [OccursAt, OccursAt, OccursAt, ← drop_drop]
  constructor
  · rintro ⟨after, isText⟩
    rw [← isText, append_assoc, drop_left]
    exact ⟨prefix_append _ _, prefix_append _ _⟩
  · rintro ⟨⟨_, isText⟩, ⟨after, isMiddle⟩⟩
    rw [← isText, drop_left] at isMiddle
    rw [← isText, ← isMiddle, ← append_assoc]
    exact prefix_append _ _

theorem occursAt_singleton_iff {a : α} : OccursAt [a] text i ↔ text[i]? = some a := by
  rw [OccursAt, ← head?_drop]
  cases text.drop i with
  | nil => simp
  | cons => simp [eq_comm]

variable [DecidableEq α]

section

variable (nonempty : pattern ≠ [])
include nonempty

theorem indexOf_eq_some_iff : indexOf pattern text start = some i ↔
      start ≤ i ∧ OccursAt pattern text i ∧ ∀ j, start ≤ j → j < i → ¬ OccursAt pattern text j := by
  rw [indexOf, find?_range'_eq_some]
  simp only [decide_eq_true_eq, mem_range'_1, Bool.not_eq_eq_eq_not, Bool.not_true,
    decide_eq_false_iff_not]
  constructor
  · rintro ⟨occurs, ⟨after, -⟩, first⟩
    exact ⟨after, occurs, first⟩
  · rintro ⟨after, occurs, first⟩
    have fits := occurs.add_length_le nonempty
    exact ⟨occurs, ⟨after, by omega⟩, first⟩

theorem indexOf_eq_none_iff :
    indexOf pattern text start = none ↔ ∀ j, start ≤ j → ¬ OccursAt pattern text j := by
  rw [indexOf, find?_range'_eq_none]
  simp only [Bool.not_eq_eq_eq_not, Bool.not_true, decide_eq_false_iff_not]
  constructor
  · intro missing j after occurs
    have fits := occurs.add_length_le nonempty
    exact missing j after (by omega) occurs
  · exact fun missing j after _ => missing j after

theorem indexOf_take_eq_some (occurs : OccursAt pattern text i) (after : start ≤ i)
    (within : i + pattern.length ≤ n) (first : ∀ j, start ≤ j → OccursAt pattern text j → i ≤ j) :
    indexOf pattern (text.take n) start = some i := by
  rw [indexOf_eq_some_iff nonempty, occursAt_take_iff nonempty]
  refine ⟨after, ⟨occurs, within⟩, fun j afterStart before occursAt => ?_⟩
  rw [occursAt_take_iff nonempty] at occursAt
  exact Nat.not_le_of_lt before (first j afterStart occursAt.1)

theorem indexOf_take_eq_none
    (beyond : ∀ j, start ≤ j → OccursAt pattern text j → n < j + pattern.length) :
    indexOf pattern (text.take n) start = none := by
  rw [indexOf_eq_none_iff nonempty]
  intro j after occurs
  rw [occursAt_take_iff nonempty] at occurs
  exact Nat.not_le_of_lt (beyond j after occurs.1) occurs.2

theorem indexOf_drop :
    indexOf pattern (text.drop n) start = (indexOf pattern text (n + start)).map (· - n) := by
  cases found : indexOf pattern text (n + start) with
  | none =>
    rw [Option.map_none, indexOf_eq_none_iff nonempty]
    intro j after occurs
    rw [occursAt_drop_iff] at occurs
    exact (indexOf_eq_none_iff nonempty).mp found (n + j) (Nat.add_le_add_left after n) occurs
  | some i =>
    obtain ⟨after, occurs, first⟩ := (indexOf_eq_some_iff nonempty).mp found
    have shifted : n + (i - n) = i := by omega
    rw [Option.map_some, indexOf_eq_some_iff nonempty]
    refine ⟨by omega, ?_, fun j afterStart before occursAt => ?_⟩
    · rw [occursAt_drop_iff, shifted]
      exact occurs
    · rw [occursAt_drop_iff] at occursAt
      exact first (n + j) (Nat.add_le_add_left afterStart n) (by omega) occursAt

end

end PatternSearch

