import Mathlib.Data.Nat.Basic

/-! Where no code word starts another one, a part of a coded text that starts it is cut in one way
only: into the letters that are complete and less than the code word of the next one. -/
namespace PrefixCodes

open List

variable {α β : Type} (code : α → List β)

structure PrefixFree : Prop where
  nonempty : ∀ letter, code letter ≠ []
  unique : ∀ {letter other}, code letter <+: code other → letter = other

/-- The word starts the coded text, but it is not as long as the code of the first letter. -/
structure Begins (word : List β) (text : List α) : Prop where
  starts : word <+: text.flatMap code
  short : ∀ letter ∈ text.head?, word.length < (code letter).length

variable {code} {word : List β} {text read : List α}

theorem begins_nil (free : PrefixFree code) : Begins code [] text :=
  ⟨ nil_prefix, fun letter _ => length_pos_iff.2 (free.nonempty letter)⟩

theorem Begins.eq_nil (begins : Begins code (text.flatMap code) text) : text = [] := by
  cases text with
  | nil => rfl
  | cons letter =>
    have short := begins.short letter rfl
    simp only [flatMap_cons, length_append] at short
    omega

theorem exists_cut (free : PrefixFree code) (starts : word <+: text.flatMap code) :
    ∃ read unread rest, text = read ++ unread ∧ word = read.flatMap code ++ rest ∧
      Begins code rest unread := by
  induction text generalizing word with
  | nil => exact ⟨[], [], [], rfl, prefix_nil.1 starts, begins_nil free⟩
  | cons letter text ih =>
    rw [flatMap_cons] at starts
    by_cases short : word.length < (code letter).length
    · exact ⟨[], letter :: text, word, rfl, rfl, starts, by simpa using short⟩
    · obtain ⟨_, rfl⟩ := prefix_of_prefix_length_le (prefix_append _ _) starts (not_lt.1 short)
      obtain ⟨read, unread, rest, rfl, rfl, begins⟩ := ih ((prefix_append_right_inj _).1 starts)
      exact ⟨letter :: read, unread, rest, rfl, by simp, begins⟩

theorem prefix_of_flatMap (free : PrefixFree code) {other : List α}
    (starts : read.flatMap code <+: other.flatMap code) : read <+: other := by
  induction read generalizing other with
  | nil => exact nil_prefix
  | cons letter read ih =>
    cases other with
    | nil => simp [free.nonempty] at starts
    | cons first other =>
      simp only [flatMap_cons] at starts
      obtain rfl : letter = first := by
        rcases prefix_or_prefix_of_prefix ((prefix_append _ _).trans starts)
          (prefix_append (code first) _) with start | start
        · exact free.unique start
        · exact (free.unique start).symm
      exact (prefix_append_right_inj [letter]).2 (ih ((prefix_append_right_inj _).1 starts))

theorem Begins.cut_ne (free : PrefixFree code) (begins : Begins code word text) {part : List β}
    (starts : part <+: word) (nonempty : part ≠ []) (other : List α) :
    read.flatMap code ++ part ≠ other.flatMap code := by
  intro same
  obtain ⟨later, rfl⟩ := prefix_of_flatMap free (same ▸ prefix_append (read.flatMap code) part)
  rw [flatMap_append, append_cancel_left_eq] at same
  subst same
  obtain ⟨longer, rfl⟩ := prefix_of_flatMap free (starts.trans begins.starts)
  cases later with
  | nil => simp at nonempty
  | cons letter later =>
    have short := begins.short letter rfl
    have := starts.length_le
    simp only [flatMap_cons, length_append] at this
    omega

end PrefixCodes

