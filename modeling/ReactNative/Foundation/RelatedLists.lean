import Mathlib.Data.List.Forall2

/-! What `List.Forall₂` says of the members of both lists. -/
namespace RelatedLists

variable {A B : Type} {R S : A → B → Prop} {P : A → Prop} {xs : List A} {ys : List B}

theorem exists_right_of_mem {x : A} (related : List.Forall₂ R xs ys) (member : x ∈ xs) :
    ∃ y ∈ ys, R x y := by
  induction related with
  | nil => cases member
  | cons here _ ih =>
    rcases List.mem_cons.mp member with rfl | later
    · exact ⟨_, List.mem_cons_self, here⟩
    · obtain ⟨y, inRest, holds⟩ := ih later
      exact ⟨y, List.mem_cons_of_mem _ inRest, holds⟩

theorem exists_left_of_mem {y : B} (related : List.Forall₂ R xs ys) (member : y ∈ ys) :
    ∃ x ∈ xs, R x y :=
  exists_right_of_mem related.flip member

theorem forall₂_iff_forall (related : List.Forall₂ R xs ys)
    (pointwise : ∀ x y, R x y → (S x y ↔ P x)) : List.Forall₂ S xs ys ↔ ∀ x ∈ xs, P x := by
  induction related with
  | nil => simp
  | cons here _ ih => rw [List.forall₂_cons, ih, pointwise _ _ here, List.forall_mem_cons]

end RelatedLists

