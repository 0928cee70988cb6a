import Mathlib.Data.List.Count

/-! `Sole` says of a list that at most one of its entries is of a kind, and that this entry is as it
should be. It is kept by whatever adds entries of other kinds. -/

structure Sole {α : Type} (kind : α → Prop) [DecidablePred kind] (good : α → Prop) (items : List α) :
    Prop where
  one : items.countP kind ≤ 1
  good : ∀ item ∈ items, kind item → good item

namespace Sole

variable {α : Type} {kind good : α → Prop} [DecidablePred kind] {items : List α}

section

variable (sole : Sole kind good items)
include sole

theorem mono {other : α → Prop} (implies : ∀ item, good item → other item) :
    Sole kind other items :=
  ⟨sole.one, fun item member is => implies item (sole.good item member is)⟩

theorem sublist {fewer : List α} (sub : fewer.Sublist items) : Sole kind good fewer :=
  ⟨Nat.le_trans sub.countP_le sole.one, fun item member => sole.good item (sub.subset member)⟩

theorem perm {other : List α} (same : items.Perm other) : Sole kind good other :=
  ⟨same.countP_eq _ ▸ sole.one, fun item member => sole.good item (same.mem_iff.mpr member)⟩

theorem cons_other {item : α} (isNot : ¬ kind item) : Sole kind good (item :: items) := by
  constructor
  · rw [List.countP_cons_of_neg (by simpa using isNot)]
    exact sole.one
  · intro other member is
    rcases List.mem_cons.mp member with rfl | present
    · exact absurd is isNot
    · exact sole.good other present is

end

theorem cons_same {item : α} (none : ∀ other ∈ items, ¬ kind other) (isGood : good item) :
    Sole kind good (item :: items) := by
  constructor
  · rw [List.countP_cons, List.countP_eq_zero.mpr (by simpa using none)]
    split <;> simp
  · intro other member is
    rcases List.mem_cons.mp member with rfl | present
    · exact isGood
    · exact absurd is (none other present)

theorem not_mem_rest {item : α} (sole : Sole kind good (item :: items)) (is : kind item) :
    ∀ other ∈ items, ¬ kind other := by
  have one := sole.one
  rw [List.countP_cons_of_pos (by simpa using is)] at one
  have none : items.countP kind = 0 := by omega
  simpa using List.countP_eq_zero.mp none

theorem map {change : α → α} {other : α → Prop} (sole : Sole kind good items)
    (sameKind : ∀ item, kind (change item) ↔ kind item)
    (keeps : ∀ item ∈ items, kind item → good item → other (change item)) :
    Sole kind other (items.map change) := by
  constructor
  · have same : ((fun item => decide (kind item)) ∘ change) = fun item => decide (kind item) := by
      funext item
      simp [sameKind]
    rw [List.countP_map, same]
    exact sole.one
  · intro changed member is
    obtain ⟨item, present, rfl⟩ := List.mem_map.mp member
    have was := (sameKind item).mp is
    exact keeps item present was (sole.good item present was)

end Sole

