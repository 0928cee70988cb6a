import ReactNative.Foundation.KeyedTree
import Mathlib.Data.Finset.Card

/-! Nodes that know their children form a forest when every node unfolds into a finite tree, no node
is listed twice and none has two parents. -/
namespace LinkedForest

open KeyedTree Relation Function List

/-- Links that unfold into finite trees without shared nodes. -/
structure Forest (N : Type) where
  children : N → List N
  tree : N → KeyedTree.Tree N
  unfolds : ∀ n, tree n = ⟨n, (children n).map tree⟩
  nodup : ∀ n, (children n).Nodup
  unique : ∀ {p q c}, c ∈ children p → c ∈ children q → p = q

namespace Forest

variable {N : Type} (F G : Forest N)

def Descends : N → N → Prop := ReflTransGen fun p c => c ∈ F.children p

variable {F G} {p c : N}

theorem height_child (child : c ∈ F.children p) : (F.tree c).height < (F.tree p).height := by
  apply child_height_lt
  rw [F.unfolds p]
  exact mem_map_of_mem child

variable {a n : N}

theorem height_le (descends : F.Descends a n) : (F.tree n).height ≤ (F.tree a).height := by
  induction descends with
  | refl => exact Nat.le_refl _
  | tail _ child ih => exact (height_child child).le.trans ih

theorem not_descends_child (child : c ∈ F.children p) : ¬ F.Descends c p := by
  intro cycle
  have lower := height_child child
  have upper := height_le cycle
  omega

theorem ne_child (child : c ∈ F.children p) : c ≠ p := by
  rintro rfl
  exact not_descends_child child .refl

theorem induction {P : N → Prop} (step : ∀ n, (∀ c ∈ F.children n, P c) → P n) (n : N) : P n := by
  -- The trees below are lower.
  generalize bound : (F.tree n).height = height
  induction height using Nat.strong_induction_on generalizing n with
  | _ height ih =>
    apply step n
    intro c child
    exact ih _ (bound ▸ height_child child) c rfl

theorem Descends.child (descends : F.Descends a p) (child : c ∈ F.children p) :
    F.Descends a c := ReflTransGen.tail descends child

theorem descends_of_child (child : c ∈ F.children p) (descends : F.Descends c n) :
    F.Descends p n := ReflTransGen.head child descends

theorem Descends.parent (descends : F.Descends a n) (different : n ≠ a) (child : n ∈ F.children p) :
    F.Descends a p := by
  rcases ReflTransGen.cases_tail descends with same | ⟨q, above, isChild⟩
  · exact absurd same different
  · rw [F.unique child isChild]
    exact above

theorem descends_total {b : N} (first : F.Descends a n) (second : F.Descends b n) :
    F.Descends a b ∨ F.Descends b a := by
  have rightUnique : Relator.RightUnique fun c p => c ∈ F.children p :=
    fun _ _ _ isChild isOther => F.unique isChild isOther
  have upA : ReflTransGen (fun c p => c ∈ F.children p) n a := reflTransGen_swap.mp first
  have upB : ReflTransGen (fun c p => c ∈ F.children p) n b := reflTransGen_swap.mp second
  rcases ReflTransGen.total_of_right_unique rightUnique upA upB with below | below
  · right
    exact reflTransGen_swap.mp below
  · left
    exact reflTransGen_swap.mp below

theorem siblings_apart {b : N} (first : a ∈ F.children p) (second : b ∈ F.children p)
    (belowA : F.Descends a n) (belowB : F.Descends b n) : a = b := by
  by_contra different
  rcases descends_total belowA belowB with down | down
  · exact not_descends_child first (down.parent (Ne.symm different) second)
  · exact not_descends_child second (down.parent different first)

theorem tree_congr (same : ∀ d, F.Descends n d → G.children d = F.children d) :
    G.tree n = F.tree n := by
  induction n using F.induction with
  | step n ih =>
    rw [G.unfolds, F.unfolds, same n .refl]
    congr 1
    apply map_congr_left
    intro c child
    apply ih c child
    intro d below
    exact same d (descends_of_child child below)

theorem descends_eq (same : G.children = F.children) : G.Descends = F.Descends := by
  rw [Descends, Descends, same]

theorem descends_to {m : N} (differ : ∀ n, n ≠ m → G.children n = F.children n)
    (descends : F.Descends a m) : G.Descends a m := by
  induction descends using ReflTransGen.head_induction_on with
  | refl => exact .refl
  | @head a c child below ih =>
    by_cases same : a = m
    · subst same
      exact absurd below (not_descends_child child)
    · apply descends_of_child _ ih
      rw [differ a same]
      exact child

theorem descends_of_part (part : ∀ n, G.children n ⊆ F.children n) (descends : G.Descends a n) :
    F.Descends a n := by
  induction descends with
  | refl => exact .refl
  | tail _ child ih => exact ih.child (part _ child)

/-! ### The nodes below a node -/

def below (F : Forest N) (n : N) : List N := (F.tree n).nodes.map Tree.label

theorem below_eq (n : N) : F.below n = n :: (F.children n).flatMap F.below := by
  have children : forestNodes ((F.children n).map F.tree) =
      (F.children n).flatMap fun c => (F.tree c).nodes := by
    rw [forestNodes_eq, flatMap_map]
  rw [below, F.unfolds n, Tree.nodes, children, map_cons, map_flatMap]
  rfl

theorem mem_below : n ∈ F.below a ↔ F.Descends a n := by
  constructor
  · induction a using F.induction with
    | step a ih =>
      intro member
      rw [below_eq, mem_cons, mem_flatMap] at member
      rcases member with rfl | ⟨c, child, deeper⟩
      · exact .refl
      · exact descends_of_child child (ih c child deeper)
  · intro descends
    induction descends using ReflTransGen.head_induction_on with
    | refl =>
      rw [below_eq]
      exact mem_cons_self
    | head child _ ih =>
      rw [below_eq, mem_cons, mem_flatMap]
      exact .inr ⟨_, child, ih⟩

theorem nodup_below (n : N) : (F.below n).Nodup := by
  induction n using F.induction with
  | step n ih =>
    rw [below_eq, nodup_cons, nodup_flatMap]
    refine ⟨?_, ih, ?_⟩
    · intro member
      obtain ⟨c, child, deeper⟩ := mem_flatMap.mp member
      exact not_descends_child child (mem_below.mp deeper)
    · apply (F.nodup n).imp_of_mem
      intro a b first second different d belowA belowB
      exact different
        (siblings_apart first second (mem_below.mp belowA) (mem_below.mp belowB))

theorem height_le_below (n : N) : (F.tree n).height ≤ (F.below n).length := by
  induction n using F.induction with
  | step n ih =>
    rw [F.unfolds, height_eq, below_eq, length_cons]
    apply Nat.succ_le_succ
    rw [forestHeight_le_iff]
    intro tree member
    obtain ⟨c, child, rfl⟩ := mem_map.mp member
    apply (ih c child).trans
    exact (sublist_flatten_of_mem (mem_map_of_mem child)).length_le

theorem height_le_card [DecidableEq N] {nodes : Finset N} (all : ∀ d, F.Descends n d → d ∈ nodes) :
    (F.tree n).height ≤ nodes.card := by
  calc (F.tree n).height ≤ (F.below n).length := height_le_below n
    _ = (F.below n).toFinset.card := (toFinset_card_of_nodup (nodup_below n)).symm
    _ ≤ nodes.card := by
      apply Finset.card_le_card
      intro d member
      exact all d (mem_below.mp (mem_toFinset.mp member))

def discrete (N : Type) : Forest N where
  children _ := []
  tree n := ⟨n, []⟩
  unfolds _ := rfl
  nodup _ := nodup_nil
  unique member := by cases member

section Replace

/-- The nodes can be the children of a node. -/
structure Fits (F : Forest N) (m : N) (new : List N) : Prop where
  nodup : new.Nodup
  apart : ∀ c ∈ new, ¬ F.Descends c m
  unowned : ∀ c ∈ new, ∀ p, c ∈ F.children p → p = m

theorem fits_of_subset {m : N} {part : List N} (nodup : part.Nodup) (subset : part ⊆ F.children m) :
    F.Fits m part where
  nodup := nodup
  apart _ member := not_descends_child (subset member)
  unowned _ member _ child := F.unique child (subset member)

theorem fits_of_part {m : N} {new : List N} (part : ∀ n, G.children n ⊆ F.children n)
    (nodup : new.Nodup) (subset : new ⊆ F.children m) : G.Fits m new where
  nodup := nodup
  apart _ member descends := not_descends_child (subset member) (descends_of_part part descends)
  unowned _ member _ child := F.unique (part _ child) (subset member)

variable [DecidableEq N]

mutual
def graft (m : N) (forest : List (KeyedTree.Tree N)) : KeyedTree.Tree N → KeyedTree.Tree N
  | ⟨n, children⟩ => if n = m then ⟨m, forest⟩ else ⟨n, graftForest m forest children⟩

def graftForest (m : N) (forest : List (KeyedTree.Tree N)) : List (KeyedTree.Tree N) → List (KeyedTree.Tree N)
  | [] => []
  | tree :: rest => graft m forest tree :: graftForest m forest rest
end

theorem graftForest_eq (m : N) (forest trees : List (KeyedTree.Tree N)) :
    graftForest m forest trees = trees.map (graft m forest) := by
  induction trees with
  | nil => rfl
  | cons _ _ ih => rw [graftForest, ih, map_cons]

theorem graft_tree (m : N) (forest : List (KeyedTree.Tree N)) (n : N) : graft m forest (F.tree n) =
      if n = m then ⟨m, forest⟩
      else ⟨n, (F.children n).map fun c => graft m forest (F.tree c)⟩ := by
  rw [F.unfolds n, graft, graftForest_eq, List.map_map]
  rfl

theorem graft_of_not_descends {m : N} {forest : List (KeyedTree.Tree N)} {n : N}
    (apart : ¬ F.Descends n m) : graft m forest (F.tree n) = F.tree n := by
  induction n using F.induction with
  | step n ih =>
    have different : n ≠ m := by
      rintro rfl
      exact apart .refl
    rw [graft_tree, if_neg different, F.unfolds n]
    congr 1
    apply map_congr_left
    intro c child
    exact ih c child fun descends => apart (descends_of_child child descends)

def replace (F : Forest N) (m : N) (new : List N) (fits : F.Fits m new) : Forest N where
  children := update F.children m new
  tree n := graft m (new.map F.tree) (F.tree n)
  unfolds n := by
    rw [graft_tree]
    by_cases same : n = m
    · subst same
      rw [if_pos rfl, update_self]
      congr 1
      apply map_congr_left
      intro c member
      exact (graft_of_not_descends (fits.apart c member)).symm
    · rw [if_neg same, update_of_ne same]
  nodup n := by
    by_cases same : n = m
    · subst same
      rw [update_self]
      exact fits.nodup
    · rw [update_of_ne same]
      exact F.nodup n
  unique := by
    intro p q c first second
    by_cases sameP : p = m <;> by_cases sameQ : q = m
    · rw [sameP, sameQ]
    · rw [sameP, update_self] at first
      rw [update_of_ne sameQ] at second
      exact absurd (fits.unowned c first q second) sameQ
    · rw [sameQ, update_self] at second
      rw [update_of_ne sameP] at first
      exact absurd (fits.unowned c second p first) sameP
    · rw [update_of_ne sameP] at first
      rw [update_of_ne sameQ] at second
      exact F.unique first second

variable {m : N} {new : List N} {fits : F.Fits m new}

@[simp] theorem replace_children : (F.replace m new fits).children = update F.children m new := rfl

theorem replace_self : (F.replace m new fits).children m = new := by
  rw [replace_children, update_self]

theorem replace_of_ne {n : N} (different : n ≠ m) :
    (F.replace m new fits).children n = F.children n := by
  rw [replace_children, update_of_ne different]

end Replace

end Forest

end LinkedForest


