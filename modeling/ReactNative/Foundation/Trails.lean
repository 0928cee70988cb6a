import ReactNative.Foundation.KeyedTree

/-! The trail of a node is the node together with the nodes above it. The trails of a forest are
listed in preorder, one for each occurrence of a node. -/
namespace KeyedTree

open List

/-- A node and what is above it, outermost first. -/
structure Trail (α : Type) where
  above : List (Tree α)
  node : Tree α

variable {α β : Type}

namespace Trail

variable (tree : Tree α) (trail : Trail α)

def under : Trail α :=
  { trail with above := tree :: trail.above }

def nodes : List (Tree α) := trail.above ++ [trail.node]

@[simp] theorem under_above : (trail.under tree).above = tree :: trail.above := rfl

@[simp] theorem under_node : (trail.under tree).node = trail.node := rfl

@[simp] theorem under_nodes : (trail.under tree).nodes = tree :: trail.nodes := rfl

end Trail

mutual
def Tree.trails : Tree α → List (Trail α)
  | ⟨label, children⟩ =>
    ⟨[], ⟨label, children⟩⟩ :: (forestTrails children).map (Trail.under ⟨label, children⟩)

def forestTrails : List (Tree α) → List (Trail α)
  | [] => []
  | tree :: rest => tree.trails ++ forestTrails rest
end

variable (forest : List (Tree α))

theorem forestTrails_eq : forestTrails forest = forest.flatMap Tree.trails := by
  induction forest with
  | nil => rfl
  | cons _ _ ih => simp only [forestTrails, ih, flatMap_cons]

theorem trails_eq (tree : Tree α) :
    tree.trails = ⟨[], tree⟩ :: (forestTrails tree.children).map (Trail.under tree) := by
  cases tree
  rfl

theorem forestTrails_node : (forestTrails forest).map Trail.node = forestNodes forest := by
  have trees : ∀ tree : Tree α, tree.trails.map Trail.node = tree.nodes := by
    refine Tree.induction ?_
    rintro ⟨_, children⟩ ih
    have below : (forestTrails children).map Trail.node = forestNodes children := by
      rw [forestTrails_eq, forestNodes_eq, map_flatMap]
      exact flatMap_congr ih
    simp [Tree.trails, Tree.nodes, ← below, Function.comp_def]
  rw [forestTrails_eq, forestNodes_eq, map_flatMap]
  exact flatMap_congr fun tree _ => trees tree

variable {back : List (Tree α)} {node : Tree α}

theorem trails_front (tree : Tree α) :
    ∀ trail ∈ tree.trails, ∀ front, trail.nodes = front ++ node :: back →
      ⟨front, node⟩ ∈ tree.trails := by
  refine Tree.induction (P := fun tree => ∀ trail ∈ tree.trails, ∀ front,
    trail.nodes = front ++ node :: back → ⟨front, node⟩ ∈ tree.trails) ?_ tree
  intro tree ih trail member front split
  rw [trails_eq, mem_cons, mem_map] at member
  rw [trails_eq, mem_cons, mem_map]
  rcases member with rfl | ⟨below, belowMem, rfl⟩
  · obtain ⟨rfl, rfl, rfl⟩ : front = [] ∧ node = tree ∧ back = [] := by
      simpa [Trail.nodes, singleton_eq_append_iff] using split
    exact .inl rfl
  · rw [Trail.under_nodes] at split
    cases front with
    | nil =>
      obtain ⟨rfl, -⟩ := cons_eq_cons.mp split
      exact .inl rfl
    | cons _ front =>
      obtain ⟨rfl, rest⟩ := cons_eq_cons.mp split
      rw [forestTrails_eq, mem_flatMap] at belowMem
      obtain ⟨child, childMem, inside⟩ := belowMem
      refine .inr ⟨⟨front, node⟩, ?_, rfl⟩
      rw [forestTrails_eq, mem_flatMap]
      exact ⟨child, childMem, ih child childMem below inside front rest⟩

section

variable {forest : List (Tree α)} {trail : Trail α} (member : trail ∈ forestTrails forest)
include member

theorem forestTrails_front {front : List (Tree α)} (split : trail.nodes = front ++ node :: back) :
    ⟨front, node⟩ ∈ forestTrails forest := by
  rw [forestTrails_eq, mem_flatMap] at member ⊢
  obtain ⟨tree, treeMem, inside⟩ := member
  exact ⟨tree, treeMem, trails_front tree trail inside front split⟩

theorem mem_forestNodes_of_trail : ∀ node ∈ trail.nodes, node ∈ forestNodes forest := by
  intro node onWay
  obtain ⟨_, _, split⟩ := append_of_mem onWay
  rw [← forestTrails_node]
  exact mem_map_of_mem (forestTrails_front member split)

end

end KeyedTree
