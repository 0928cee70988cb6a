import ReactNative.Core.ShadowNode

/-! A laid-out node passes a layout context down to its children. The children of a node get their
metrics from Yoga before the walk goes on to them. -/
namespace ReactNative

open KeyedTree List

structure LayoutContext where
  absolutePosition : Point := {}
  pointScaleFactor : ℚ := 1
  /-- The pointer to the list of affected nodes is not null. -/
  affectedNodes : Bool := false
  swapLeftAndRightInRTL : Bool := false

/-- A node with its flag of the last layout pass. The metrics of its Yoga node are missing if it has
no Yoga node. -/
structure LayoutingNode where
  address : ℕ
  layoutableKind : Bool := true
  hasNewLayout : Bool := true
  layoutMetrics : LayoutMetrics := {}
  yogaMetrics : Option LayoutMetrics := none

abbrev LayoutingTree := KeyedTree.Tree LayoutingNode

structure LayoutCall where
  address : ℕ
  context : LayoutContext

/-- The tree, the calls of `layout` and the affected nodes, both in their order. -/
structure LayoutResult (T : Type) where
  tree : T
  calls : List LayoutCall := []
  affected : List ℕ := []

namespace LayoutContexts

/-- What `layoutChildren` does to a child, and whether that is recorded. -/
def layoutChild (layoutContext : LayoutContext) (child : LayoutingNode) : LayoutingNode × List ℕ :=
  if child.hasNewLayout then
    child.yogaMetrics.elim (child, []) fun metrics =>
      let childLayoutMetrics := { metrics with pointScaleFactor := layoutContext.pointScaleFactor }
      ({ child with layoutMetrics := childLayoutMetrics },
        if childLayoutMetrics ≠ child.layoutMetrics ∧ layoutContext.affectedNodes then
          [child.address] else [])
  else (child, [])

mutual
/-- The walk below a node. The node itself may have changed on the way to it. -/
def layout (layoutContext : LayoutContext) (node : LayoutingNode) :
    LayoutingTree → LayoutResult (LayoutingTree)
  | ⟨_, children⟩ =>
    let below := visitChildren layoutContext children
    { tree := ⟨node, below.tree⟩
      calls := ⟨node.address, layoutContext⟩ :: below.calls
      affected := children.flatMap (fun child => (layoutChild layoutContext child.label).2) ++
        below.affected }

def visitChildren (layoutContext : LayoutContext) :
    List LayoutingTree → LayoutResult (List LayoutingTree)
  | [] => { tree := [] }
  | child :: rest =>
    let others := visitChildren layoutContext rest
    let placed := (layoutChild layoutContext child.label).1
    if !placed.layoutableKind || !placed.hasNewLayout then
      { others with tree := ⟨placed, child.children⟩ :: others.tree }
    else
      let visited := { placed with hasNewLayout := false }
      if visited.layoutMetrics.displayType = .none then
        { others with tree := ⟨visited, child.children⟩ :: others.tree }
      else
        -- the adjusted copy of the context is made and not passed on
        let first := layout layoutContext visited child
        { tree := first.tree :: others.tree
          calls := first.calls ++ others.calls
          affected := first.affected ++ others.affected }
end

/-! ### What the position is for -/

def frameOrigin (node : LayoutingNode) : Point :=
  (node.yogaMetrics.getD node.layoutMetrics).frame.origin

mutual
/-- The nodes with the sums of the origins on the way to them. -/
def positions (absolutePosition : Point) : LayoutingTree → List (ℕ × Point)
  | ⟨node, children⟩ => (node.address, absolutePosition) :: positionsBelow absolutePosition children

def positionsBelow (absolutePosition : Point) : List LayoutingTree → List (ℕ × Point)
  | [] => []
  | child :: rest => positions (absolutePosition + frameOrigin child.label) child ++
      positionsBelow absolutePosition rest
end

/-- Each node is laid out with the sum of the origins on the way to it, on top of the root's. -/
def PassesPositions (layoutContext : LayoutContext) (root : LayoutingTree) : Prop :=
  (layout layoutContext root.label root).calls.map
      (fun call => (call.address, call.context.absolutePosition)) =
    positions layoutContext.absolutePosition root

def IsVisited (node : LayoutingNode) : Prop :=
  node.layoutableKind = true ∧ node.hasNewLayout = true ∧
    (node.yogaMetrics.getD node.layoutMetrics).displayType ≠ .none

section Walk

variable {layoutContext : LayoutContext} {node : LayoutingNode}

theorem layoutChild_frame (visited : IsVisited node) :
    (layoutChild layoutContext node).1.address = node.address ∧
      (layoutChild layoutContext node).1.layoutableKind = true ∧
      (layoutChild layoutContext node).1.hasNewLayout = true ∧
      (layoutChild layoutContext node).1.layoutMetrics.displayType ≠ .none := by
  obtain ⟨kind, fresh, shown⟩ := visited
  rw [layoutChild, if_pos fresh]
  cases metrics : node.yogaMetrics with
  | none =>
    rw [metrics] at shown
    exact ⟨rfl, kind, fresh, shown⟩
  | some yogaMetrics =>
    rw [metrics] at shown
    exact ⟨rfl, kind, fresh, shown⟩

theorem layout_calls (tree : LayoutingTree) (node : LayoutingNode)
    (visited : ∀ below ∈ forestNodes tree.children, IsVisited below.label) :
    (layout layoutContext node tree).calls = ⟨node.address, layoutContext⟩ ::
      (forestNodes tree.children).map fun below => ⟨below.label.address, layoutContext⟩ := by
  revert tree node visited
  refine @Tree.induction_children _ _
    (fun _ children => (∀ below ∈ forestNodes children, IsVisited below.label) →
      (visitChildren layoutContext children).calls =
        (forestNodes children).map fun below => ⟨below.label.address, layoutContext⟩)
    ?node ?nil ?cons
  case node =>
    intro label children below node visited
    rw [layout, below visited]
  case nil => simp [visitChildren]
  case cons =>
    intro _ child rest first others visited
    rw [forestNodes, forall_mem_append] at visited
    obtain ⟨_, _⟩ := child
    rw [Tree.nodes, forall_mem_cons] at visited
    obtain ⟨⟨childVisited, belowVisited⟩, restVisited⟩ := visited
    obtain ⟨address, kind, fresh, shown⟩ := @layoutChild_frame layoutContext _ childVisited
    -- the walk goes on to the child with the flag cleared, which does not matter any more
    have childCalls := fun node => first node belowVisited
    rw [visitChildren]
    simp only [kind, fresh, Bool.not_true, Bool.or_self, Bool.false_eq_true, if_false, shown,
      childCalls, others restVisited, address]
    rw [forestNodes, Tree.nodes, cons_append, cons_append, map_cons, map_append]

theorem add_eq_self_iff (position offset : Point) : position + offset = position ↔ offset = {} := by
  obtain ⟨x, y⟩ := position
  obtain ⟨dx, dy⟩ := offset
  have sum : (⟨x, y⟩ : Point) + ⟨dx, dy⟩ = ⟨x + dx, y + dy⟩ := rfl
  rw [sum, Point.mk.injEq, Point.mk.injEq, add_eq_left, add_eq_left]

theorem length_positions (position : Point) (tree : LayoutingTree) :
    (positions position tree).length = tree.nodes.length := by
  revert position
  revert tree
  refine @Tree.induction_children _ _
    (fun _ children => ∀ position,
      (positionsBelow position children).length = (forestNodes children).length)
    ?node ?nil ?cons
  case node =>
    intro label children below position
    rw [positions, length_cons, below, Tree.nodes, length_cons]
  case nil => exact fun _ _ => rfl
  case cons =>
    intro _ child rest first others position
    rw [positionsBelow, length_append, first, others, forestNodes, length_append]

theorem const_eq_positions_add_iff {position : Point} {child : LayoutingTree}
    (ih : child.nodes.map (fun below => (below.label.address, position)) = positions position child ↔
      ∀ below ∈ forestNodes child.children, frameOrigin below.label = {}) :
    child.nodes.map (fun below => (below.label.address, position)) =
        positions (position + frameOrigin child.label) child ↔
      ∀ below ∈ child.nodes, frameOrigin below.label = {} := by
  by_cases origin : frameOrigin child.label = {}
  · rw [(add_eq_self_iff position _).mpr origin, ih]
    obtain ⟨childLabel, grandchildren⟩ := child
    rw [Tree.nodes, forall_mem_cons, and_iff_right origin]
  · refine iff_of_false ?_ fun all => origin (all child (self_mem_nodes child))
    intro same
    obtain ⟨childLabel, grandchildren⟩ := child
    rw [Tree.nodes, positions, map_cons, List.cons.injEq, Prod.mk.injEq] at same
    exact origin ((add_eq_self_iff position _).mp same.1.2.symm)

theorem const_eq_positions_iff (position : Point) (tree : LayoutingTree) :
    tree.nodes.map (fun below => (below.label.address, position)) = positions position tree ↔
      ∀ below ∈ forestNodes tree.children, frameOrigin below.label = {} := by
  revert tree
  refine @Tree.induction_children _ _
    (fun _ children =>
      (forestNodes children).map (fun below => (below.label.address, position)) =
          positionsBelow position children ↔
        ∀ below ∈ forestNodes children, frameOrigin below.label = {})
    ?node ?nil ?cons
  case node =>
    intro label children below
    rw [Tree.nodes, positions, map_cons, List.cons.injEq, below, and_iff_right rfl]
  case nil => simp [positionsBelow]
  case cons =>
    intro _ child rest first others
    rw [forestNodes, map_append, positionsBelow, forall_mem_append,
      ← const_eq_positions_add_iff first, ← others]
    constructor
    · -- both lists of the child have one entry for each of its nodes
      intro same
      apply append_inj same
      rw [length_map, length_positions]
    · rintro ⟨same, sameRest⟩
      rw [same, sameRest]

/-- Every node is laid out with its position exactly if no node below the root is away from the origin
of its parent. -/
theorem passesPositions_iff (layoutContext : LayoutContext) (root : LayoutingTree)
    (visited : ∀ below ∈ forestNodes root.children, IsVisited below.label) :
    PassesPositions layoutContext root ↔
      ∀ below ∈ forestNodes root.children, frameOrigin below.label = {} := by
  rw [← const_eq_positions_iff layoutContext.absolutePosition root, PassesPositions,
    layout_calls root _ visited]
  obtain ⟨label, children⟩ := root
  rw [Tree.nodes, map_cons, map_cons, List.map_map]
  rfl

end Walk

def oneChild (origin : Point) : LayoutingTree :=
  ⟨{ address := 1 }, [⟨{ address := 2, yogaMetrics := some { frame := { origin } } }, []⟩]⟩

theorem passesPositions_iff_oneChild : PassesPositions {} (oneChild ⟨0, 0⟩) ↔
    ∀ below ∈ forestNodes (oneChild ⟨0, 0⟩).children, frameOrigin below.label = {} := by
  apply passesPositions_iff
  intro below member
  obtain rfl := mem_singleton.mp member
  exact ⟨rfl, rfl, by decide⟩

theorem oneChild_not_passed :
    (∀ below ∈ forestNodes (oneChild ⟨10, 20⟩).children, IsVisited below.label) ∧
      ¬PassesPositions {} (oneChild ⟨10, 20⟩) := by
  constructor
  · intro below member
    obtain rfl := mem_singleton.mp member
    exact ⟨rfl, rfl, by decide⟩
  · intro passes
    have position := congrArg (fun pairs => pairs[1]?.map Prod.snd) passes
    exact absurd position (by decide +kernel)

end LayoutContexts

end ReactNative

