import ReactNative.Core.HitTesting
import ReactNative.Core.RelativeLayoutMetrics
import Mathlib.Tactic.Abel

/-! The search carries a point down and takes the transformed origins of the frames off it. -/
namespace ReactNative

open KeyedTree List

variable {D : Type}

namespace LayoutableShadowNode

section Definitions

variable (parents : FamilyParents) (getTransform : ShadowNode D → Transform)
  (root : ShadowNode D) (point : Point)

variable (node : ShadowNode D)

/-- The frame around whose center the transform goes. -/
def transformedFrame : Rect := (getLayoutMetrics node).frame * getTransform node

/-- What the search takes off the point. -/
def transformedOrigin : Point := (getLayoutMetrics node).frame.origin * getTransform node

/-- The point relative to the origin of the root. -/
def pointInRoot : Point := point - (getLayoutMetrics root).frame.origin

def Reported : Prop :=
  ∃ metrics, getRelativeLayoutMetrics parents getTransform node root { includeTransform := true } =
      some metrics ∧
    metrics.frame.containsPoint (pointInRoot root point) = true

variable (trail : Trail (ShadowNodeFields D))

/-- The node and its ancestors below the root are all reported to have the point. -/
def Qualifies : Prop :=
  Reported parents getTransform root point trail.node ∧
    ∀ node ∈ trail.nodes.tail, Reported parents getTransform root point node

/-- The trail of a deepest node that qualifies. -/
structure IsDeepest : Prop where
  isTrail : trail ∈ Tree.trails root
  qualifies : Qualifies parents getTransform root point trail
  deepest : ∀ deeper ∈ Tree.trails root,
    Qualifies parents getTransform root point deeper → deeper.above.length ≤ trail.above.length

/-- The search finds the deepest node that qualifies. -/
def FindsDeepest : Prop :=
  ∀ node, findNodeAtPoint getTransform root point = some node ↔
    ∃ trail, IsDeepest parents getTransform root point trail ∧ trail.node = node

variable (above : List (ShadowNode D))

/-- The point as the search has it below the given nodes. -/
def carriedPoint : Point :=
  above.foldl (fun carried node => carried - transformedOrigin getTransform node) point

def searchHas (node : ShadowNode D) : Bool :=
  (transformedFrame getTransform node).containsPoint (carriedPoint getTransform point above)

/-- How far the measured frames of the given nodes are from where the search goes. -/
def drift : Point :=
  (above.map fun node =>
    (transformedFrame getTransform node).origin - transformedOrigin getTransform node).sum

/-- The frame moved by the drift, with its size transformed by all nodes above. -/
def driftedHas (node : ShadowNode D) : Bool :=
  let frame := transformedFrame getTransform node
  let scaledSize : Size :=
    above.foldr (fun parent (size : Size) => size * getTransform parent) frame.size
  (⟨frame.origin, scaledSize⟩ : Rect).containsPoint
    (carriedPoint getTransform point above - drift getTransform above)

/-- The drift and the scale of the sizes do not tell on the way of the search. A root that has the
point only through a negative size must not be found, and where the root does not have the point, the
node below it must not have it either. -/
def DriftDoesNotTell : Prop :=
  let inRoot := pointInRoot root point
  if searchContains root point then
    (∀ child ∈ root.getChildren,
      AgreesAlong (searchHas getTransform inRoot) (driftedHas getTransform inRoot) [] child) ∧
    (frameContains root point ∨ ∃ child ∈ root.getChildren, searchHas getTransform inRoot [] child)
  else ∀ child ∈ root.getChildren, searchHas getTransform inRoot [] child = false

end Definitions

variable {parents : FamilyParents} {getTransform : ShadowNode D → Transform}
  {root node child : ShadowNode D} {point : Point} {above : List (ShadowNode D)}

/-! ### Measuring -/

theorem carriedPoint_sub_drift : carriedPoint getTransform point above - drift getTransform above =
    point - (above.map fun node => (transformedFrame getTransform node).origin).sum := by
  induction above generalizing point with
  | nil => rfl
  | cons first rest ih =>
    have below := @ih (point - transformedOrigin getTransform first)
    rw [sub_eq_iff_eq_add] at below
    have unfolded : carriedPoint getTransform point (first :: rest) =
      carriedPoint getTransform (point - transformedOrigin getTransform first) rest := rfl
    rw [unfolded, below]
    simp only [drift, map_cons, sum_cons]
    abel

theorem relativeFrame_containsPoint (trail : Trail (ShadowNodeFields D)) :
    (relativeFrame getTransform { includeTransform := true } trail).containsPoint point =
      driftedHas getTransform point trail.above trail.node := by
  simp only [driftedHas, carriedPoint_sub_drift]
  rw [← containsPoint_add, relativeFrame, Trail.nodes, map_append, sum_append,
    map_singleton, sum_singleton, add_comm]
  rfl

section Tree

variable (distinct : DistinctFamilies root) (records : RecordsParents parents root)
  (inspected : ∀ node ∈ forestNodes root.getChildren, InspectedBelow node)
include distinct records inspected

section

variable {trail : Trail (ShadowNodeFields D)} (below : trail ∈ forestTrails root.getChildren)
include below

theorem reported_iff :
    Reported parents getTransform root point trail.node ↔
      driftedHas getTransform (pointInRoot root point) trail.above trail.node = true := by
  obtain ⟨_, measured, frame⟩ := @getRelativeLayoutMetrics_frame D getTransform parents root
    trail.node trail { includeTransform := true } distinct records inspected below rfl
  rw [← relativeFrame_containsPoint, ← frame, Reported]
  simp [measured]

theorem qualifies_under_iff :
    Qualifies parents getTransform root point (trail.under root) ↔
      Passes (driftedHas getTransform (pointInRoot root point)) [] trail := by
  constructor
  · -- a node on the way has its own trail, which is the part of this one up to it
    rintro ⟨-, all⟩ front node back split
    have onWay : node ∈ trail.nodes := split ▸ mem_append_right front mem_cons_self
    exact (reported_iff distinct records inspected (forestTrails_front below split)).mp
      (all node onWay)
  · intro passes
    have all : ∀ node ∈ trail.nodes, Reported parents getTransform root point node := by
      intro node onWay
      obtain ⟨front, back, split⟩ := append_of_mem onWay
      exact (reported_iff distinct records inspected (forestTrails_front below split)).mpr
        (passes front node back split)
    exact ⟨all _ (mem_append_right _ (mem_singleton_self _)), all⟩

end

end Tree

theorem reported_root : Reported parents getTransform root point root ↔
    frameContains root point = true := by
  have same : root.sameFamily root = true := decide_eq_true rfl
  have moved := @containsPoint_add ⟨0, 0⟩ (getLayoutMetrics root).frame.origin point
    (getLayoutMetrics root).frame.size
  have origin : (⟨0, 0⟩ : Point) + (getLayoutMetrics root).frame.origin =
    (getLayoutMetrics root).frame.origin := zero_add _
  rw [origin] at moved
  rw [Reported, getRelativeLayoutMetrics, if_pos same, frameContains]
  simp only [Option.some.injEq, exists_eq_left', pointInRoot]
  rw [← moved]

theorem qualifies_root : Qualifies parents getTransform root point ⟨[], root⟩ ↔
    frameContains root point = true := by
  rw [Qualifies, reported_root]
  simp [Trail.nodes]

section Deepest

variable {label : ShadowNodeFields D}
  (distinct : DistinctFamilies (⟨label, [child]⟩ : ShadowNode D))
  (records : RecordsParents parents (⟨label, [child]⟩ : ShadowNode D))
  (inspected : ∀ node ∈ forestNodes [child], InspectedBelow node)
include distinct records inspected

theorem qualifies_child_iff : ∀ below ∈ Tree.trails child,
    Qualifies parents getTransform ⟨label, [child]⟩ point (below.under ⟨label, [child]⟩) ↔
      Passes (driftedHas getTransform (pointInRoot ⟨label, [child]⟩ point)) [] below := by
  intro below member
  apply qualifies_under_iff distinct records inspected
  have only : forestTrails [child] = Tree.trails child := by
    rw [forestTrails, forestTrails, append_nil]
  exact only.symm ▸ member

theorem isDeepest_under_iff {trail : Trail (ShadowNodeFields D)} :
    IsDeepest parents getTransform ⟨label, [child]⟩ point (trail.under ⟨label, [child]⟩) ↔
      IsFurthest (driftedHas getTransform (pointInRoot ⟨label, [child]⟩ point)) [] child trail := by
  have qualifies := @qualifies_child_iff D parents getTransform child point label distinct records
    inspected
  constructor
  · -- both lengths count the root or neither does
    intro isDeepest
    have member := under_mem_trails.mp isDeepest.isTrail
    refine ⟨member, (qualifies trail member).mp isDeepest.qualifies, ?_⟩
    intro further furtherMem passes
    have deepest := isDeepest.deepest _ (under_mem_trails.mpr furtherMem)
      ((qualifies further furtherMem).mpr passes)
    simpa using deepest
  · intro isFurthest
    refine ⟨under_mem_trails.mpr isFurthest.isTrail,
      (qualifies trail isFurthest.isTrail).mpr isFurthest.passes, ?_⟩
    intro deeper deeperMem deeperQualifies
    rw [trails_singleton, mem_cons, mem_map] at deeperMem
    rcases deeperMem with rfl | ⟨below, belowMem, rfl⟩
    · exact Nat.zero_le _
    · have furthest := isFurthest.furthest below belowMem
        ((qualifies below belowMem).mp deeperQualifies)
      simpa using furthest

theorem isDeepest_root_iff :
    IsDeepest parents getTransform ⟨label, [child]⟩ point ⟨[], ⟨label, [child]⟩⟩ ↔
      frameContains ⟨label, [child]⟩ point = true ∧
        driftedHas getTransform (pointInRoot ⟨label, [child]⟩ point) [] child = false := by
  have qualifies := @qualifies_child_iff D parents getTransform child point label distinct records
    inspected
  constructor
  · intro isDeepest
    refine ⟨qualifies_root.mp isDeepest.qualifies, Bool.eq_false_iff.mpr fun reported => ?_⟩
    have childTrail : (⟨[], child⟩ : Trail (ShadowNodeFields D)) ∈ Tree.trails child := by
      rw [trails_eq]
      exact mem_cons_self
    have shorter := isDeepest.deepest _ (under_mem_trails.mpr childTrail)
      ((qualifies _ childTrail).mpr (passes_nil.mpr reported))
    exact absurd shorter (Nat.not_succ_le_zero 0)
  · rintro ⟨inside, notReported⟩
    refine ⟨?_, qualifies_root.mpr inside, ?_⟩
    · exact mem_cons_self
    · intro deeper deeperMem deeperQualifies
      rw [trails_singleton, mem_cons, mem_map] at deeperMem
      rcases deeperMem with rfl | ⟨below, belowMem, rfl⟩
      · exact Nat.le_refl 0
      · have reported := passes_here belowMem ((qualifies below belowMem).mp deeperQualifies)
        exact absurd reported (Bool.eq_false_iff.mp notReported)

theorem exists_isDeepest_iff (line : IsLine child) :
    (∃ trail, IsDeepest parents getTransform ⟨label, [child]⟩ point trail ∧ trail.node = node) ↔
      (furthest (driftedHas getTransform (pointInRoot ⟨label, [child]⟩ point)) [] child).or
        (if frameContains ⟨label, [child]⟩ point then some ⟨label, [child]⟩ else none) = some node := by
  have isRoot := @isDeepest_root_iff D parents getTransform child point label distinct records
    inspected
  have isBelow := fun trail => @isDeepest_under_iff D parents getTransform child point label
    distinct records inspected trail
  have stops : furthest (driftedHas getTransform (pointInRoot ⟨label, [child]⟩ point)) [] child =
      none ↔ driftedHas getTransform (pointInRoot ⟨label, [child]⟩ point) [] child = false := by
    rw [← @furthest_isSome _ (driftedHas getTransform (pointInRoot ⟨label, [child]⟩ point)),
      Option.isSome_eq_false_iff, Option.isNone_iff_eq_none]
  rw [Option.or_eq_some_iff, furthest_eq_some_iff line, stops, Option.ite_none_right_eq_some,
    Option.some.injEq]
  constructor
  · rintro ⟨trail, isDeepest, isNode⟩
    have isTrail := isDeepest.isTrail
    rw [trails_singleton, mem_cons, mem_map] at isTrail
    rcases isTrail with rfl | ⟨below, -, rfl⟩
    · -- nothing below the root is reported, or else it would be deeper
      obtain ⟨inside, notReported⟩ := isRoot.mp isDeepest
      exact .inr ⟨notReported, inside, isNode⟩
    · exact .inl ⟨below, (isBelow below).mp isDeepest, isNode⟩
  · rintro (⟨trail, isFurthest, isNode⟩ | ⟨notReported, inside, isNode⟩)
    · exact ⟨_, (isBelow trail).mpr isFurthest, isNode⟩
    · exact ⟨_, isRoot.mpr ⟨inside, notReported⟩, isNode⟩

end Deepest

/-! ### The search -/

theorem findNodeAtPoint_eq_furthest (line : IsLine node)
    (layoutable : ∀ below ∈ Tree.nodes node, isLayoutable below = true) : ∀ above,
    findNodeAtPoint getTransform node (carriedPoint getTransform point above) =
      furthest (searchHas getTransform point) above node := by
  revert layoutable
  refine IsLine.induction (P := fun node : ShadowNode D =>
    (∀ below ∈ Tree.nodes node, isLayoutable below = true) → ∀ above,
      findNodeAtPoint getTransform node (carriedPoint getTransform point above) =
        furthest (searchHas getTransform point) above node) ?_ ?_ node line
  · intro label layoutable above
    have here := layoutable _ (self_mem_nodes _)
    rw [findNodeAtPoint, furthest]
    simp only [here, Bool.not_true, Bool.false_eq_true, if_false, findInChildren, Option.none_or,
      searchHas, transformedFrame]
    split <;> simp_all
  · intro label child _ ih layoutable above
    have here := layoutable _ (self_mem_nodes _)
    -- the point that the child gets is the one carried past this node
    have below := ih (fun inner member => layoutable inner (by
      rw [nodes_singleton]
      exact mem_cons_of_mem _ member)) (above ++ [⟨label, [child]⟩])
    have carried : carriedPoint getTransform point (above ++ [⟨label, [child]⟩]) =
        carriedPoint getTransform point above - transformedOrigin getTransform ⟨label, [child]⟩ :=
      foldl_concat ..
    rw [carried] at below
    rw [findNodeAtPoint, furthest, ← below]
    simp only [here, Bool.not_true, Bool.false_eq_true, if_false, findInChildren, Option.or_none,
      searchHas, transformedFrame, transformedOrigin]
    split <;> simp_all

theorem driftedHas_nil : driftedHas getTransform point [] node = searchHas getTransform point [] node := by
  have still : carriedPoint getTransform point [] - drift getTransform ([] : List (ShadowNode D)) =
    point := sub_zero point
  simp only [driftedHas, still, foldr_nil]
  rfl

theorem findNodeAtPoint_root {label : ShadowNodeFields D} (line : IsLine child)
    (plain : Untransformed getTransform (⟨label, [child]⟩ : ShadowNode D))
    (layoutable : ∀ below ∈ Tree.nodes child, isLayoutable below = true) :
    findNodeAtPoint getTransform ⟨label, [child]⟩ point =
      if searchContains ⟨label, [child]⟩ point then
        (furthest (searchHas getTransform (pointInRoot ⟨label, [child]⟩ point)) [] child).or
          (some ⟨label, [child]⟩)
      else none := by
  have below := @findNodeAtPoint_eq_furthest D getTransform child
    (pointInRoot ⟨label, [child]⟩ point) line layoutable []
  rw [findNodeAtPoint_eq plain, ← below, findInChildren, findInChildren, Option.or_none]
  rfl

theorem findsDeepest_leaf {label : ShadowNodeFields D}
    (plain : Untransformed getTransform (⟨label, []⟩ : ShadowNode D)) :
    FindsDeepest parents getTransform ⟨label, []⟩ point ↔
      DriftDoesNotTell getTransform ⟨label, []⟩ point := by
  -- The only trail of a leaf is the one that ends at the leaf.
  have only : (⟨label, []⟩ : ShadowNode D).trails = [⟨[], ⟨label, []⟩⟩] := rfl
  have deepest : ∀ node,
      (∃ trail, IsDeepest parents getTransform ⟨label, []⟩ point trail ∧ trail.node = node) ↔
        (if frameContains ⟨label, []⟩ point then some (⟨label, []⟩ : ShadowNode D) else none) =
          some node := by
    intro node
    rw [Option.ite_none_right_eq_some, Option.some.injEq]
    constructor
    · rintro ⟨trail, isDeepest, isNode⟩
      have isTrail := isDeepest.isTrail
      obtain rfl := mem_singleton.mp isTrail
      exact ⟨qualifies_root.mp isDeepest.qualifies, isNode⟩
    · rintro ⟨inside, isNode⟩
      refine ⟨⟨[], ⟨label, []⟩⟩, ⟨?_, qualifies_root.mpr inside, ?_⟩, isNode⟩
      · exact mem_singleton_self _
      · intro deeper isTrail _
        obtain rfl := mem_singleton.mp isTrail
        exact Nat.le_refl 0
  have none : ShadowNode.getChildren (⟨label, []⟩ : ShadowNode D) = [] := rfl
  rw [FindsDeepest]
  simp only [deepest]
  rw [← Option.ext_iff, findNodeAtPoint_eq plain, findInChildren, Option.none_or, DriftDoesNotTell]
  simp only [none, not_mem_nil, false_implies, implies_true, true_and, false_and, exists_false,
    or_false]
  -- What is searched is at least the frame, so that only the negative sizes differ.
  by_cases searched : searchContains ⟨label, []⟩ point = true
  · simp [searched]
  · have outside : ¬frameContains ⟨label, []⟩ point = true :=
      fun inside => searched (searchContains_of_frame inside)
    simp [searched, outside]

theorem nodes_nodup (distinct : DistinctFamilies root) : (Tree.nodes root).Nodup := by
  obtain ⟨label, _⟩ := root
  exact List.Nodup.of_map (fun node : ShadowNode D => familyOf node.label) distinct

/-- **Hit testing agrees with measuring** in a tree without branches exactly if the drift and the
scale of the sizes do not tell on the way of the search. -/
theorem findsDeepest_iff (line : IsLine root) (plain : Untransformed getTransform root)
    (inspected : ∀ below ∈ forestNodes root.getChildren, InspectedBelow below)
    (distinct : DistinctFamilies root) (records : RecordsParents parents root) (point : Point) :
    FindsDeepest parents getTransform root point ↔ DriftDoesNotTell getTransform root point := by
  -- the root is measured from its own origin, and all else from the child below it
  obtain ⟨label, _ | ⟨child, rest⟩⟩ := root
  · exact findsDeepest_leaf plain
  · obtain ⟨rfl, childLine⟩ := isLine_child line
    have childMem : ∀ below ∈ Tree.nodes child, below ∈ forestNodes [child] :=
      fun below member => mem_forestNodes.mpr ⟨child, mem_singleton_self child, member⟩
    have layoutable : ∀ below ∈ Tree.nodes child, isLayoutable below = true :=
      fun below member => (inspected below (childMem below member)).layoutable
    have distinctNodes := nodes_nodup distinct
    rw [nodes_singleton, nodup_cons] at distinctNodes
    have apart : ∀ test, (⟨label, [child]⟩ : ShadowNode D) ∉ furthest test [] child :=
      fun test isFound => distinctNodes.1 (furthest_mem childLine [] _ isFound)
    have agrees := @furthest_eq_iff _ (searchHas getTransform (pointInRoot ⟨label, [child]⟩ point))
      (driftedHas getTransform (pointInRoot ⟨label, [child]⟩ point)) child childLine distinctNodes.2 []
    have isSearched := @furthest_isSome _
      (searchHas getTransform (pointInRoot ⟨label, [child]⟩ point)) [] child
    have isReported := @furthest_isSome _
      (driftedHas getTransform (pointInRoot ⟨label, [child]⟩ point)) [] child
    rw [driftedHas_nil] at isReported
    have single : ShadowNode.getChildren (⟨label, [child]⟩ : ShadowNode D) = [child] := rfl
    rw [FindsDeepest]
    simp only [exists_isDeepest_iff distinct records inspected childLine]
    rw [← Option.ext_iff, findNodeAtPoint_root childLine plain layoutable, DriftDoesNotTell]
    simp only [single, mem_singleton, forall_eq, exists_eq_left, ← agrees]
    by_cases searched : searchContains ⟨label, [child]⟩ point = true
    · rw [if_pos searched, if_pos searched]
      by_cases inside : frameContains ⟨label, [child]⟩ point = true
      · rw [if_pos inside, or_self_inj (apart _) (apart _)]
        simp [inside]
      · -- the root itself must not be found, so the search has to stop below it
        rw [if_neg inside, Option.or_none, or_self_eq_iff (apart _), isSearched]
        simp [inside]
    · have outside : ¬frameContains ⟨label, [child]⟩ point = true :=
        fun inside => searched (searchContains_of_frame inside)
      rw [if_neg searched, if_neg searched, if_neg outside, Option.or_none, ← isReported,
        Option.isSome_eq_false_iff, Option.isNone_iff_eq_none, eq_comm]

/-! ### A node in a scaled node -/

def scaleOf (node : ShadowNode Unit) : Transform :=
  if node.getTag = 2 then .Scale (1 / 2) (1 / 2) 1 else .Identity

variable (side : ℚ)

def scaledSquares : ShadowNode Unit :=
  squareNode 1 0 200 [squareNode 2 0 100 [squareNode 3 side 40 []]]

theorem scaledSquares_below : forestNodes (scaledSquares side).getChildren =
    [squareNode 2 0 100 [squareNode 3 side 40 []], squareNode 3 side 40 []] := rfl

theorem scaledSquares_inspected :
    ∀ below ∈ forestNodes (scaledSquares side).getChildren, InspectedBelow below := by
  intro below member
  rw [scaledSquares_below, mem_cons, mem_singleton] at member
  rcases member with rfl | rfl <;> exact ⟨rfl, rfl⟩

theorem scaledSquares_distinct : DistinctFamilies (scaledSquares side) := by
  have families : DistinctFamilies (scaledSquares side) =
    [viewFamily 1, viewFamily 2, viewFamily 3].Nodup := rfl
  rw [families]
  decide

theorem scaledSquares_records : RecordsParents familiesInRow (scaledSquares side) := by
  have nodes : Tree.nodes (scaledSquares side) =
    scaledSquares side :: forestNodes (scaledSquares side).getChildren := rfl
  intro node member child childMem
  rw [nodes, scaledSquares_below, mem_cons, mem_cons, mem_singleton] at member
  rcases member with rfl | rfl | rfl
  · obtain rfl := mem_singleton.mp childMem
    rfl
  · obtain rfl := mem_singleton.mp childMem
    rfl
  · cases childMem

theorem findsDeepest_iff_scaledSquares :
    FindsDeepest familiesInRow scaleOf (scaledSquares 0) ⟨30, 30⟩ ↔
      DriftDoesNotTell scaleOf (scaledSquares 0) ⟨30, 30⟩ :=
  findsDeepest_iff (by unfold IsLine; decide +kernel) ⟨rfl, by decide +kernel⟩
    (scaledSquares_inspected 0) (scaledSquares_distinct 0) (scaledSquares_records 0) ⟨30, 30⟩

theorem scaledSquares_not_deepest :
    ¬FindsDeepest familiesInRow scaleOf (scaledSquares 60) ⟨65, 30⟩ := by
  intro finds
  have line : IsLine (squareNode 2 0 100 [squareNode 3 60 40 []]) := by
    unfold IsLine
    decide +kernel
  have found : findNodeAtPoint scaleOf (scaledSquares 60) ⟨65, 30⟩ = some (squareNode 3 60 40 []) := by
    decide +kernel
  have deepest := (exists_isDeepest_iff (scaledSquares_distinct 60) (scaledSquares_records 60)
    (scaledSquares_inspected 60) line).mp ((finds _).mp found)
  exact absurd deepest (by decide +kernel)

end LayoutableShadowNode

end ReactNative

