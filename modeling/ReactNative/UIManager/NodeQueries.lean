import ReactNative.Core.MeasuredHits

/-! JavaScript may hold a node that is not in the tree of its surface, or whose surface has been
stopped. Measuring looks at what it has found before it goes on. -/
namespace ReactNative

open KeyedTree Option

variable {D : Type}

abbrev SurfaceId := Int

/-- A read of what is not there. -/
inductive UndefinedRead where
  | unsetRoot
  | emptyAncestors
  | missingNode

/-- Whether the nodes of a family are layoutable is decided by their class. -/
def OfClasses (layoutable : ShadowNodeFamily → Bool) (tree : ShadowNode D) : Prop :=
  ∀ node ∈ Tree.nodes tree,
    LayoutableShadowNode.isLayoutable node = layoutable (ShadowNode.getFamily node)

/-- The committed tree of a surface. -/
structure CommittedTree (D : Type) (parents : FamilyParents)
    (layoutable : ShadowNodeFamily → Bool) extends CommittedRoot D parents where
  ofClasses : OfClasses layoutable rootShadowNode

namespace UIManager

section Queries

variable {parents : FamilyParents} {layoutable : ShadowNodeFamily → Bool}
  (surfaceOf : ShadowNodeFamily → SurfaceId) (getTransform : ShadowNode D → Transform)
  (registry : SurfaceId → Option (CommittedTree D parents layoutable))

variable (shadowNode : ShadowNode D)

/-- The root that a visit of the surface of the node leaves, if any. -/
def visitedRoot : Option (ShadowNode D) :=
  (registry (surfaceOf shadowNode.getFamily)).map fun tree => tree.rootShadowNode

/-- The null pointer is `none`. -/
def getNewestCloneOfShadowNode : Except UndefinedRead (Option (ShadowNode D)) :=
  match visitedRoot surfaceOf registry shadowNode with
  | none => .error .unsetRoot
  | some ancestorShadowNode =>
    let ancestors := shadowNode.getFamily.getAncestors parents ancestorShadowNode
    match ancestors.getLast? with
    | none => .error .emptyAncestors
    | some parent => .ok (LayoutableShadowNode.findNewestChildInParent parent.1 shadowNode)

def findNodeAtPoint (node : ShadowNode D) (point : Point) :
    Except UndefinedRead (Option (ShadowNode D)) :=
  match getNewestCloneOfShadowNode surfaceOf registry node with
  | .error undefined => .error undefined
  | .ok none => .error .missingNode
  | .ok (some newest) => .ok (LayoutableShadowNode.findNodeAtPoint getTransform newest point)

/-- Without an ancestor the node is measured relative to the root of its surface. -/
def getRelativeLayoutMetrics (shadowNode : ShadowNode D)
    (ancestorShadowNode : Option (ShadowNode D)) (policy : LayoutInspectingPolicy) :
    Except UndefinedRead LayoutMetrics :=
  match ancestorShadowNode.or (visitedRoot surfaceOf registry shadowNode) with
  | none => .ok EmptyLayoutMetrics
  | some ancestor =>
    if !LayoutableShadowNode.isLayoutable shadowNode ||
        !LayoutableShadowNode.isLayoutable ancestor then
      .ok EmptyLayoutMetrics
    else
      match LayoutableShadowNode.getRelativeLayoutMetrics parents getTransform shadowNode ancestor
          policy with
      | none => .error .missingNode
      | some layoutMetrics => .ok layoutMetrics

/-- The family of the node is in the current tree of its surface. -/
def InCurrentTree : Prop :=
  ∃ tree ∈ registry (surfaceOf shadowNode.getFamily),
    shadowNode.getFamily = tree.rootShadowNode.getFamily ∨
      OccursBelow shadowNode.getFamily tree.rootShadowNode

/-- The family is in the current tree of its surface, and not that of the root. -/
def BelowCurrentRoot : Prop :=
  ∃ tree ∈ registry (surfaceOf shadowNode.getFamily),
    OccursBelow shadowNode.getFamily tree.rootShadowNode

/-- No query reads what is not there, and nodes that are not in the tree are told to be nowhere. -/
structure QueriesAreSafe : Prop where
  hitTesting : ∀ point undefined,
    findNodeAtPoint surfaceOf getTransform registry shadowNode point ≠ .error undefined
  measuring : ∀ ancestorShadowNode : Option (ShadowNode D),
    (∀ ancestor ∈ ancestorShadowNode, OfClasses layoutable ancestor) → ∀ policy undefined,
      getRelativeLayoutMetrics surfaceOf getTransform registry shadowNode ancestorShadowNode policy ≠
        .error undefined
  nowhere : ¬InCurrentTree surfaceOf registry shadowNode →
    (∀ point, findNodeAtPoint surfaceOf getTransform registry shadowNode point = .ok none) ∧
      ∀ policy, getRelativeLayoutMetrics surfaceOf getTransform registry shadowNode none
        policy = .ok EmptyLayoutMetrics

end Queries

variable {parents : FamilyParents} {layoutable : ShadowNodeFamily → Bool}
  {surfaceOf : ShadowNodeFamily → SurfaceId} {getTransform : ShadowNode D → Transform}
  {registry : SurfaceId → Option (CommittedTree D parents layoutable)} {shadowNode : ShadowNode D}

/-! ### Hit testing -/

variable {root : ShadowNode D} {family : ShadowNodeFamily}

theorem getAncestors_ne_nil (distinct : DistinctFamilies root)
    (records : RecordsParents parents root) (below : OccursBelow family root) :
    ∃ parent last, (ShadowNodeFamily.getAncestors parents family root).getLast? = some parent ∧
      DistinctFamilies parent.1 ∧ last ∈ ShadowNode.getChildren parent.1 ∧ last.getFamily = family := by
  obtain ⟨_, last, isPath, some_step, isTarget⟩ := exists_isPath below
  have ancestors := getAncestors_eq distinct records isPath
  rw [isTarget] at ancestors
  obtain ⟨_, parent, rfl, isFront, there⟩ := exists_last_step isPath some_step
  refine ⟨parent, last, ?_, distinctFamilies_isPath distinct isFront,
    List.mem_of_getElem? there, isTarget⟩
  rw [ancestors, List.getLast?_concat]

theorem findNodeAtPoint_ok (below : BelowCurrentRoot surfaceOf registry shadowNode) (point : Point) :
    ∃ found, findNodeAtPoint surfaceOf getTransform registry shadowNode point = .ok found := by
  obtain ⟨tree, registered, occurs⟩ := below
  obtain ⟨_, last, isLast, distinct, member, sameFamily⟩ :=
    getAncestors_ne_nil tree.distinct tree.records occurs
  have newest := LayoutableShadowNode.findNewestChildInParent_eq distinct member sameFamily.symm
  have isRoot : visitedRoot surfaceOf registry shadowNode = some tree.rootShadowNode := by
    rw [visitedRoot, mem_def.mp registered, map_some]
  refine ⟨LayoutableShadowNode.findNodeAtPoint getTransform last point, ?_⟩
  simp only [findNodeAtPoint, getNewestCloneOfShadowNode, isRoot, isLast, newest]

theorem findNodeAtPoint_error (notBelow : ¬BelowCurrentRoot surfaceOf registry shadowNode)
    (point : Point) :
    ∃ undefined, findNodeAtPoint surfaceOf getTransform registry shadowNode point =
      .error undefined := by
  cases registered : registry (surfaceOf shadowNode.getFamily) with
  | none =>
    -- the visitor is not called, and the pointer stays unset
    refine ⟨.unsetRoot, ?_⟩
    simp only [findNodeAtPoint, getNewestCloneOfShadowNode, visitedRoot, registered, map_none]
  | some tree =>
    have absent : ¬OccursBelow shadowNode.getFamily tree.rootShadowNode :=
      fun occurs => notBelow ⟨tree, registered, occurs⟩
    have nothing := @getAncestors_nil D parents _ _ absent
    refine ⟨.emptyAncestors, ?_⟩
    simp only [findNodeAtPoint, getNewestCloneOfShadowNode, visitedRoot, registered,
      map_some, nothing, List.getLast?_nil]

/-! ### Measuring -/

theorem mem_nodes_of_descend {node : ShadowNode D} {families : List ShadowNodeFamily}
    {path : AncestorList D} (descends : ShadowNodeFamily.descend node families = some path) :
    ∀ step ∈ path, step.1 ∈ Tree.nodes node := by
  induction families generalizing node path with
  | nil =>
    cases descends
    simp
  | cons _ _ ih =>
    obtain ⟨child, _, _, there, -, descendsRest, rfl⟩ := descend_cons_eq_some descends
    rw [List.forall_mem_cons]
    constructor
    · exact self_mem_nodes node
    · intro step member
      exact mem_nodes.mpr (.inr (mem_forestNodes.mpr
        ⟨child, List.mem_of_getElem? there, ih descendsRest step member⟩))

theorem mem_nodes_of_getAncestors : ∀ step ∈ ShadowNodeFamily.getAncestors parents family root,
      step.1 ∈ Tree.nodes root := by
  rw [ShadowNodeFamily.getAncestors]
  split
  next => simp
  next =>
    cases descends : ShadowNodeFamily.descend root
        (ShadowNodeFamily.climb parents root.getFamily family).1.reverse with
    | none => simp
    | some => exact mem_nodes_of_descend descends

theorem getRelativeLayoutMetrics_isSome {ancestor : ShadowNode D} (policy : LayoutInspectingPolicy)
    (handle : LayoutableShadowNode.isLayoutable shadowNode = layoutable shadowNode.getFamily)
    (ofClasses : OfClasses layoutable ancestor)
    (isLayoutable : LayoutableShadowNode.isLayoutable shadowNode = true) :
    ∃ layoutMetrics, LayoutableShadowNode.getRelativeLayoutMetrics parents getTransform shadowNode
      ancestor policy = some layoutMetrics := by
  rw [LayoutableShadowNode.getRelativeLayoutMetrics]
  split
  next => exact ⟨_, rfl⟩
  next =>
    dsimp only
    -- the empty metrics are returned wherever a node is missing
    split
    next => exact ⟨_, rfl⟩
    next parent isLast =>
      split
      next => exact ⟨_, rfl⟩
      next newestChild found =>
        have newestMem := List.mem_of_find?_eq_some found
        have sameFamily : newestChild.getFamily = shadowNode.getFamily := by
          simpa [ShadowNode.sameFamily] using List.find?_some found
        have parentMem := mem_nodes_of_getAncestors _ (List.mem_of_getLast? isLast)
        have childMem := child_mem_nodes parentMem newestMem
        have newest : LayoutableShadowNode.isLayoutable newestChild = true := by
          rw [ofClasses newestChild childMem, sameFamily, ← handle, isLayoutable]
        simp [newest]

section

variable (handle : LayoutableShadowNode.isLayoutable shadowNode = layoutable shadowNode.getFamily)
include handle

theorem getRelativeLayoutMetrics_ok {ancestorShadowNode : Option (ShadowNode D)}
    (ofClasses : ∀ ancestor ∈ ancestorShadowNode, OfClasses layoutable ancestor)
    (policy : LayoutInspectingPolicy) :
    ∃ layoutMetrics, getRelativeLayoutMetrics surfaceOf getTransform registry shadowNode
      ancestorShadowNode policy = .ok layoutMetrics := by
  have classes : ∀ ancestor ∈ ancestorShadowNode.or (visitedRoot surfaceOf registry shadowNode),
      OfClasses layoutable ancestor := by
    intro ancestor member
    rcases or_eq_some_iff.mp member with given | ⟨-, visited⟩
    · exact ofClasses ancestor given
    · obtain ⟨tree, -, rfl⟩ := map_eq_some_iff.mp visited
      exact tree.ofClasses
  rw [getRelativeLayoutMetrics]
  cases found : ancestorShadowNode.or (visitedRoot surfaceOf registry shadowNode) with
  | none => exact ⟨_, rfl⟩
  | some ancestor =>
    dsimp only
    split
    next => exact ⟨_, rfl⟩
    next castable =>
      have isLayoutable : LayoutableShadowNode.isLayoutable shadowNode = true := by
        simp_all
      obtain ⟨layoutMetrics, measured⟩ := getRelativeLayoutMetrics_isSome policy handle
        (classes ancestor found) isLayoutable
      exact ⟨layoutMetrics, by rw [measured]⟩

/-- **Queries are safe** exactly for the nodes whose family is below the current root of their
surface. -/
theorem queriesAreSafe_iff :
    QueriesAreSafe surfaceOf getTransform registry shadowNode ↔
      BelowCurrentRoot surfaceOf registry shadowNode := by
  constructor
  · intro safe
    -- hit testing alone tells: it fails at every point
    by_contra notBelow
    obtain ⟨undefined, failed⟩ :=
      @findNodeAtPoint_error D parents layoutable surfaceOf getTransform registry shadowNode notBelow
        ⟨0, 0⟩
    exact safe.hitTesting ⟨0, 0⟩ undefined failed
  · intro below
    constructor
    · intro point undefined failed
      obtain ⟨found, ok⟩ := @findNodeAtPoint_ok D parents layoutable surfaceOf getTransform registry
        shadowNode below point
      rw [ok] at failed
      cases failed
    · intro ancestorShadowNode ofClasses policy undefined failed
      obtain ⟨layoutMetrics, ok⟩ := @getRelativeLayoutMetrics_ok D parents layoutable surfaceOf
        getTransform registry shadowNode handle ancestorShadowNode ofClasses policy
      rw [ok] at failed
      cases failed
    · -- a node below the root is in the tree, so nothing is asked of the rest
      intro notIn
      obtain ⟨tree, registered, occurs⟩ := below
      exact absurd ⟨tree, registered, .inr occurs⟩ notIn

end

/-! ### Three squares on a surface -/

open LayoutableShadowNode

def squaresTree : CommittedTree Unit familiesInRow fun _ => true where
  rootShadowNode := scaledSquares 0
  distinct := scaledSquares_distinct 0
  records := scaledSquares_records 0
  ofClasses := by
    unfold OfClasses
    decide +kernel

/-- The surface of all nodes, with the squares. -/
def squaresRegistry (surfaceId : SurfaceId) : Option (CommittedTree Unit familiesInRow fun _ => true) :=
  if surfaceId = 1 then some squaresTree else none

/-- The surface after it has been stopped. -/
def stoppedRegistry (_ : SurfaceId) : Option (CommittedTree Unit familiesInRow fun _ => true) := none

theorem queriesAreSafe_iff_innerSquare :
    QueriesAreSafe (fun _ => 1) scaleOf squaresRegistry (squareNode 3 7 40 []) ↔
      BelowCurrentRoot (fun _ => 1) squaresRegistry (squareNode 3 7 40 []) :=
  queriesAreSafe_iff rfl

theorem removedSquare_not_safe :
    ¬QueriesAreSafe (fun _ => 1) scaleOf stoppedRegistry (squareNode 3 0 40 []) ∧
      ¬QueriesAreSafe (fun _ => 1) scaleOf squaresRegistry (squareNode 9 0 40 []) := by
  constructor
  · intro safe
    exact safe.hitTesting ⟨0, 0⟩ .unsetRoot rfl
  · intro safe
    have notBelow : ¬BelowCurrentRoot (fun _ => 1) squaresRegistry (squareNode 9 0 40 []) := by
      rintro ⟨tree, registered, occurs⟩
      obtain rfl : squaresTree = tree := some.inj registered
      exact absurd occurs (by unfold OccursBelow; decide +kernel)
    obtain ⟨undefined, failed⟩ := @findNodeAtPoint_error Unit familiesInRow (fun _ => true)
      (fun _ => 1) scaleOf squaresRegistry (squareNode 9 0 40 []) notBelow ⟨0, 0⟩
    exact safe.hitTesting ⟨0, 0⟩ undefined failed

end UIManager

end ReactNative

