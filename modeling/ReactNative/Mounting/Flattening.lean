import ReactNative.Mounting.DifferentiatorCorrectness

/-! When a node starts or stops to form a view or a stacking context, views of its descendants move
to another parent view although every family keeps its parent. -/
namespace ReactNative

open KeyedTree ShadowNode

variable {D : Type}

/-- Two trees over the same families: tags identify families, a family occurs at
most once in a tree, and it keeps its parent family. Traits may differ. -/
structure SameFamilies (old new : ShadowNode D) : Prop where
  root : old.sameFamily new
  distinctOld : ((Tree.nodes old).map getTag).Nodup
  distinctNew : ((Tree.nodes new).map getTag).Nodup
  nonzeroOld : 0 ∉ (Tree.nodes old).map getTag
  nonzeroNew : 0 ∉ (Tree.nodes new).map getTag
  tagged : ∀ a ∈ Tree.nodes old, ∀ b ∈ Tree.nodes new, getTag a = getTag b →
    getFamily a = getFamily b
  parents : ∀ p ∈ Tree.nodes old, ∀ c ∈ p.children, ∀ q ∈ Tree.nodes new, ∀ d ∈ q.children,
    getFamily c = getFamily d → getFamily p = getFamily q

def familyTag (fields : ShadowNodeFields D) : Tag := fields.family.tag

theorem nodes_tags (root : ShadowNode D) :
    (Tree.nodes root).map getTag = root.getTag :: keys familyTag root.getChildren := by
  cases root
  rfl

theorem parentOf_node {root : ShadowNode D} {a k : Tag}
    (above : ParentOf familyTag root.getTag root.getChildren a k) :
    ∃ p ∈ Tree.nodes root, getTag p = a ∧ ∃ c ∈ p.children, getTag c = k := by
  rcases above with ⟨rfl, member⟩ | ⟨p, nodeMem, rfl, member⟩
  · obtain ⟨c, childMem, tag⟩ := mem_rootKeys.mp member
    exact ⟨root, self_mem_nodes root, rfl, c, childMem, tag⟩
  · obtain ⟨c, childMem, tag⟩ := mem_rootKeys.mp member
    exact ⟨p, mem_nodes.mpr (.inr nodeMem), rfl, c, childMem, tag⟩

theorem validForest_of_nodes {root : ShadowNode D} (distinct : ((Tree.nodes root).map getTag).Nodup)
    (nonzero : 0 ∉ (Tree.nodes root).map getTag) :
    ValidForest root.getTag (viewForest root) := by
  rw [nodes_tags] at distinct nonzero
  obtain ⟨rootApart, below⟩ := List.nodup_cons.mp distinct
  have sub : ∀ tag ∈ keys ShadowView.tag (viewForest root), tag ∈ keys familyTag root.getChildren := by
    intro tag member
    obtain ⟨node, nodeMem, -, rfl⟩ := viewForest_keys_subset member
    exact mem_keys.mpr ⟨node, nodeMem, rfl⟩
  refine ⟨List.nodup_cons.mpr ⟨fun member => rootApart (sub _ member), ?_⟩,
    fun zero => nonzero (List.mem_cons_of_mem _ (sub _ zero))⟩
  by_cases keeps : root.getTraits.formsStackingContext ∨ ¬ root.getTraits.formsView
  · rw [(viewForest_keys keeps).nodup_iff]
    exact below.sublist (List.filter_sublist.map _)
  · simp only [not_or, not_not] at keeps
    simp [viewForest, keeps]

namespace SameFamilies

variable {old new : ShadowNode D} (families : SameFamilies old new)
include families

theorem tags : old.getTag = new.getTag :=
  congrArg ShadowNodeFamily.tag (of_decide_eq_true families.root)

theorem sameParents : SameParents familyTag old.getTag old.getChildren new.getChildren := by
  intro k a b inOld inNew
  rw [families.tags] at inNew
  obtain ⟨p, oldMem, rfl, c, inP, tagC⟩ := parentOf_node inOld
  obtain ⟨q, newMem, rfl, d, inQ, tagD⟩ := parentOf_node inNew
  have child := families.tagged c (child_mem_nodes oldMem inP) d (child_mem_nodes newMem inQ)
    (tagC.trans tagD.symm)
  exact congrArg ShadowNodeFamily.tag (families.parents p oldMem c inP q newMem d inQ child)

theorem noEscape : NoEscape ShadowView.tag (viewForest old) (viewForest new) := by
  have distinctOld := families.distinctOld
  have distinctNew := families.distinctNew
  rw [nodes_tags] at distinctOld distinctNew
  rw [← families.tags] at distinctNew
  intro a oldMem b newMem same nonempty k below inNew
  obtain ⟨x, xMem, -, xTag, xViews⟩ := viewForest_node oldMem
  obtain ⟨y, yMem, yForms, yTag, yViews⟩ := viewForest_node newMem
  -- Only a stacking context has views below its own.
  have stacking : (getTraits y).formsStackingContext := by
    by_contra flat
    have forms : (getTraits y).formsView = true := by
      simpa [formsAnyView, flat] using yForms
    refine nonempty ?_
    rw [yViews]
    simp [viewForest, flat, forms]
  rw [xViews] at below
  obtain ⟨u, uMem, -, uTag⟩ := viewForest_keys_subset below
  obtain ⟨v, vMem, vForms, vTag⟩ := viewForest_keys_subset inNew
  -- The node of the view stays below the node of its ancestor.
  obtain ⟨y', yMem', yTag', inside⟩ := families.sameParents.below_stays distinctOld distinctNew
    (mem_keys.mpr ⟨v, vMem, vTag⟩) x xMem (mem_keys.mpr ⟨u, uMem, uTag⟩)
  have sameNode : y' = y := by
    refine Distinct.node_unique distinctNew yMem' yMem (yTag'.trans ?_)
    exact xTag.symm.trans (same.trans yTag)
  rw [sameNode] at inside
  obtain ⟨w, wMem, wTag⟩ := mem_keys.mp inside
  have sameView : w = v := by
    refine Distinct.node_unique distinctNew (forestNodes_trans yMem wMem) vMem ?_
    exact wTag.trans vTag.symm
  rw [yViews, (viewForest_keys (.inl stacking)).mem_iff]
  refine List.mem_map.mpr ⟨w, List.mem_filter.mpr ⟨wMem, ?_⟩, wTag⟩
  rw [sameView]
  exact vForms

end SameFamilies

/-! ### Safe lists -/

/-- No tag is deleted once the list has created it. -/
def NeverDeletesCreated (mutations : List (ShadowViewMutation D)) : Prop :=
  mutations.Pairwise fun earlier later => earlier.type = .create → later.type = .delete →
    later.oldChildShadowView.tag ≠ earlier.newChildShadowView.tag

theorem neverDeletesCreated_of_edits {mutations : List (ShadowViewMutation D)}
    (first : DeletesFirst (mutations.map editOf)) : NeverDeletesCreated mutations := by
  refine (List.pairwise_map.mp first).imp ?_
  intro earlier later apart creates deletes same
  refine apart earlier.newChildShadowView.tag ?_ ?_
  · simp [editOf, creates]
  · simp [editOf, deletes, same]

variable [DecidableEq D]

/-- The list runs on the stub tree of the old tree, never deletes what it has
created, and ends in the stub tree of the new one. -/
def DiffsSafely (mode : DifferentiatorMode) (old new : ShadowNode D) : Prop :=
  ∃ oldStub newStub mutations result,
    stubViewTreeFromShadowNode reorderInPlaceIfNeeded old = some oldStub ∧
    stubViewTreeFromShadowNode reorderInPlaceIfNeeded new = some newStub ∧
    calculateShadowViewMutations mode old new = some mutations ∧
    oldStub.mutate mutations = some result ∧ result.describe = newStub.describe ∧
    NeverDeletesCreated mutations

namespace SameFamilies

variable {old new : ShadowNode D} (families : SameFamilies old new)
include families

variable (mode : DifferentiatorMode)

theorem mounts_iff : MountsTo mode old new ↔
    NoStray ShadowView.tag mode.stray (viewForest old) (viewForest new) :=
  mountsTo_iff mode families.root (validForest_of_nodes families.distinctOld families.nonzeroOld)
    (validForest_of_nodes families.distinctNew families.nonzeroNew) families.noEscape

theorem neverDeletesCreated
    (noStray : NoStray ShadowView.tag mode.stray (viewForest old) (viewForest new))
    {mutations : List (ShadowViewMutation D)}
    (calculated : calculateShadowViewMutations mode old new = some mutations) :
    NeverDeletesCreated mutations := by
  have validOld := validForest_of_nodes families.distinctOld families.nonzeroOld
  have validNew := validForest_of_nodes families.distinctNew families.nonzeroNew
  obtain ⟨_, _, listed, ⟨-, rendered⟩, diff⟩ :=
    calculateShadowViewMutations_diff mode families.root validOld validNew
  rw [calculated, Option.some.injEq] at listed
  subst listed
  rw [← families.tags] at validNew
  refine neverDeletesCreated_of_edits ?_
  have noCreate : ∀ k, .create k ∉ rootEdits old new := by
    unfold rootEdits
    split <;> simp
  rw [rendered, deletesFirst_append]
  exact ⟨deletesFirst_of_no_creates noCreate,
    diff.deletesFirst mode.strayMatched ⟨validOld.distinct, validNew.distinct, families.noEscape,
      noStray⟩, fun k created => absurd created (noCreate k)⟩

end SameFamilies

/-- **Flattening changes are diffed safely** in the `Classic` mode, and in the
`OptimizedMoves` mode exactly where no compared siblings have stray moves. -/
theorem diffsSafely_iff {old new : ShadowNode D} (families : SameFamilies old new)
    (mode : DifferentiatorMode) :
    DiffsSafely mode old new ↔ mode = .classic ∨ NoStrayMoves old new := by
  have strays : NoStray ShadowView.tag mode.stray (viewForest old) (viewForest new) ↔
      mode = .classic ∨ NoStrayMoves old new := by
    cases mode with
    | classic => simp [noStray_classic]
    | optimizedMoves => simp [NoStrayMoves, DifferentiatorMode.stray]
  rw [← strays]
  constructor
  · rintro ⟨oldStub, newStub, mutations, result, oldBuilt, newBuilt, calculated, mutated, same, -⟩
    exact (families.mounts_iff mode).mp
      ⟨oldStub, newStub, mutations, result, oldBuilt, newBuilt, calculated, mutated, same⟩
  · intro noStray
    obtain ⟨oldStub, newStub, mutations, result, oldBuilt, newBuilt, calculated, mutated, same⟩ :=
      (families.mounts_iff mode).mpr noStray
    exact ⟨oldStub, newStub, mutations, result, oldBuilt, newBuilt, calculated, mutated, same,
      families.neverDeletesCreated mode noStray calculated⟩

def flattenedNode (tag : Tag) (children : List (ShadowNode Unit)) : ShadowNode Unit :=
  ⟨{ (viewNode tag []).label with traits := {} }, children⟩

theorem diffsSafely_flattened :
    DiffsSafely .classic (viewNode 1 [viewNode 2 [viewNode 3 []], viewNode 4 []])
      (viewNode 1 [flattenedNode 2 [viewNode 3 []], viewNode 4 []]) :=
  (diffsSafely_iff ⟨by decide, by decide +kernel, by decide +kernel, by decide +kernel,
    by decide +kernel, by decide +kernel, by decide +kernel⟩ .classic).mpr (.inl rfl)

theorem flattened_view_created_again :
    let old := viewNode 1 [viewNode 2 [], flattenedNode 9 [viewNode 3 []], viewNode 5 []]
    let new := viewNode 1 [flattenedNode 9 [viewNode 3 []], viewNode 4 [], viewNode 2 [],
      flattenedNode 5 []]
    SameFamilies old new ∧ ¬ DiffsSafely .optimizedMoves old new := by
  intro old new
  have families : SameFamilies old new := ⟨by decide, by decide +kernel, by decide +kernel,
    by decide +kernel, by decide +kernel, by decide +kernel, by decide +kernel⟩
  refine ⟨families, ?_⟩
  rintro ⟨oldStub, newStub, mutations, result, oldBuilt, newBuilt, calculated, mutated, same, -⟩
  have noStray := (families.mounts_iff .optimizedMoves).mp
    ⟨oldStub, newStub, mutations, result, oldBuilt, newBuilt, calculated, mutated, same⟩
  have strays : strayMoves [2, 3, 5] [3, 4, 2] = [3] := by decide +kernel
  have none := noStray _ _ (.here _ _)
  have siblings : rootKeys ShadowView.tag (viewForest old) = [2, 3, 5] ∧
      rootKeys ShadowView.tag (viewForest new) = [3, 4, 2] := by decide +kernel
  rw [siblings.1, siblings.2] at none
  exact absurd (strays.symm.trans none) (by decide)

end ReactNative

