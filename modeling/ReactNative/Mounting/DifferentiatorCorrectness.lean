import ReactNative.Mounting.OptimizedMovesCorrectness

/-! Applied to the stub view tree of the old shadow tree, the mutations lead to the stub view tree
of the new one. In the `Classic` mode they always do. -/
namespace ReactNative

open KeyedTree ShadowViewMutation ShadowView Option

variable {D : Type}

/-! ### Trees and their views -/

variable (rootShadowNode : ShadowNode D)

/-- The tags of the views that are mounted for a tree. -/
def viewTags : List Tag := rootShadowNode.getTag :: keys ShadowView.tag (viewForest rootShadowNode)

/-- View tags are pairwise distinct and non-zero. -/
structure ValidViews : Prop where
  distinct : (viewTags rootShadowNode).Nodup
  nonzero : 0 ∉ viewTags rootShadowNode

theorem ValidViews.forest {rootShadowNode : ShadowNode D} (valid : ValidViews rootShadowNode) :
    ValidForest rootShadowNode.getTag (viewForest rootShadowNode) :=
  ⟨valid.distinct, fun zero => valid.nonzero (List.mem_cons_of_mem _ zero)⟩

/-- A tag that occurs in both view hierarchies has the same parent view in both. -/
def NoReparenting (oldRootShadowNode newRootShadowNode : ShadowNode D) : Prop :=
  SameParents ShadowView.tag oldRootShadowNode.getTag (viewForest oldRootShadowNode)
    (viewForest newRootShadowNode)

/-- Nowhere do two compared lists of siblings have stray moves. -/
def NoStrayMoves (oldRootShadowNode newRootShadowNode : ShadowNode D) : Prop :=
  NoStray ShadowView.tag strayMoves (viewForest oldRootShadowNode) (viewForest newRootShadowNode)

def DifferentiatorMode.stray : DifferentiatorMode → List Tag → List Tag → List Tag
  | classic => fun _ _ => []
  | optimizedMoves => strayMoves

theorem DifferentiatorMode.strayMatched (mode : DifferentiatorMode) : StrayMatched mode.stray := by
  cases mode with
  | classic => exact ⟨by simp [stray], fun _ => rfl⟩
  | optimizedMoves => exact strayMatched_strayMoves

section Modes

variable [DecidableEq D] {old new : ShadowNode D}

def rootEdits (old new : ShadowNode D) : List (Edit (ShadowView D) Tag) :=
  if ofShadowNode old ≠ ofShadowNode new then
    [.update (ofShadowNode new)]
  else []

variable (mode : DifferentiatorMode)

theorem calculateShadowViewMutations_diff
    (sameFamily : old.sameFamily new) (validOld : ValidForest old.getTag (viewForest old))
    (validNew : ValidForest new.getTag (viewForest new)) :
    ∃ mutations edits, calculateShadowViewMutations mode old new = some mutations ∧
      Renders mutations (rootEdits old new ++ edits) ∧
      Diff ShadowView.tag mode.stray old.getTag (viewForest old) (viewForest new) edits := by
  have families : old.getFamily = new.getFamily := of_decide_eq_true sameFamily
  have tags : old.getTag = new.getTag := congrArg ShadowNodeFamily.tag families
  -- The views of both roots are forests that the pass can compare, and the fuel suffices.
  have diffable : Diffable (max old.height new.height) (ofShadowNode old).tag
      (sliceForest (sliceChildShadowNodeViewPairs old))
      (sliceForest (sliceChildShadowNodeViewPairs new)) := by
    rw [sliceForest_slice, sliceForest_slice]
    rw [← tags] at validNew
    exact ⟨validOld, validNew, (viewForest_height old).trans_le (Nat.le_max_left _ _),
      (viewForest_height new).trans_le (Nat.le_max_right _ _)⟩
  have answers : Answers mode.stray (match mode with
      | .classic => calculateShadowViewMutationsClassic (max old.height new.height)
      | .optimizedMoves => calculateShadowViewMutationsOptimizedMoves (max old.height new.height))
      (ofShadowNode old) (sliceChildShadowNodeViewPairs old)
      (sliceChildShadowNodeViewPairs new) := by
    cases mode with
    | classic => exact classic_answers _ _ _ _ diffable
    | optimizedMoves => exact optimizedMoves_answers _ _ _ _ diffable
  obtain ⟨below, belowEq, proper, diff⟩ := answers
  rw [sliceForest_slice, sliceForest_slice] at diff
  -- The root itself is updated first, if it has changed.
  have root : Renders (if ofShadowNode old ≠ ofShadowNode new then
      [updateMutation {} (ofShadowNode old) (ofShadowNode new) (-1)] else [])
      (rootEdits old new) := by
    unfold rootEdits
    split
    · refine ⟨fun mutation member => ?_, rfl⟩
      rw [List.mem_singleton.mp member]
      exact proper_update _ _ _ _ tags.symm
    · exact renders_nil
  refine ⟨_, below.map editOf, ?_, root.append ⟨proper, rfl⟩, diff⟩
  unfold calculateShadowViewMutations
  rw [if_neg (by simpa using sameFamily)]
  cases mode with
  | classic => simp only [belowEq, bind_eq_bind, bind_some, pure_def]
  | optimizedMoves => simp only [belowEq, bind_eq_bind, bind_some, pure_def]

/-- The stub trees of both shadow trees exist, and the mutations lead from one to the other. -/
def MountsTo (old new : ShadowNode D) : Prop :=
  ∃ oldStub newStub mutations result,
    stubViewTreeFromShadowNode reorderInPlaceIfNeeded old = some oldStub ∧
    stubViewTreeFromShadowNode reorderInPlaceIfNeeded new = some newStub ∧
    calculateShadowViewMutations mode old new = some mutations ∧
    oldStub.mutate mutations = some result ∧ result.describe = newStub.describe

theorem rootEdits_represents (tags : old.getTag = new.getTag)
    (distinct : Distinct ShadowView.tag old.getTag (viewForest old))
    {table : Table (ShadowView D) Tag}
    (represents : Represents ShadowView.tag table (ofShadowNode old) (viewForest old)) :
    ∃ updated, KeyedTree.run ShadowView.tag blankShadowView (rootEdits old new) table =
        some updated ∧
      Represents ShadowView.tag updated (ofShadowNode new) (viewForest old) := by
  unfold rootEdits
  split
  · exact represents.relabel blankShadowView distinct tags.symm
  next same =>
    rw [not_not] at same
    exact ⟨table, rfl, same ▸ represents⟩

/-- **What a mode mounts.** Where no surviving view escapes a view that keeps
children, the mutations mount the new tree exactly without strays. -/
theorem mountsTo_iff (sameFamily : old.sameFamily new)
    (validOld : ValidForest old.getTag (viewForest old))
    (validNew : ValidForest new.getTag (viewForest new))
    (noEscape : NoEscape ShadowView.tag (viewForest old) (viewForest new)) :
    MountsTo mode old new ↔ NoStray ShadowView.tag mode.stray (viewForest old) (viewForest new) := by
  have tags : old.getTag = new.getTag :=
    congrArg ShadowNodeFamily.tag (of_decide_eq_true sameFamily)
  have distinctNew : Distinct ShadowView.tag old.getTag (viewForest new) := tags ▸ validNew.distinct
  obtain ⟨mutations, _, calculated, ⟨proper, rendered⟩, diff⟩ :=
    calculateShadowViewMutations_diff mode sameFamily validOld validNew
  obtain ⟨oldStub, oldBuilt, good, showsOld⟩ :=
    stubViewTreeFromShadowNode_represents old validOld.distinct
  obtain ⟨newStub, newBuilt, -, showsNew⟩ :=
    stubViewTreeFromShadowNode_represents new validNew.distinct
  obtain ⟨_, rootRan, shows⟩ := rootEdits_represents tags validOld.distinct showsOld
  have ran := (StubViewTree.mutate_describe proper good).1
  rw [rendered, run_append, rootRan, bind_some] at ran
  have rootKey : ShadowView.tag (ofShadowNode new) = old.getTag := tags.symm
  constructor
  -- Strays make the edits fail on every table that shows the old tree.
  · rintro ⟨_, -, _, result, built, -, listed, mutated, -⟩
    rw [oldBuilt, some.injEq] at built
    rw [calculated, some.injEq] at listed
    rw [← built, ← listed] at mutated
    by_contra strays
    have ready := shows.ready (rootKey ▸ distinctNew)
    rw [rootKey] at ready
    rw [mutated, diff.run_none mode.strayMatched validOld.distinct distinctNew strays ready] at ran
    cases ran
  -- Without strays the edits turn it into one that shows the new tree.
  · intro noStray
    rw [← rootKey] at diff
    have safe : Safe ShadowView.tag mode.stray (ShadowView.tag (ofShadowNode new))
        (viewForest old) (viewForest new) :=
      ⟨rootKey ▸ validOld.distinct, rootKey ▸ distinctNew, noEscape, noStray⟩
    obtain ⟨_, tableRan, final⟩ :=
      @Diff.represents _ _ _ blankShadowView _ _ mode.strayMatched _ _ _ _ diff safe _ shows
    rw [tableRan] at ran
    obtain ⟨result, mutated, rfl⟩ := map_eq_some_iff.mp ran
    exact ⟨oldStub, newStub, mutations, result, oldBuilt, newBuilt, calculated, mutated,
      final.unique showsNew⟩

omit [DecidableEq D] in
theorem noStray_classic (old new : List (KeyedTree.Tree (ShadowView D))) :
    NoStray ShadowView.tag DifferentiatorMode.classic.stray old new := fun _ _ _ => rfl

/-- **The classic differentiator is correct**: without re-parenting its mutations
run without a failed assertion and end in the stub tree of the new tree. -/
theorem classic_mountsTo (sameFamily : old.sameFamily new) (validOld : ValidViews old)
    (validNew : ValidViews new) (still : NoReparenting old new) : MountsTo .classic old new := by
  have tags : old.getTag = new.getTag :=
    congrArg ShadowNodeFamily.tag (of_decide_eq_true sameFamily)
  have noEscape := SameParents.noEscape still validOld.distinct (tags ▸ validNew.distinct)
  exact (mountsTo_iff .classic sameFamily validOld.forest validNew.forest noEscape).mpr
    (noStray_classic _ _)

def viewNode (tag : Tag) (children : List (ShadowNode Unit)) : ShadowNode Unit :=
  ⟨{ address := tag.toNat
     family := ⟨tag.toNat, tag, "View", tag.toNat⟩
     props := 0
     state := none
     orderIndex := 0
     stateRevision := 0
     traits := { formsStackingContext := true, formsView := true }
     layoutMetrics := {} }, children⟩

theorem classic_mountsTo_moved :
    MountsTo .classic (viewNode 1 [viewNode 2 [viewNode 5 []], viewNode 3 []])
      (viewNode 1 [viewNode 3 [], viewNode 4 [], viewNode 2 [viewNode 5 []]]) :=
  classic_mountsTo (by decide) ⟨by decide +kernel, by decide +kernel⟩
    ⟨by decide +kernel, by decide +kernel⟩ (by unfold NoReparenting; decide +kernel)

/-! ### Agreement of the two modes -/

/-- The list has a `Create` mutation for the tag. -/
def Creates (mutations : List (ShadowViewMutation D)) (tag : Tag) : Prop :=
  ∃ mutation ∈ mutations, mutation.type = .create ∧ mutation.newChildShadowView.tag = tag

variable {mutations : List (ShadowViewMutation D)}

omit [DecidableEq D] in
theorem creates_iff_edit {tag : Tag} :
    Creates mutations tag ↔ .create tag ∈ mutations.map editOf := by
  have shape : ∀ mutation : ShadowViewMutation D, editOf mutation = .create tag ↔
      mutation.type = .create ∧ mutation.newChildShadowView.tag = tag := by
    intro mutation
    unfold editOf
    cases type : mutation.type <;> simp
  simp only [Creates, List.mem_map, shape]

theorem creates_iff_fresh (sameFamily : old.sameFamily new) (validOld : ValidViews old)
    (validNew : ValidViews new) (still : NoReparenting old new)
    (noStray : NoStray ShadowView.tag mode.stray (viewForest old) (viewForest new))
    (calculated : calculateShadowViewMutations mode old new = some mutations) (tag : Tag) :
    Creates mutations tag ↔ tag ∈ viewTags new ∧ tag ∉ viewTags old := by
  have tags : old.getTag = new.getTag :=
    congrArg ShadowNodeFamily.tag (of_decide_eq_true sameFamily)
  have distinctNew : Distinct ShadowView.tag old.getTag (viewForest new) := tags ▸ validNew.distinct
  obtain ⟨_, _, listed, ⟨-, rendered⟩, diff⟩ :=
    calculateShadowViewMutations_diff mode sameFamily validOld.forest validNew.forest
  rw [calculated, some.injEq] at listed
  subst listed
  have safe : Safe ShadowView.tag mode.stray old.getTag (viewForest old) (viewForest new) :=
    ⟨validOld.distinct, distinctNew, SameParents.noEscape still validOld.distinct distinctNew,
      noStray⟩
  have notRoot : .create tag ∉ rootEdits old new := by
    unfold rootEdits
    split <;> simp
  rw [creates_iff_edit, rendered, List.mem_append]
  simp only [notRoot, false_or, viewTags, List.mem_cons, not_or]
  constructor
  · intro created
    have inNew := diff.creates_new created
    exact ⟨.inr inNew, distinctNew.ne_root inNew,
      diff.creates_only_fresh mode.strayMatched safe still created⟩
  · rintro ⟨atRoot | inNew, notOldRoot, notOld⟩
    · exact absurd (atRoot.trans tags.symm) notOldRoot
    · exact diff.creates_fresh inNew notOld

/-- Both lists run on the stub tree of the old tree and reach the stub tree of
the new one; the optimized list creates just the tags that only the new tree has. -/
def AgreesWithClassic (old new : ShadowNode D) : Prop :=
  ∃ oldStub newStub classicMutations mutations classicResult result,
    stubViewTreeFromShadowNode reorderInPlaceIfNeeded old = some oldStub ∧
    stubViewTreeFromShadowNode reorderInPlaceIfNeeded new = some newStub ∧
    calculateShadowViewMutations .classic old new = some classicMutations ∧
    calculateShadowViewMutations .optimizedMoves old new = some mutations ∧
    oldStub.mutate classicMutations = some classicResult ∧
    oldStub.mutate mutations = some result ∧
    result.describe = classicResult.describe ∧ result.describe = newStub.describe ∧
    ∀ tag, Creates mutations tag ↔ tag ∈ viewTags new ∧ tag ∉ viewTags old

/-- Where both modes mount the new tree they agree, and conversely. -/
theorem agreesWithClassic_iff (sameFamily : old.sameFamily new) (validOld : ValidViews old)
    (validNew : ValidViews new) (still : NoReparenting old new) :
    AgreesWithClassic old new ↔ NoStrayMoves old new := by
  have tags : old.getTag = new.getTag :=
    congrArg ShadowNodeFamily.tag (of_decide_eq_true sameFamily)
  have noEscape := SameParents.noEscape still validOld.distinct (tags ▸ validNew.distinct)
  have mounts := fun mode => mountsTo_iff mode sameFamily validOld.forest validNew.forest noEscape
  constructor
  · rintro ⟨oldStub, newStub, -, mutations, -, result, oldBuilt, newBuilt, -, calculated, -, mutated,
      -, same, -⟩
    exact (mounts .optimizedMoves).mp
      ⟨oldStub, newStub, mutations, result, oldBuilt, newBuilt, calculated, mutated, same⟩
  · intro noStray
    obtain ⟨oldStub, newStub, mutations, result, oldBuilt, newBuilt, calculated, mutated, same⟩ :=
      (mounts .optimizedMoves).mpr noStray
    obtain ⟨oldStub', newStub', classicMutations, classicResult, oldBuilt', newBuilt',
      classicCalculated, classicMutated, classicSame⟩ :=
      (mounts .classic).mpr (noStray_classic _ _)
    rw [oldBuilt, some.injEq] at oldBuilt'
    rw [newBuilt, some.injEq] at newBuilt'
    subst oldBuilt' newBuilt'
    exact ⟨oldStub, newStub, classicMutations, mutations, classicResult, result, oldBuilt, newBuilt,
      classicCalculated, calculated, classicMutated, mutated, same.trans classicSame.symm, same,
      creates_iff_fresh .optimizedMoves sameFamily validOld validNew still noStray calculated⟩

theorem agreesWithClassic_swapped : AgreesWithClassic (viewNode 1 [viewNode 2 [], viewNode 3 []])
      (viewNode 1 [viewNode 3 [], viewNode 2 [], viewNode 4 []]) := by
  refine (agreesWithClassic_iff (by decide) ⟨by decide +kernel, by decide +kernel⟩
    ⟨by decide +kernel, by decide +kernel⟩ (by unfold NoReparenting; decide +kernel)).mpr ?_
  intro old' new' compared
  cases compared with
  | here => decide +kernel
  | @inside _ _ _ _ _ n _ newMem _ deeper =>
    have childless : ∀ tree ∈ viewForest (viewNode 1 [viewNode 3 [], viewNode 2 [], viewNode 4 []]),
        tree.children = [] := by decide +kernel
    rw [childless n newMem] at deeper
    exact strayMatched_strayMoves.noStray_nil_right _ _ _ deeper

theorem moved_view_created_again : let old := viewNode 1 [viewNode 2 [], viewNode 3 []]
    let new := viewNode 1 [viewNode 3 [], viewNode 4 [], viewNode 2 []]
    old.sameFamily new ∧ ValidViews old ∧ ValidViews new ∧ NoReparenting old new ∧
      ¬ AgreesWithClassic old new := by
  intro old new
  have sameFamily : old.sameFamily new := by decide
  have validOld : ValidViews old := ⟨by decide +kernel, by decide +kernel⟩
  have validNew : ValidViews new := ⟨by decide +kernel, by decide +kernel⟩
  have still : NoReparenting old new := by unfold NoReparenting; decide +kernel
  refine ⟨sameFamily, validOld, validNew, still, ?_⟩
  rintro ⟨oldStub, newStub, -, mutations, -, result, oldBuilt, newBuilt, -, calculated, -, mutated,
    -, same, -⟩
  have noStray := (mountsTo_iff .optimizedMoves sameFamily validOld.forest validNew.forest
    (SameParents.noEscape still validOld.distinct validNew.distinct)).mp
    ⟨oldStub, newStub, mutations, result, oldBuilt, newBuilt, calculated, mutated, same⟩
  have strays : strayMoves [2, 3] [3, 4, 2] = [3] := by decide +kernel
  have none := noStray _ _ (.here _ _)
  have siblings : rootKeys ShadowView.tag (viewForest old) = [2, 3] ∧
      rootKeys ShadowView.tag (viewForest new) = [3, 4, 2] := by decide +kernel
  rw [siblings.1, siblings.2] at none
  exact absurd (strays.symm.trans none) (by decide)

end Modes

end ReactNative

