import ReactNative.Core.LayoutableShadowNode
import ReactNative.Foundation.Trails

/-! A handle is measured by the node that its family has now. Its frame relative to the root is told
by the frames on the trail of that node. -/
namespace ReactNative

open KeyedTree List

variable {D : Type}

theorem exists_isPath_of_trail (node : ShadowNode D) : ∀ trail ∈ forestTrails node.getChildren,
    ∃ path, IsPath node path trail.node ∧ path.map Prod.fst = node :: trail.above := by
  refine Tree.induction (P := fun node : ShadowNode D =>
    ∀ trail ∈ forestTrails node.getChildren,
      ∃ path, IsPath node path trail.node ∧ path.map Prod.fst = node :: trail.above) ?_ node
  intro node ih trail below
  rw [forestTrails_eq] at below
  obtain ⟨child, member, inside⟩ := mem_flatMap.mp below
  obtain ⟨i, there⟩ := mem_iff_getElem?.mp member
  rw [trails_eq, mem_cons, mem_map] at inside
  rcases inside with rfl | ⟨deeper, deeperMem, rfl⟩
  · exact ⟨[(node, i)], ⟨rfl, child, there, rfl⟩, rfl⟩
  · obtain ⟨path, isPath, passed⟩ := ih child member deeper deeperMem
    refine ⟨(node, i) :: path, ⟨rfl, child, there, isPath⟩, ?_⟩
    rw [map_cons, passed, Trail.under_above]

namespace LayoutableShadowNode

section Frames

variable (getTransform : ShadowNode D → Transform) (policy : LayoutInspectingPolicy)

variable (node : ShadowNode D)

def inspectedFrame : Rect :=
  if policy.includeTransform then (getLayoutMetrics node).frame * getTransform node
  else (getLayoutMetrics node).frame

def inspectedSize (size : Size) : Size :=
  if policy.includeTransform then size * getTransform node else size

/-- The frame of the last node on the trail, relative to what the trail begins in. -/
def relativeFrame (trail : Trail (ShadowNodeFields D)) : Rect where
  origin := (trail.nodes.map fun node => (inspectedFrame getTransform policy node).origin).sum
  size := trail.above.foldr (inspectedSize getTransform policy)
    (inspectedFrame getTransform policy trail.node).size

/-- Below the root there are only layoutable nodes, and no other roots. -/
structure InspectedBelow : Prop where
  layoutable : isLayoutable node = true
  notRoot : node.getTraits.rootNodeKind = false

end Frames

variable {getTransform : ShadowNode D → Transform} {policy : LayoutInspectingPolicy}

theorem calculateOffset_frame {layoutMetrics : LayoutMetrics} {ancestors : List (ShadowNode D)}
    (inspected : ∀ node ∈ ancestors, InspectedBelow node) :
    (calculateOffset getTransform policy layoutMetrics ancestors).frame =
      ⟨layoutMetrics.frame.origin +
          (ancestors.map fun node => (inspectedFrame getTransform policy node).origin).sum,
        ancestors.foldl (fun size node => inspectedSize getTransform policy node size)
          layoutMetrics.frame.size⟩ := by
  induction ancestors generalizing layoutMetrics with
  | nil =>
    rw [calculateOffset, map_nil, sum_nil, add_zero]
    rfl
  | cons _ _ ih =>
    obtain ⟨here, above⟩ := forall_mem_cons.mp inspected
    rw [calculateOffset, if_neg (by simp [here.notRoot]), if_neg (by simp [here.layoutable]),
      ih above, map_cons, sum_cons, foldl_cons, ← add_assoc]
    rfl

theorem findNewestChildInParent_eq {parentNode child handle : ShadowNode D}
    (distinct : DistinctFamilies parentNode) (member : child ∈ parentNode.getChildren)
    (same : handle.getFamily = child.getFamily) :
    findNewestChildInParent parentNode handle = some child := by
  obtain ⟨i, there⟩ := mem_iff_getElem?.mp member
  have index := findIdx?_family distinct there
  obtain ⟨inside, -, earlier⟩ := findIdx?_eq_some_iff_getElem.mp index
  obtain ⟨_, isChild⟩ := List.getElem?_eq_some_iff.mp there
  rw [findNewestChildInParent, find?_eq_some_iff_getElem]
  refine ⟨by simp [ShadowNode.sameFamily, same], i, inside, isChild, ?_⟩
  intro j before
  have apart := earlier j before
  simpa [ShadowNode.sameFamily, same] using apart

/-- **Any handle of a family is measured on the trail of its node.** -/
theorem getRelativeLayoutMetrics_frame {parents : FamilyParents} {root handle : ShadowNode D}
    {trail : Trail (ShadowNodeFields D)} (policy : LayoutInspectingPolicy)
    (distinct : DistinctFamilies root) (records : RecordsParents parents root)
    (inspected : ∀ node ∈ forestNodes root.getChildren, InspectedBelow node)
    (below : trail ∈ forestTrails root.getChildren)
    (same : handle.getFamily = ShadowNode.getFamily trail.node) :
    ∃ metrics, getRelativeLayoutMetrics parents getTransform handle root policy = some metrics ∧
      metrics.frame = relativeFrame getTransform policy trail := by
  have onWay := mem_forestNodes_of_trail below
  have hereMem : trail.node ∈ trail.nodes := mem_append_right _ (mem_singleton_self _)
  have here := inspected trail.node (onWay _ hereMem)
  obtain ⟨path, isPath, passed⟩ := exists_isPath_of_trail root trail below
  have nonempty : path ≠ [] := by
    rintro rfl
    cases passed
  have occurs : OccursBelow (ShadowNode.getFamily trail.node) root :=
    (isPath_family isPath).elim (fun stays => absurd stays.1 nonempty) And.right
  -- families differ, so the one of the node is not the root's
  have otherFamily : ¬ShadowNode.sameFamily handle root = true := by
    intro sameAsRoot
    have isRoot : handle.getFamily = root.getFamily := of_decide_eq_true sameAsRoot
    exact Distinct.root_not_mem distinct (isRoot ▸ same ▸ occurs)
  have ancestors : ShadowNodeFamily.getAncestors parents handle.getFamily root = path := by
    rw [same]
    exact getAncestors_eq distinct records isPath
  -- the last ancestor is the parent of the node
  obtain ⟨front, parent, rfl, isFront, there⟩ := exists_last_step isPath nonempty
  have newest := findNewestChildInParent_eq (distinctFamilies_isPath distinct isFront)
    (mem_of_getElem? there) same
  have above : (front ++ [parent]).reverse.dropLast.map Prod.fst = trail.above.reverse := by
    rw [map_dropLast, map_reverse, passed, reverse_cons, dropLast_concat]
  have measured : getRelativeLayoutMetrics parents getTransform handle root policy =
      some (calculateOffsetForLayoutMetrics getTransform
        { getLayoutMetrics trail.node with
          frame := inspectedFrame getTransform policy trail.node }
        (front ++ [parent]) policy) := by
    rw [getRelativeLayoutMetrics, if_neg otherFamily]
    simp only [ancestors, getLast?_concat, newest, here.layoutable, Bool.not_true,
      Bool.false_eq_true, if_false]
    rfl
  refine ⟨_, measured, ?_⟩
  -- the walk goes up, and the trail down
  rw [calculateOffsetForLayoutMetrics, above, calculateOffset_frame]
  · rw [map_reverse, sum_reverse, foldl_reverse, relativeFrame, Trail.nodes,
      map_append, sum_append, map_singleton, sum_singleton, add_comm]
  · intro node nodeMem
    exact inspected node (onWay node (mem_append_left _ (mem_reverse.mp nodeMem)))

end LayoutableShadowNode

def viewFamily (tag : Tag) : ShadowNodeFamily := ⟨tag.toNat, tag, "View", 0⟩

def familiesInRow : FamilyParents where
  parent family := if 1 < family.tag then some (viewFamily (family.tag - 1)) else none
  acyclic := by
    refine Subrelation.wf ?_ (measure fun family : ShadowNodeFamily => family.tag.toNat).wf
    intro above family recorded
    obtain ⟨large, isAbove⟩ := Option.ite_none_right_eq_some.mp recorded
    cases isAbove
    have positive : (1 : ℤ) < family.tag := large
    have smaller : (family.tag - 1).toNat < family.tag.toNat := by omega
    exact smaller

end ReactNative


