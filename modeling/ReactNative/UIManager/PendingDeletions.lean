import ReactNative.UIManager.NativeViewHierarchyManager

/-! The same calls run on a parent with animations and on one without, which has the children that
the shadow tree believes in. -/
namespace ReactNative

open HiddenEntries Runs List

namespace ManageChildren

/-- Each view is added at an index up to the number of children at that time. -/
def AddsInRange : List ViewAtIndex → ℕ → Prop
  | [], _ => True
  | viewAtIndex :: rest, count => viewAtIndex.index ≤ count ∧ AddsInRange rest (count + 1)

def remaining (call : ManageChildren) (believed : NativeParent) : List Tag :=
  believed.children.filter fun view => view ∉ entriesAt call.indicesToRemove believed.children

/-- The call is right for the children that the shadow tree believes in: the indices are
ascending and in range, the deleted views are among those that are removed, and the added ones
exist and are not children, or are removed before. -/
structure WellFormed (call : ManageChildren) (believed : NativeParent) : Prop where
  ascending : call.indicesToRemove.Pairwise (· < ·)
  inRange : ∀ index ∈ call.indicesToRemove, index < believed.children.length
  deleted : call.tagsToDelete ⊆ entriesAt call.indicesToRemove believed.children
  deletedOnce : call.tagsToDelete.Nodup
  known : ∀ view ∈ call.viewsToAdd.map ViewAtIndex.tag,
    view ∈ believed.tagsToViews ∧ view ∉ call.tagsToDelete
  detached : ∀ view ∈ call.viewsToAdd.map ViewAtIndex.tag, view ∉ call.remaining believed
  addedOnce : (call.viewsToAdd.map ViewAtIndex.tag).Nodup
  addsInRange : AddsInRange call.viewsToAdd (call.remaining believed).length

end ManageChildren

/-- A parent, and the same parent if deleted views were removed at once. -/
structure MirroredParent where
  actual : NativeParent
  believed : NativeParent

inductive NativeParentEvent where
  | createView (view : Tag)
  | manageChildren (animator : LayoutAnimator) (outOfSight : Finset Tag) (call : ManageChildren)
  | animationEnd (view : Tag)
  | updateClippingRect (outOfSight : Finset Tag)

/-- A layout animation would delete the view. -/
def NativeParent.isAnimated (parent : NativeParent) (animator : LayoutAnimator) (view : Tag) :
    Bool :=
  shouldAnimateLayout animator parent.clipped parent.children view

def NativeParent.createView (parent : NativeParent) (view : Tag) : NativeParent :=
  { parent with tagsToViews := insert view parent.tagsToViews }

namespace MirroredParent

variable (parents : MirroredParent)

/-- No next state if a call throws, or if there is no animation that could end. -/
def step : NativeParentEvent → Option MirroredParent
  | .createView view => some ⟨parents.actual.createView view, parents.believed.createView view⟩
  | .manageChildren animator outOfSight call =>
    match parents.actual.manageChildren animator outOfSight call,
        parents.believed.manageChildren {} outOfSight call with
    | .ok actual, .ok believed => some ⟨actual, believed⟩
    | _, _ => none
  | .animationEnd view =>
    if view ∈ parents.actual.pendingDeletionTags then
      some { parents with actual := parents.actual.onAnimationEnd view }
    else none
  | .updateClippingRect outOfSight =>
    some { parents with actual := parents.actual.updateClippingRect outOfSight }

/-- Tags are new, calls are right for the shadow tree, and what ends has begun. -/
def WellFormed (parents : MirroredParent) : NativeParentEvent → Prop
  | .createView view =>
    view ∉ parents.actual.tagsToViews ∧ view ∉ parents.actual.pendingDeletionTags
  | .manageChildren _ _ call => call.WellFormed parents.believed
  | .animationEnd view => view ∈ parents.actual.pendingDeletionTags
  | .updateClippingRect _ => True

/-- The views at the indices to remove are the same among all children as among those that are
not about to be deleted, views aside that are about to be deleted, or that the call deletes
with an animation. -/
def RemovesMeant : NativeParentEvent → Prop
  | .manageChildren animator _ call =>
    ∀ view ∈ parents.actual.liveChildren,
      ¬ (parents.actual.isAnimated animator view ∧ view ∈ call.tagsToDelete) →
      (view ∈ entriesAt call.indicesToRemove parents.actual.children ↔
        view ∈ entriesAt call.indicesToRemove parents.actual.liveChildren)
  | _ => True

/-- Each view comes behind attached children only; added views that are out of sight are clipped. -/
def AddsBehindAttached (outOfSight : Finset Tag) :
    List ViewAtIndex → Finset Tag → List Tag → Prop
  | [], _, _ => True
  | viewAtIndex :: rest, clipped, children =>
    (∀ view ∈ children.take viewAtIndex.index, view ∉ clipped) ∧
      AddsBehindAttached outOfSight rest
        (if viewAtIndex.tag ∈ outOfSight then insert viewAtIndex.tag clipped
        else clipped.erase viewAtIndex.tag)
        (children.insertIdx viewAtIndex.index viewAtIndex.tag)

instance decidableAddsBehindAttached (outOfSight : Finset Tag) :
    ∀ viewsToAdd clipped children,
      Decidable (AddsBehindAttached outOfSight viewsToAdd clipped children)
  | [], _, _ => .isTrue trivial
  | _ :: rest, _, _ =>
    have := decidableAddsBehindAttached outOfSight rest
    inferInstanceAs (Decidable (_ ∧ _))

/-- If a deletion is pending when views are added, no clipped child stands in front of them, and no
child that is about to be deleted is clipped. -/
def AddsMeant : NativeParentEvent → Prop
  | .manageChildren animator outOfSight call =>
    (parents.actual.pendingDeletionTags = ∅ ∧
      (animator.hasDeleteAnimation = true →
        ∀ view ∈ call.tagsToDelete, ¬ parents.actual.isAnimated animator view)) ∨
    ((∀ view ∈ parents.actual.children,
        view ∈ parents.actual.pendingDeletionTags ∨
          (parents.actual.isAnimated animator view ∧ view ∈ call.tagsToDelete) →
        view ∉ parents.actual.clipped) ∧
      AddsBehindAttached (parents.actual.toClip outOfSight) call.viewsToAdd parents.actual.clipped
        (call.remaining parents.believed))
  | _ => True

instance (parents : MirroredParent) (event : NativeParentEvent) :
    Decidable (RemovesMeant parents event) :=
  match event with
  | .manageChildren _ _ _ => inferInstanceAs (Decidable (∀ view ∈ _, _ → (_ ↔ _)))
  | .createView _ | .animationEnd _ | .updateClippingRect _ => .isTrue trivial

instance (parents : MirroredParent) (event : NativeParentEvent) :
    Decidable (AddsMeant parents event) :=
  match event with
  | .manageChildren _ _ _ => inferInstanceAs (Decidable (_ ∨ _))
  | .createView _ | .animationEnd _ | .updateClippingRect _ => .isTrue trivial

end MirroredParent

namespace NativeParent

/-! ### Removal -/

variable (animator : LayoutAnimator) (clipped : Finset Tag)

def animates (view : Tag) : Bool :=
  animator.layoutAnimationEnabled &&
    ((animator.shouldAnimateLayout && view ∉ clipped) || animator.layoutHandlers.contains view)

variable {children : List Tag} {view : Tag}

theorem shouldAnimateLayout_of_mem {animator : LayoutAnimator} (member : view ∈ children) :
    shouldAnimateLayout animator clipped children view = animates animator clipped view := by
  simp [shouldAnimateLayout, animates, member]

theorem shouldAnimateLayout_of_not_animates {animator : LayoutAnimator} {clipped : Finset Tag}
    (still : animates animator clipped view = false) (children : List Tag) :
    shouldAnimateLayout animator clipped children view = false := by
  simp only [animates, shouldAnimateLayout, Bool.and_eq_false_iff, Bool.or_eq_false_iff]
    at still ⊢
  rcases still with off | ⟨noLayout | isClipped, noHandler⟩
  · exact .inl off
  · exact .inr ⟨.inl (.inl noLayout), noHandler⟩
  · exact .inr ⟨.inr isClipped, noHandler⟩

@[simp] theorem animates_default (view : Tag) : animates {} clipped view = false := rfl

theorem removeViews_eq (isRoot : Bool) (tagsToDelete : List Tag) {indices : List ℕ}
    (descending : indices.Pairwise (· > ·)) {last : ℕ}
    (inRange : ∀ index ∈ indices, index < children.length)
    (below : ∀ index ∈ indices, index < last) :
    removeViews animator clipped isRoot tagsToDelete indices last children =
      .ok (some (removeAt (fun view => animates animator clipped view && tagsToDelete.contains view)
        indices children)) := by
  induction indices generalizing last children with
  | nil => rfl
  | cons index _ ih =>
    obtain ⟨smaller, descendingRest⟩ := pairwise_cons.mp descending
    obtain ⟨view, found⟩ : ∃ view, children[index]? = some view :=
      ⟨_, getElem?_eq_getElem (inRange index mem_cons_self)⟩
    have notLast : ¬ last ≤ index := Nat.not_le.mpr (below index mem_cons_self)
    have member : view ∈ children := mem_of_getElem? found
    rw [removeViews, removeAt, found]
    dsimp only
    rw [if_neg notLast, shouldAnimateLayout_of_mem clipped member]
    by_cases keep : animates animator clipped view = true ∧ view ∈ tagsToDelete
    · rw [if_pos keep, if_pos (by simpa using keep)]
      apply ih descendingRest _ smaller
      intro other later
      exact inRange other (mem_cons_of_mem index later)
    · rw [if_neg keep, if_neg (by simpa using keep)]
      apply ih descendingRest _ smaller
      -- What is still to be removed stands before the view that is removed here.
      intro other later
      have before := smaller other later
      have bound := inRange index mem_cons_self
      rw [length_eraseIdx_of_lt bound]
      omega

theorem removeViews_spec (isRoot : Bool) (tagsToDelete : List Tag) {indices : List ℕ}
    (ascending : indices.Pairwise (· < ·)) (nodup : children.Nodup)
    (inRange : ∀ index ∈ indices, index < children.length) :
    removeViews animator clipped isRoot tagsToDelete indices.reverse children.length children =
      .ok (some (children.filter fun view =>
        (animates animator clipped view && tagsToDelete.contains view) ||
          view ∉ entriesAt indices children)) := by
  have descending : indices.reverse.Pairwise (· > ·) := pairwise_reverse.mpr ascending
  have inRangeReverse : ∀ index ∈ indices.reverse, index < children.length :=
    fun index member => inRange index (mem_reverse.mp member)
  rw [removeViews_eq animator clipped isRoot tagsToDelete descending inRangeReverse inRangeReverse,
    removeAt_eq_filter nodup descending]
  simp [entriesAt]

/-! ### Deletion -/

/-- What a loop of deletions leaves: an animated view is not live any more, and nothing changes
for views that are not deleted. -/
structure Deleted (tags : List Tag) (parent deleted : NativeParent) : Prop where
  live : deleted.liveChildren =
    parent.liveChildren.filter fun view => !(animates animator clipped view && tags.contains view)
  nodup : deleted.children.Nodup
  children : ∀ view ∉ tags, view ∈ parent.children → view ∈ deleted.children
  views : ∀ view ∉ tags, view ∈ parent.tagsToViews → view ∈ deleted.tagsToViews
  oldViews : deleted.tagsToViews ⊆ parent.tagsToViews
  dropped : ∀ view ∈ tags, animates animator clipped view = false → view ∉ deleted.tagsToViews
  pending : ∀ view ∈ deleted.pendingDeletionTags, view ∈ parent.pendingDeletionTags ∨
    (view ∈ tags ∧ animates animator clipped view = true ∧ animator.hasDeleteAnimation = true)
  oldChildren : deleted.children ⊆ parent.children
  sameClipped : deleted.clipped = parent.clipped
  sameClipping : deleted.removeClippedSubviews = parent.removeClippedSubviews

structure Deletable (tags : List Tag) (parent : NativeParent) : Prop where
  nodup : parent.children.Nodup
  once : tags.Nodup
  known : ∀ view ∈ tags, view ∈ parent.tagsToViews
  notPending : ∀ view ∈ tags, view ∉ parent.pendingDeletionTags
  children : ∀ view ∈ tags, animates animator clipped view = true → view ∈ parent.children
  isClipped : parent.clipped = clipped

variable {parent : NativeParent}

theorem mem_liveChildren :
    view ∈ parent.liveChildren ↔ view ∈ parent.children ∧ view ∉ parent.pendingDeletionTags := by
  rw [liveChildren, mem_visible, decide_eq_false_iff_not]

theorem liveChildren_of_no_pending (none : parent.pendingDeletionTags = ∅) :
    parent.liveChildren = parent.children := by
  apply visible_of_none
  simp [none]

theorem live_pending (parent : NativeParent) (view : Tag) :
    liveChildren { parent with pendingDeletionTags := insert view parent.pendingDeletionTags } =
      parent.liveChildren.filter fun other => other ≠ view := by
  unfold liveChildren visible
  rw [filter_filter]
  apply filter_congr
  intro other _
  by_cases same : other = view <;> simp [same]

theorem live_onAnimationEnd (parent : NativeParent) (nodup : parent.children.Nodup) (view : Tag)
    (pending : view ∈ parent.pendingDeletionTags) :
    (parent.onAnimationEnd view).liveChildren = parent.liveChildren := by
  unfold liveChildren visible onAnimationEnd
  rw [nodup.erase_eq_filter, filter_filter]
  apply filter_congr
  intro other _
  by_cases same : other = view
  · subst same
    simp [pending]
  · simp [same]

variable {tag : Tag} {next : NativeParent} {clipped : Finset Tag}

theorem Deleted.trans {animator : LayoutAnimator} {rest : List Tag} {deleted : NativeParent}
    (first : Deleted animator clipped [tag] parent next) (second : Deleted animator clipped rest next deleted) :
    Deleted animator clipped (tag :: rest) parent deleted where
  live := by
    rw [second.live, first.live, filter_filter]
    apply filter_congr
    intro view _
    by_cases same : view = tag <;> cases animates animator clipped view <;> simp [same]
  nodup := second.nodup
  children view other member := by
    rw [mem_cons, not_or] at other
    obtain ⟨notTag, notRest⟩ := other
    exact second.children view notRest (first.children view (by simpa using notTag) member)
  views view other member := by
    rw [mem_cons, not_or] at other
    obtain ⟨notTag, notRest⟩ := other
    exact second.views view notRest (first.views view (by simpa using notTag) member)
  oldViews := second.oldViews.trans first.oldViews
  dropped view member still := by
    intro known
    rcases mem_cons.mp member with rfl | later
    · exact first.dropped view mem_cons_self still (second.oldViews known)
    · exact second.dropped view later still known
  pending view member := by
    rcases second.pending view member with old | ⟨later, animated⟩
    · rcases first.pending view old with older | ⟨isTag, animated⟩
      · exact .inl older
      · exact .inr ⟨mem_cons.mpr (.inl (mem_singleton.mp isTag)), animated⟩
    · exact .inr ⟨mem_cons_of_mem tag later, animated⟩
  oldChildren := List.Subset.trans second.oldChildren first.oldChildren
  sameClipped := second.sameClipped.trans first.sameClipped
  sameClipping := second.sameClipping.trans first.sameClipping

theorem Deletable.rest {animator : LayoutAnimator} {rest : List Tag}
    (deletable : Deletable animator clipped (tag :: rest) parent)
    (first : Deleted animator clipped [tag] parent next) : Deletable animator clipped rest next := by
  obtain ⟨notRest, once⟩ := nodup_cons.mp deletable.once
  have other : ∀ view ∈ rest, view ∉ [tag] := by
    intro view member isTag
    obtain rfl := mem_singleton.mp isTag
    exact notRest member
  constructor
  · exact first.nodup
  · exact once
  · intro view member
    exact first.views view (other view member)
      (deletable.known view (mem_cons_of_mem tag member))
  · intro view member pending
    rcases first.pending view pending with old | ⟨isTag, -⟩
    · exact deletable.notPending view (mem_cons_of_mem tag member) old
    · exact other view member isTag
  · intro view member animated
    exact first.children view (other view member)
      (deletable.children view (mem_cons_of_mem tag member) animated)
  · exact first.sameClipped.trans deletable.isClipped

theorem deleteViews_cons {animator : LayoutAnimator} {rest : List Tag}
    (deletable : Deletable animator clipped (tag :: rest) parent) :
    ∃ next, deleteViews animator (tag :: rest) parent = deleteViews animator rest next ∧
      Deleted animator clipped [tag] parent next := by
  have known := deletable.known tag mem_cons_self
  have nodup := deletable.nodup
  rw [deleteViews, if_neg (not_not.mpr known)]
  -- An animated view goes only when its animation ends; any other one at once.
  cases animated : animates animator clipped tag with
  | true =>
    have member := deletable.children tag mem_cons_self animated
    rw [if_pos (by rw [deletable.isClipped, shouldAnimateLayout_of_mem clipped member, animated])]
    have live := live_pending parent tag
    have isFilter : (fun view => decide (view ≠ tag)) =
        fun view => !(animates animator clipped view && [tag].contains view) := by
      funext view
      by_cases same : view = tag <;> simp [same, animated]
    split
    next hasDelete =>
      -- The view waits for its animation.
      refine ⟨_, rfl, ?_⟩
      constructor
      · rw [live, isFilter]
      · exact nodup
      · exact fun _ _ child => child
      · exact fun _ _ isKnown => isKnown
      · exact Finset.Subset.refl _
      · intro view isTag still
        rw [mem_singleton.mp isTag, animated] at still
        cases still
      · intro view pending
        rcases Finset.mem_insert.mp pending with rfl | old
        · exact .inr ⟨mem_cons_self, animated, hasDelete⟩
        · exact .inl old
      · exact List.Subset.refl _
      · rfl
      · rfl
    next =>
      -- The animation ends when it starts.
      refine ⟨_, rfl, ?_⟩
      constructor
      · rw [live_onAnimationEnd
          { parent with pendingDeletionTags := insert tag parent.pendingDeletionTags } nodup tag
          (Finset.mem_insert_self tag _), live, isFilter]
      · exact nodup.erase tag
      · intro view other child
        exact (mem_erase_of_ne (by simpa using other)).mpr child
      · intro view other isKnown
        exact Finset.mem_erase.mpr ⟨by simpa using other, isKnown⟩
      · exact Finset.erase_subset tag _
      · intro view isTag still
        rw [mem_singleton.mp isTag, animated] at still
        cases still
      · intro view pending
        obtain ⟨notTag, inserted⟩ := Finset.mem_erase.mp pending
        exact .inl (Finset.mem_of_mem_insert_of_ne inserted notTag)
      · exact erase_subset
      · rfl
      · rfl
  | false =>
    rw [if_neg (by
      rw [deletable.isClipped, shouldAnimateLayout_of_not_animates animated]
      exact Bool.false_ne_true)]
    refine ⟨_, rfl, ?_⟩
    constructor
    · change parent.liveChildren = _
      symm
      rw [filter_eq_self]
      intro view _
      by_cases same : view = tag <;> simp [same, animated]
    · exact nodup
    · exact fun _ _ child => child
    · intro view other isKnown
      exact Finset.mem_erase.mpr ⟨by simpa using other, isKnown⟩
    · exact Finset.erase_subset tag _
    · intro view isTag _
      rw [mem_singleton.mp isTag]
      exact Finset.notMem_erase tag _
    · exact fun _ pending => .inl pending
    · exact List.Subset.refl _
    · rfl
    · rfl

theorem deleteViews_spec {animator : LayoutAnimator} {tags : List Tag}
    (deletable : Deletable animator clipped tags parent) :
    ∃ deleted, deleteViews animator tags parent = .ok deleted ∧
      Deleted animator clipped tags parent deleted := by
  induction tags generalizing parent with
  | nil =>
    refine ⟨parent, rfl, ?_, deletable.nodup, fun _ _ child => child, fun _ _ known => known,
      Finset.Subset.refl _, ?_, fun _ pending => .inl pending, List.Subset.refl _, rfl, rfl⟩
    · simp
    · nofun
  | cons _ rest ih =>
    obtain ⟨_, first, deletedFirst⟩ := deleteViews_cons deletable
    obtain ⟨deleted, ran, deletedRest⟩ := ih (deletable.rest deletedFirst)
    exact ⟨deleted, first.trans ran, deletedFirst.trans deletedRest⟩

theorem normalizedIndex_eq (pendingDeletionTags : Finset Tag) (index : ℕ) {counter : ℕ}
    (bound : counter ≤ index) (children : List Tag) :
    normalizedIndex pendingDeletionTags index counter children =
      position (fun view => decide (view ∈ pendingDeletionTags)) (index - counter) children := by
  induction children generalizing counter with
  | nil => cases index - counter <;> rfl
  | cons view _ ih =>
    rw [normalizedIndex]
    by_cases found : counter = index
    · rw [if_pos found, found, Nat.sub_self, position]
    · rw [if_neg found]
      obtain ⟨more, isMore⟩ : ∃ more, index - counter = more + 1 :=
        Nat.exists_eq_add_one.mpr (by omega)
      rw [isMore, position]
      by_cases pending : view ∈ pendingDeletionTags
      · rw [if_neg (not_not.mpr pending), if_pos (decide_eq_true pending), ih bound, isMore]
      · rw [if_pos pending, if_neg (by simpa using pending), ih (by omega)]
        congr 2
        omega

/-- Nothing is about to be deleted, or what stands in front of the index is attached. -/
def AttachedTo (parent : NativeParent) (index : ℕ) : Prop :=
  parent.pendingDeletionTags = ∅ ∨
    ∀ view ∈ parent.children.take
      (position (fun view => decide (view ∈ parent.pendingDeletionTags)) index parent.children),
      view ∉ parent.clipped

theorem addView_spec {index : ℕ} {outOfSight : Finset Tag}
    (notPending : view ∉ parent.pendingDeletionTags)
    (notChild : view ∉ parent.children) (inRange : index ≤ parent.liveChildren.length)
    (attached : parent.AttachedTo index) :
    ∃ added, parent.addView view outOfSight (parent.indexToAdd index) = .ok added ∧
      added.liveChildren = parent.liveChildren.insertIdx index view ∧
      added = { parent with
        children := added.children
        clipped :=
          if view ∈ parent.toClip outOfSight then insert view parent.clipped
          else parent.clipped.erase view } ∧
      added.children.Perm (view :: parent.children) := by
  have isPosition : parent.indexToAdd index =
      position (fun view => decide (view ∈ parent.pendingDeletionTags)) index parent.children := by
    unfold indexToAdd
    split
    next none =>
      rw [liveChildren_of_no_pending none] at inRange
      exact (position_of_none (by simp [none]) inRange).symm
    next some =>
      rw [normalizedIndex_eq parent.pendingDeletionTags index (Nat.zero_le index)]
      apply position_filter inRange
      intro view front
      exact decide_eq_true ((attached.resolve_left some) view front)
  have bound : parent.indexToAdd index ≤ parent.children.length := by
    rw [isPosition]
    exact position_le index parent.children
  rw [addView, if_neg fun both => notChild both.1, if_neg (Nat.not_lt.mpr bound)]
  refine ⟨_, rfl, ?_, rfl, perm_insertIdx view parent.children bound⟩
  rw [isPosition]
  apply visible_insertIdx_position _ index parent.children inRange
  exact decide_eq_false notPending

/-! ### Both parents -/

/-- The parents have the same children, apart from those that are about to be deleted, and what
the shadow tree knows exists. -/
structure Mirrors (actual believed : NativeParent) : Prop where
  nodup : actual.children.Nodup
  same : actual.liveChildren = believed.children
  noPending : believed.pendingDeletionTags = ∅
  views : ∀ view ∈ believed.tagsToViews,
    view ∈ actual.tagsToViews ∧ view ∉ actual.pendingDeletionTags
  registered : ∀ view ∈ believed.children, view ∈ believed.tagsToViews

variable {actual believed : NativeParent}

theorem Mirrors.believed_nodup (mirrors : Mirrors actual believed) : believed.children.Nodup := by
  rw [← mirrors.same]
  exact mirrors.nodup.filter _

theorem Mirrors.not_mem (mirrors : Mirrors actual believed) (known : view ∈ believed.tagsToViews)
    (notChild : view ∉ believed.children) : view ∉ actual.children := by
  intro child
  rw [← mirrors.same] at notChild
  exact notChild (mem_liveChildren.mpr ⟨child, (mirrors.views view known).2⟩)

theorem Mirrors.addView (mirrors : Mirrors actual believed) {index : ℕ} {outOfSight : Finset Tag}
    (known : view ∈ believed.tagsToViews) (notChild : view ∉ believed.children)
    (inRange : index ≤ believed.children.length) (attached : actual.AttachedTo index) :
    ∃ actual' believed', actual.addView view outOfSight (actual.indexToAdd index) = .ok actual' ∧
      believed.addView view outOfSight (believed.indexToAdd index) = .ok believed' ∧
      Mirrors actual' believed' ∧ believed'.tagsToViews = believed.tagsToViews ∧
      believed'.children = believed.children.insertIdx index view ∧
      actual'.children.Perm (view :: actual.children) ∧
      actual' = { actual with
        children := actual'.children
        clipped :=
          if view ∈ actual.toClip outOfSight then insert view actual.clipped
          else actual.clipped.erase view } := by
  -- Nothing waits to be deleted, so that the live children are all children.
  have live := liveChildren_of_no_pending mirrors.noPending
  have notActual := mirrors.not_mem known notChild
  have inRangeActual : index ≤ actual.liveChildren.length := by
    rw [mirrors.same]
    exact inRange
  have inRangeBelieved : index ≤ believed.liveChildren.length := by
    rw [live]
    exact inRange
  have notPending : view ∉ believed.pendingDeletionTags := by
    rw [mirrors.noPending]
    exact Finset.notMem_empty view
  -- Both sides add the view at the index they count for themselves.
  obtain ⟨actual', added, liveActual, sameActual, permActual⟩ :=
    @addView_spec _ _ _ outOfSight (mirrors.views view known).2 notActual inRangeActual attached
  obtain ⟨believed', addedBelieved, liveBelieved, sameBelieved, permBelieved⟩ :=
    @addView_spec _ _ _ outOfSight notPending notChild inRangeBelieved (.inl mirrors.noPending)
  have noPending : believed'.pendingDeletionTags = ∅ := by
    rw [sameBelieved]
    exact mirrors.noPending
  have sameViews : believed'.tagsToViews = believed.tagsToViews := by rw [sameBelieved]
  have children : believed'.children = believed.children.insertIdx index view := by
    rw [← liveChildren_of_no_pending noPending, liveBelieved, live]
  refine ⟨actual', believed', added, addedBelieved, ⟨?_, ?_, noPending, ?_, ?_⟩, sameViews,
    children, permActual, sameActual⟩
  · exact permActual.nodup_iff.mpr (nodup_cons.mpr ⟨notActual, mirrors.nodup⟩)
  · rw [liveActual, children, mirrors.same]
  · rw [sameViews, sameActual]
    exact mirrors.views
  · rw [sameViews]
    intro other child
    rcases mem_cons.mp (permBelieved.mem_iff.mp child) with rfl | old
    · exact known
    · exact mirrors.registered other old

/-- No child that is about to be deleted is clipped, and each view comes behind attached ones. -/
def AddsAttached (parent : NativeParent) (outOfSight : Finset Tag) (viewsToAdd : List ViewAtIndex)
    (believedChildren : List Tag) : Prop :=
  parent.pendingDeletionTags = ∅ ∨
    ((∀ view ∈ parent.children, view ∈ parent.pendingDeletionTags → view ∉ parent.clipped) ∧
      MirroredParent.AddsBehindAttached (parent.toClip outOfSight) viewsToAdd parent.clipped
        believedChildren)

theorem AddsAttached.front {outOfSight : Finset Tag} {viewAtIndex : ViewAtIndex}
    {rest : List ViewAtIndex} (attached : actual.AddsAttached outOfSight (viewAtIndex :: rest)
      actual.liveChildren) : actual.AttachedTo viewAtIndex.index := by
  refine attached.imp_right ?_
  rintro ⟨pendingAttached, front, -⟩ view member
  rcases mem_take_position member with pending | live
  · exact pendingAttached view (mem_of_mem_take member) (of_decide_eq_true pending)
  · exact front view live

/-- What is added next is behind attached children too. -/
theorem AddsAttached.rest {outOfSight : Finset Tag} {viewAtIndex : ViewAtIndex}
    {rest : List ViewAtIndex} {children : List Tag} {added : NativeParent}
    (attached : actual.AddsAttached outOfSight (viewAtIndex :: rest) children)
    (notPending : viewAtIndex.tag ∉ actual.pendingDeletionTags)
    (perm : added.children.Perm (viewAtIndex.tag :: actual.children))
    (same : added = { actual with
      children := added.children
      clipped :=
        if viewAtIndex.tag ∈ actual.toClip outOfSight then insert viewAtIndex.tag actual.clipped
        else actual.clipped.erase viewAtIndex.tag }) :
    added.AddsAttached outOfSight rest (children.insertIdx viewAtIndex.index viewAtIndex.tag) := by
  have pendingSame : added.pendingDeletionTags = actual.pendingDeletionTags := by rw [same]
  have toClipSame : added.toClip outOfSight = actual.toClip outOfSight := by
    rw [same]
    rfl
  have clipped : added.clipped = if viewAtIndex.tag ∈ actual.toClip outOfSight then
      insert viewAtIndex.tag actual.clipped else actual.clipped.erase viewAtIndex.tag := by
    rw [same]
  rw [AddsAttached, pendingSame, toClipSame, clipped]
  refine attached.imp_right ?_
  rintro ⟨pendingAttached, -, behind⟩
  refine ⟨?_, behind⟩
  intro view child pending
  have differs : view ≠ viewAtIndex.tag := fun isAdded => notPending (isAdded ▸ pending)
  have old : view ∈ actual.children := by
    rcases mem_cons.mp (perm.mem_iff.mp child) with isAdded | old
    · exact absurd isAdded differs
    · exact old
  have notClipped := pendingAttached view old pending
  split
  · exact fun isClipped => notClipped (Finset.mem_of_mem_insert_of_ne isClipped differs)
  · exact fun isClipped => notClipped (Finset.mem_of_mem_erase isClipped)

theorem Mirrors.addViews {viewsToAdd : List ViewAtIndex} {outOfSight : Finset Tag}
    (mirrors : Mirrors actual believed)
    (known : ∀ view ∈ viewsToAdd.map ViewAtIndex.tag, view ∈ believed.tagsToViews)
    (detached : ∀ view ∈ viewsToAdd.map ViewAtIndex.tag, view ∉ believed.children)
    (once : (viewsToAdd.map ViewAtIndex.tag).Nodup)
    (inRange : ManageChildren.AddsInRange viewsToAdd believed.children.length)
    (attached : actual.AddsAttached outOfSight viewsToAdd believed.children) :
    ∃ actual' believed', NativeParent.addViews outOfSight viewsToAdd actual = .ok actual' ∧
      NativeParent.addViews outOfSight viewsToAdd believed = .ok believed' ∧
      Mirrors actual' believed' := by
  induction viewsToAdd generalizing actual believed with
  | nil => exact ⟨actual, believed, rfl, rfl, mirrors⟩
  | cons viewAtIndex rest ih =>
    have knownFirst := known viewAtIndex.tag mem_cons_self
    obtain ⟨notRest, onceRest⟩ := nodup_cons.mp once
    have front : actual.AttachedTo viewAtIndex.index := by
      rw [← mirrors.same] at attached
      exact attached.front
    obtain ⟨actual₁, believed₁, added, addedBelieved, mirrors₁, sameViews, children, perm, same⟩ :=
      @Mirrors.addView _ _ _ mirrors _ outOfSight knownFirst
        (detached viewAtIndex.tag mem_cons_self) inRange.1 front
    have knownRest : ∀ view ∈ rest.map ViewAtIndex.tag, view ∈ believed₁.tagsToViews := by
      intro view member
      rw [sameViews]
      exact known view (mem_cons_of_mem _ member)
    have detachedRest : ∀ view ∈ rest.map ViewAtIndex.tag, view ∉ believed₁.children := by
      intro view member child
      rw [children] at child
      rcases eq_or_mem_of_mem_insertIdx child with rfl | old
      · exact notRest member
      · exact detached view (mem_cons_of_mem _ member) old
    have inRangeRest : ManageChildren.AddsInRange rest believed₁.children.length := by
      rw [children, length_insertIdx_of_le_length inRange.1]
      exact inRange.2
    have attachedRest := AddsAttached.rest attached (mirrors.views _ knownFirst).2 perm same
    rw [← children] at attachedRest
    obtain ⟨actual', believed', ran, ranBelieved, mirrors'⟩ :=
      ih mirrors₁ knownRest detachedRest onceRest inRangeRest attachedRest
    refine ⟨actual', believed', ?_, ?_, mirrors'⟩
    · rw [NativeParent.addViews, if_neg (not_not.mpr (mirrors.views _ knownFirst).1), added]
      exact ran
    · rw [NativeParent.addViews, if_neg (not_not.mpr knownFirst), addedBelieved]
      exact ranBelieved

section

variable {tags : List Tag} {deleted : NativeParent} {clipped : Finset Tag}
  (isDeleted : Deleted {} clipped tags parent deleted)
  (none : parent.pendingDeletionTags = ∅)
include isDeleted none

theorem Deleted.no_pending : deleted.pendingDeletionTags = ∅ := by
  apply Finset.eq_empty_of_forall_notMem
  intro view pending
  rcases isDeleted.pending view pending with old | ⟨-, animated⟩
  · rw [none] at old
    exact Finset.notMem_empty view old
  · cases animated.1

theorem Deleted.children_eq : deleted.children = parent.children := by
  rw [← liveChildren_of_no_pending (isDeleted.no_pending none), isDeleted.live,
    liveChildren_of_no_pending none]
  simp

end

section

variable (mirrors : Mirrors actual believed) {animator : LayoutAnimator}
  {outOfSight : Finset Tag} {call : ManageChildren} (wellFormed : call.WellFormed believed)
  (meant : MirroredParent.RemovesMeant ⟨actual, believed⟩ (.manageChildren animator outOfSight call))
include mirrors wellFormed meant

theorem Mirrors.deleted {deleted deletedBelieved : NativeParent}
    (isDeleted : Deleted animator actual.clipped call.tagsToDelete
      { actual with
        children := actual.children.filter fun view =>
          (animates animator actual.clipped view && call.tagsToDelete.contains view) ||
            view ∉ entriesAt call.indicesToRemove actual.children } deleted)
    (isDeletedBelieved : Deleted {} believed.clipped call.tagsToDelete
      { believed with children := call.remaining believed } deletedBelieved) :
    Mirrors deleted deletedBelieved := by
  have remaining : deletedBelieved.children = call.remaining believed :=
    isDeletedBelieved.children_eq mirrors.noPending
  constructor
  · exact isDeleted.nodup
  · rw [remaining, isDeleted.live, ManageChildren.remaining, ← mirrors.same]
    unfold liveChildren visible
    rw [filter_filter, filter_filter, filter_filter]
    apply filter_congr
    intro view child
    by_cases pending : view ∈ actual.pendingDeletionTags
    · simp [pending]
    · have live : view ∈ actual.liveChildren := mem_liveChildren.mpr ⟨child, pending⟩
      -- A view that is kept for its animation is one that the call means to remove.
      by_cases keep : animates animator actual.clipped view = true ∧ view ∈ call.tagsToDelete
      · have removed := wellFormed.deleted keep.2
        rw [← mirrors.same] at removed
        unfold liveChildren visible at removed
        simp [keep, removed]
      · have same := meant view live (by
          rwa [isAnimated, shouldAnimateLayout_of_mem actual.clipped child])
        unfold liveChildren visible at same
        have notKept : (animates animator actual.clipped view && call.tagsToDelete.contains view) = false := by
          simpa using keep
        simp only [notKept]
        simp [pending, same]
  · exact isDeletedBelieved.no_pending mirrors.noPending
  · intro view known
    have old : view ∈ believed.tagsToViews := isDeletedBelieved.oldViews known
    have notDeleted : view ∉ call.tagsToDelete := fun member =>
      isDeletedBelieved.dropped view member rfl known
    refine ⟨isDeleted.views view notDeleted (mirrors.views view old).1, ?_⟩
    intro pending
    rcases isDeleted.pending view pending with older | ⟨member, -⟩
    · exact (mirrors.views view old).2 older
    · exact notDeleted member
  · rw [remaining]
    intro view member
    obtain ⟨child, stays⟩ := mem_filter.mp member
    have notDeleted : view ∉ call.tagsToDelete := fun deleted =>
      of_decide_eq_true stays (wellFormed.deleted deleted)
    exact isDeletedBelieved.views view notDeleted (mirrors.registered view child)

omit meant in
/-- What the call asks for in front of the views to add holds when they are added. -/
theorem Mirrors.addsAttached {deleted : NativeParent}
    (isDeleted : Deleted animator actual.clipped call.tagsToDelete
      { actual with
        children := actual.children.filter fun view =>
          (animates animator actual.clipped view && call.tagsToDelete.contains view) ||
            view ∉ entriesAt call.indicesToRemove actual.children } deleted)
    (adds : MirroredParent.AddsMeant ⟨actual, believed⟩
      (.manageChildren animator outOfSight call)) :
    deleted.AddsAttached outOfSight call.viewsToAdd (call.remaining believed) := by
  have isChild : ∀ view ∈ call.tagsToDelete, view ∈ actual.children := by
    intro view member
    have child := mem_of_mem_entriesAt (wellFormed.deleted member)
    rw [← mirrors.same] at child
    exact (mem_liveChildren.mp child).1
  have animated : ∀ view ∈ call.tagsToDelete, animates animator actual.clipped view = true →
      actual.isAnimated animator view = true := by
    intro view member animates
    rw [isAnimated, shouldAnimateLayout_of_mem actual.clipped (isChild view member), animates]
  rcases adds with ⟨none, still⟩ | ⟨pendingAttached, behind⟩
  · refine .inl (Finset.eq_empty_of_forall_notMem fun view pending => ?_)
    rcases isDeleted.pending view pending with old | ⟨member, animates, hasDelete⟩
    · rw [show actual.pendingDeletionTags = ∅ from none] at old
      exact Finset.notMem_empty view old
    · exact still hasDelete view member (animated view member animates)
  · have toClip : deleted.toClip outOfSight = actual.toClip outOfSight := by
      rw [NativeParent.toClip, NativeParent.toClip, isDeleted.sameClipping]
    refine .inr ⟨?_, ?_⟩
    · intro view child pending
      have old : view ∈ actual.children := (mem_filter.mp (isDeleted.oldChildren child)).1
      rw [isDeleted.sameClipped]
      apply pendingAttached view old
      rcases isDeleted.pending view pending with older | ⟨member, animates, -⟩
      · exact .inl older
      · exact .inr ⟨animated view member animates, member⟩
    · rw [toClip, isDeleted.sameClipped]
      exact behind

/-- **One call.** If the views at the indices are those that are meant, and views are added behind
attached children, the call throws for neither parent, and both have the same children afterwards. -/
theorem Mirrors.manageChildren
    (adds : MirroredParent.AddsMeant ⟨actual, believed⟩
      (.manageChildren animator outOfSight call)) :
    ∃ actual' believed', actual.manageChildren animator outOfSight call = .ok actual' ∧
      believed.manageChildren {} outOfSight call = .ok believed' ∧ Mirrors actual' believed' := by
  have believedNodup := mirrors.believed_nodup
  -- All indices are in range for the longer list too.
  have longer : believed.children.length ≤ actual.children.length := by
    rw [← mirrors.same]
    exact length_filter_le _ _
  have removed := removeViews_spec animator actual.clipped actual.isRoot call.tagsToDelete
    wellFormed.ascending mirrors.nodup (fun index member => (wellFormed.inRange index member).trans_le longer)
  have removedBelieved := removeViews_spec {} believed.clipped believed.isRoot call.tagsToDelete
    wellFormed.ascending believedNodup wellFormed.inRange
  simp only [animates_default, Bool.false_and, Bool.false_or] at removedBelieved
  let kept : Tag → Bool := fun view => animates animator actual.clipped view && call.tagsToDelete.contains view
  let left := actual.children.filter fun view =>
    kept view || view ∉ entriesAt call.indicesToRemove actual.children
  have deletedChild : ∀ view ∈ call.tagsToDelete, view ∈ believed.children := by
    intro view member
    exact mem_of_mem_entriesAt (wellFormed.deleted member)
  have deletable : Deletable animator actual.clipped call.tagsToDelete { actual with children := left } := by
    constructor
    · exact mirrors.nodup.filter _
    · exact wellFormed.deletedOnce
    · intro view member
      exact (mirrors.views view (mirrors.registered view (deletedChild view member))).1
    · intro view member
      exact (mirrors.views view (mirrors.registered view (deletedChild view member))).2
    · intro view member animated
      have child := deletedChild view member
      rw [← mirrors.same] at child
      exact mem_filter.mpr ⟨(mem_liveChildren.mp child).1, by simp [kept, animated, member]⟩
    · rfl
  have deletableBelieved : Deletable {} believed.clipped call.tagsToDelete
      { believed with children := call.remaining believed } := by
    constructor
    · exact believedNodup.filter _
    · exact wellFormed.deletedOnce
    · intro view member
      exact mirrors.registered view (deletedChild view member)
    · intro view _
      rw [mirrors.noPending]
      exact Finset.notMem_empty view
    · nofun
    · rfl
  obtain ⟨deleted, ranDelete, isDeleted⟩ := deleteViews_spec deletable
  obtain ⟨deletedBelieved, ranDeleteBelieved, isDeletedBelieved⟩ :=
    deleteViews_spec deletableBelieved
  have mirrorsDeleted := mirrors.deleted wellFormed meant isDeleted isDeletedBelieved
  have remaining : deletedBelieved.children = call.remaining believed :=
    isDeletedBelieved.children_eq mirrors.noPending
  have known : ∀ view ∈ call.viewsToAdd.map ViewAtIndex.tag,
      view ∈ deletedBelieved.tagsToViews := by
    intro view member
    obtain ⟨isKnown, notDeleted⟩ := wellFormed.known view member
    exact isDeletedBelieved.views view notDeleted isKnown
  have detached := wellFormed.detached
  have inRange := wellFormed.addsInRange
  have attached := mirrors.addsAttached wellFormed isDeleted adds
  rw [← remaining] at detached inRange attached
  obtain ⟨actual', believed', ranAdd, ranAddBelieved, mirrors'⟩ :=
    mirrorsDeleted.addViews known detached wellFormed.addedOnce inRange attached
  refine ⟨actual', believed', ?_, ?_, mirrors'⟩
  · rw [NativeParent.manageChildren, removed]
    dsimp only
    rw [ranDelete]
    exact ranAdd
  · rw [NativeParent.manageChildren, removedBelieved]
    unfold ManageChildren.remaining at ranDeleteBelieved
    dsimp only
    rw [ranDeleteBelieved]
    exact ranAddBelieved

end

end NativeParent

namespace MirroredParent

open NativeParent

variable {parents : MirroredParent} {view : Tag}

theorem mirrors_createView (mirrors : Mirrors parents.actual parents.believed)
    (notPending : view ∉ parents.actual.pendingDeletionTags) :
    Mirrors (parents.actual.createView view) (parents.believed.createView view) where
  nodup := mirrors.nodup
  same := mirrors.same
  noPending := mirrors.noPending
  views other known := by
    rcases Finset.mem_insert.mp known with rfl | old
    · exact ⟨Finset.mem_insert_self other _, notPending⟩
    · exact ⟨Finset.mem_insert_of_mem (mirrors.views other old).1, (mirrors.views other old).2⟩
  registered other child := Finset.mem_insert_of_mem (mirrors.registered other child)

theorem mirrors_animationEnd (mirrors : Mirrors parents.actual parents.believed)
    (pending : view ∈ parents.actual.pendingDeletionTags) :
    Mirrors (parents.actual.onAnimationEnd view) parents.believed where
  nodup := mirrors.nodup.erase view
  same := (live_onAnimationEnd parents.actual mirrors.nodup view pending).trans mirrors.same
  noPending := mirrors.noPending
  views other known := by
    obtain ⟨exists_, notPending⟩ := mirrors.views other known
    have different : other ≠ view := by
      rintro rfl
      exact notPending pending
    exact ⟨Finset.mem_erase.mpr ⟨different, exists_⟩,
      fun member => notPending (Finset.mem_of_mem_erase member)⟩
  registered := mirrors.registered

/-- Nothing is about to be deleted, and all children exist. -/
def Starts (parent : NativeParent) : Prop :=
  parent.children.Nodup ∧ parent.pendingDeletionTags = ∅ ∧
    ∀ view ∈ parent.children, view ∈ parent.tagsToViews

theorem Starts.mirrors {parent : NativeParent} (starts : Starts parent) : Mirrors parent parent := by
  obtain ⟨nodup, none, registered⟩ := starts
  refine ⟨nodup, liveChildren_of_no_pending none, none, ?_, registered⟩
  intro view known
  rw [none]
  exact ⟨known, Finset.notMem_empty view⟩

theorem step_mirrors (parents : MirroredParent) (event : NativeParentEvent)
    (mirrors : Mirrors parents.actual parents.believed)
    (condition : WellFormed parents event ∧ RemovesMeant parents event ∧ AddsMeant parents event) :
    ∃ next, step parents event = some next ∧ Mirrors next.actual next.believed := by
  obtain ⟨wellFormed, meant, adds⟩ := condition
  cases event with
  | createView view => exact ⟨_, rfl, mirrors_createView mirrors wellFormed.2⟩
  | manageChildren =>
    obtain ⟨actual, believed, ran, ranBelieved, mirrorsNext⟩ :=
      mirrors.manageChildren wellFormed meant adds
    refine ⟨⟨actual, believed⟩, ?_, mirrorsNext⟩
    rw [step, ran, ranBelieved]
  | animationEnd view =>
    refine ⟨{ parents with actual := parents.actual.onAnimationEnd view }, ?_,
      mirrors_animationEnd mirrors wellFormed⟩
    have pending : view ∈ parents.actual.pendingDeletionTags := wellFormed
    rw [step, if_pos pending]
  | updateClippingRect outOfSight =>
    exact ⟨_, rfl, mirrors.nodup, mirrors.same, mirrors.noPending, mirrors.views,
      mirrors.registered⟩

/-- **Pending deletions are invisible.** In a run in which the views at the indices to remove are
those that are meant, and views are added behind attached children, no call throws, no child is
added again, and the children that are not about to be deleted are those that there would be without
animations. -/
theorem run_mirrors (parent : NativeParent) (starts : Starts parent)
    (events : List NativeParentEvent)
    (along : Along step (fun parents event =>
      WellFormed parents event ∧ RemovesMeant parents event ∧ AddsMeant parents event)
      ⟨parent, parent⟩ events) :
    ∃ final, run step ⟨parent, parent⟩ events = some final ∧ final.actual.children.Nodup ∧
      final.actual.liveChildren = final.believed.children := by
  obtain ⟨final, ran, mirrors⟩ := run_progress step_mirrors starts.mirrors along
  exact ⟨final, ran, mirrors.nodup, mirrors.same⟩

theorem run_mirrors_moved :
    let parent : NativeParent := { children := [1, 2, 3], tagsToViews := {1, 2, 3, 4} }
    let animator : LayoutAnimator :=
      { layoutAnimationEnabled := true, shouldAnimateLayout := true, hasDeleteAnimation := true }
    let events : List NativeParentEvent :=
      [.manageChildren animator ∅
          { indicesToRemove := [1], viewsToAdd := [⟨4, 1⟩], tagsToDelete := [2] },
        .manageChildren {} ∅ { indicesToRemove := [0], viewsToAdd := [⟨1, 2⟩] }]
    ∃ final, run step ⟨parent, parent⟩ events = some final ∧ final.actual.children.Nodup ∧
      final.actual.liveChildren = final.believed.children ∧
      final.actual.children = [4, 2, 3, 1] := by
  intro parent animator events
  have along : Along step (fun parents event =>
      WellFormed parents event ∧ RemovesMeant parents event ∧ AddsMeant parents event)
      ⟨parent, parent⟩ events := by
    apply along_cons ⟨⟨by decide, by decide, by decide, by decide, by decide, by decide, by decide,
      ⟨by decide, trivial⟩⟩, by decide +kernel, by decide +kernel⟩ rfl
    exact along_cons ⟨⟨by decide, by decide, by decide, by decide, by decide, by decide, by decide,
      ⟨by decide, trivial⟩⟩, by decide +kernel, by decide +kernel⟩ rfl trivial
  obtain ⟨final, ran, nodup, same⟩ := run_mirrors parent ⟨by decide, rfl, by decide⟩ events along
  refine ⟨final, ran, nodup, same, ?_⟩
  cases ran
  decide +kernel

theorem removal_hits_pending :
    let parent : NativeParent := { children := [1, 2, 3], tagsToViews := {1, 2, 3} }
    let animator : LayoutAnimator :=
      { layoutAnimationEnabled := true, shouldAnimateLayout := true, hasDeleteAnimation := true }
    let events : List NativeParentEvent :=
      [.manageChildren animator ∅ { indicesToRemove := [0], tagsToDelete := [1] },
        .manageChildren {} ∅ { indicesToRemove := [0], tagsToDelete := [2] }]
    Starts parent ∧ Along step WellFormed ⟨parent, parent⟩ events ∧
      ∃ final, run step ⟨parent, parent⟩ events = some final ∧
        final.actual.liveChildren = [2, 3] ∧ final.believed.children = [3] := by
  intro parent animator events
  refine ⟨⟨by decide, rfl, by decide⟩, ?_, _, rfl, by decide, by decide⟩
  apply along_cons ⟨by decide, by decide, by decide, by decide, by decide, by decide, by decide,
    trivial⟩ rfl
  exact along_cons ⟨by decide, by decide, by decide, by decide, by decide, by decide, by decide,
    trivial⟩ rfl trivial

end MirroredParent

end ReactNative


