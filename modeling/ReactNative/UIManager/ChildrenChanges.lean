import ReactNative.UIManager.HoistedChildren

/-! A call removes and adds several children of one node, first all of them in the shadow tree and
then all of them in the native hierarchy. -/
namespace ReactNative

open LinkedForest Forest HostedNodes NativeTree List Function

section Lists

variable {α : Type}

theorem insertIdx_beyond (front back : List α) (offset : ℕ) (entry : α) :
    (front ++ back).insertIdx (front.length + offset) entry =
      front ++ back.insertIdx offset entry := by
  induction front with
  | nil => simp
  | cons first rest ih =>
    have length : (first :: rest).length + offset = rest.length + offset + 1 := by
      rw [length_cons]
      omega
    rw [length, cons_append, insertIdx_succ_cons, ih, cons_append]

theorem split_at {entries : List α} {index : ℕ} (inRange : index ≤ entries.length) :
    ∃ left right, entries = left ++ right ∧ left.length = index :=
  ⟨entries.take index, entries.drop index, (take_append_drop index entries).symm,
    length_take_of_le inRange⟩

end Lists

variable (views : List ViewAtIndex)

def addViews (children : List Tag) : List Tag :=
  views.foldl (fun children view => children.insertIdx view.index view.tag) children

/-- Each index is in range when its view is added. -/
def IndicesInRange (count : ℕ) (views : List ViewAtIndex) : Prop :=
  ∀ placed ∈ views.zipIdx count, placed.1.index ≤ placed.2

theorem indicesInRange_cons {count : ℕ} {view : ViewAtIndex} {rest : List ViewAtIndex} :
    IndicesInRange count (view :: rest) ↔ view.index ≤ count ∧ IndicesInRange (count + 1) rest := by
  simp [IndicesInRange, zipIdx_cons]

theorem sublist_addViews (children : List Tag) : children.Sublist (addViews views children) := by
  induction views generalizing children with
  | nil => exact List.Sublist.refl _
  | cons _ _ ih => exact (sublist_insertIdx _ _ _).trans (ih _)

variable {views : List ViewAtIndex}

theorem mem_addViews {children : List Tag} {c : Tag}
    (member : c ∈ addViews views children) : c ∈ children ∨ c ∈ views.map ViewAtIndex.tag := by
  induction views generalizing children with
  | nil => exact .inl member
  | cons _ _ ih =>
    rw [map_cons, mem_cons]
    rcases ih member with earlier | isLater
    · rcases eq_or_mem_of_mem_insertIdx earlier with isView | isOld
      · exact .inr (.inl isView)
      · exact .inl isOld
    · exact .inr (.inr isLater)

theorem mem_addViews_of_view {children : List Tag}
    (inRange : IndicesInRange children.length views) {view : ViewAtIndex} (member : view ∈ views) :
    view.tag ∈ addViews views children := by
  induction views generalizing children with
  | nil => cases member
  | cons _ rest ih =>
    obtain ⟨here, inRangeRest⟩ := indicesInRange_cons.mp inRange
    rcases mem_cons.mp member with rfl | isLater
    · apply (sublist_addViews rest _).subset
      exact (mem_insertIdx here).mpr (.inl rfl)
    · apply ih _ isLater
      rw [length_insertIdx_of_le_length here]
      exact inRangeRest

theorem addViews_beyond (front back : List Tag)
    (beyond : ∀ view ∈ views, front.length ≤ view.index) :
    ∃ rest, addViews views (front ++ back) = front ++ rest := by
  induction views generalizing back with
  | nil => exact ⟨back, rfl⟩
  | cons view rest ih =>
    obtain ⟨_, index⟩ := Nat.exists_eq_add_of_le (beyond view mem_cons_self)
    rw [addViews, foldl_cons, index, insertIdx_beyond]
    exact ih _ fun later member => beyond later (mem_cons_of_mem view member)

variable (tags : List Tag) (start : ℕ)

def viewsInOrder : List ViewAtIndex :=
  (tags.zipIdx start).map fun tagAndIndex => ⟨tagAndIndex.1, tagAndIndex.2⟩

theorem viewsInOrder_cons (tag : Tag) (rest : List Tag) (start : ℕ) :
    viewsInOrder (tag :: rest) start = ⟨tag, start⟩ :: viewsInOrder rest (start + 1) := by
  rfl

theorem tags_viewsInOrder : (viewsInOrder tags start).map ViewAtIndex.tag = tags := by
  induction tags generalizing start with
  | nil => rfl
  | cons tag _ ih => rw [viewsInOrder_cons, map_cons, ih]

theorem addViews_viewsInOrder (tags front back : List Tag) :
    addViews (viewsInOrder tags front.length) (front ++ back) = front ++ tags ++ back := by
  induction tags generalizing front with
  | nil => simp [viewsInOrder, addViews]
  | cons tag _ ih =>
    have next := ih (front ++ [tag])
    rw [length_append, length_singleton] at next
    rw [viewsInOrder_cons, addViews, foldl_cons, KeyedTree.insertIdx_between,
      ← singleton_append, ← append_assoc, ← addViews, next]
    simp

theorem ascending_viewsInOrder :
    (viewsInOrder tags start).Pairwise (fun earlier later => earlier.index < later.index) ∧
      ∀ view ∈ viewsInOrder tags start, start ≤ view.index := by
  induction tags generalizing start with
  | nil => simp [viewsInOrder]
  | cons _ _ ih =>
    obtain ⟨ascending, beyond⟩ := ih (start + 1)
    rw [viewsInOrder_cons, pairwise_cons, forall_mem_cons]
    refine ⟨⟨beyond, ascending⟩, Nat.le_refl _, ?_⟩
    intro view member
    exact Nat.le_of_succ_le (beyond view member)

theorem inRange_viewsInOrder {count start : ℕ} (tags : List Tag) (enough : start ≤ count) :
    IndicesInRange count (viewsInOrder tags start) := by
  induction tags generalizing count start with
  | nil => simp [viewsInOrder, IndicesInRange]
  | cons _ _ ih =>
    rw [viewsInOrder_cons, indicesInRange_cons]
    exact ⟨enough, ih (Nat.succ_le_succ enough)⟩

/-! ### Changes of the shadow tree -/

namespace ShadowTree

variable {shadow : ShadowTree} {F : Forest Tag} {m : Tag}

structure Attachable (shadow : ShadowTree) (F : Forest Tag) (m : Tag) (views : List ViewAtIndex) :
    Prop where
  registered : ∀ view ∈ views, view.tag ∈ shadow.registry
  noParent : ∀ view ∈ views, ∀ p, view.tag ∉ F.children p
  apart : ∀ view ∈ views, ¬ F.Descends view.tag m
  nodup : (views.map ViewAtIndex.tag).Nodup
  inRange : IndicesInRange (F.children m).length views

theorem Attachable.next {view : ViewAtIndex} {rest : List ViewAtIndex} {left right : List Tag}
    {after : ShadowTree} (attachable : Attachable shadow F m (view :: rest))
    (same : SameNodes shadow after) (old : F.children m = left ++ right)
    (fits : F.Fits m (left ++ view.tag :: right)) :
    Attachable after (F.replace m (left ++ view.tag :: right) fits) m rest := by
  obtain ⟨notLater, nodup⟩ := nodup_cons.mp attachable.nodup
  constructor
  · intro later member
    rw [same.registry]
    exact attachable.registered later (mem_cons_of_mem view member)
  · intro later member p child
    have before := attachable.noParent later (mem_cons_of_mem view member) p
    by_cases isM : p = m
    · subst isM
      rw [replace_self, mem_append, mem_cons] at child
      have isView : later.tag = view.tag := by
        rw [old, mem_append] at before
        tauto
      exact notLater (mem_map.mpr ⟨later, member, isView⟩)
    · rw [replace_of_ne isM] at child
      exact before child
  · intro later member descends
    apply attachable.apart later (mem_cons_of_mem view member)
    apply descends_to _ descends
    intro n different
    exact (replace_of_ne different).symm
  · exact nodup
  · have rest := (indicesInRange_cons.mp attachable.inRange).2
    rw [old] at rest
    simpa [Nat.add_assoc] using rest

theorem addRegisteredChildren_spec {views : List ViewAtIndex} (valid : Valid shadow F)
    (known : shadow.registry ⊆ shadow.tags) (knownM : m ∈ shadow.tags)
    (attachable : Attachable shadow F m views) :
    ∃ after G, views.foldlM (UIImplementation.addRegisteredChild m) shadow = some after ∧
      Valid after G ∧ SameNodes shadow after ∧
      G.children = Function.update F.children m (addViews views (F.children m)) := by
  -- Induction over the views; each fits at its index among those added before.
  induction views generalizing shadow F with
  | nil =>
    refine ⟨shadow, F, rfl, valid, .refl shadow, ?_⟩
    rw [addViews, foldl_nil, update_eq_self]
  | cons view _ ih =>
    have registered := attachable.registered view mem_cons_self
    obtain ⟨left, right, old, length⟩ := split_at (indicesInRange_cons.mp attachable.inRange).1
    have fits : F.Fits m (left ++ view.tag :: right) := by
      have noParent := attachable.noParent view mem_cons_self
      have nodup := F.nodup m
      rw [old] at nodup
      constructor
      · rw [nodup_middle, nodup_cons]
        exact ⟨fun member => noParent m (old ▸ member), nodup⟩
      · intro c member
        by_cases isView : c = view.tag
        · subst isView
          exact attachable.apart view mem_cons_self
        · apply not_descends_child
          rw [old]
          simpa [isView] using member
      · intro c member p child
        by_cases isView : c = view.tag
        · subst isView
          exact absurd child (noParent p)
        · apply F.unique child
          rw [old]
          simpa [isView] using member
    obtain ⟨_, added, validMiddle, same⟩ :=
      addChildAt_spec valid old fits (known registered) knownM
    obtain ⟨after, G, done, validAfter, sameAfter, children⟩ := ih validMiddle
      (by rw [same.registry, same.tags]; exact known) (by rw [same.tags]; exact knownM)
      (attachable.next same old fits)
    refine ⟨after, G, ?_, validAfter, same.trans sameAfter, ?_⟩
    · rw [foldlM_cons, UIImplementation.addRegisteredChild, if_neg (not_not.mpr registered),
        ← length, added]
      exact done
    · rw [children, replace_children, update_idem, update_self, addViews, addViews,
        foldl_cons, old, ← length, KeyedTree.insertIdx_between]

theorem removeChildren_spec {indices : List ℕ} (valid : Valid shadow F)
    (descending : indices.Pairwise (· > ·))
    (inRange : ∀ index ∈ indices, index < (F.children m).length) :
    ∃ after G, indices.foldlM (fun shadow index => shadow.removeChildAt m index) shadow =
        some after ∧
      Valid after G ∧ SameNodes shadow after ∧
      G.children = Function.update F.children m
        (HiddenEntries.removeAt (fun _ => false) indices (F.children m)) := by
  induction indices generalizing shadow F with
  | nil =>
    refine ⟨shadow, F, rfl, valid, .refl shadow, ?_⟩
    rw [HiddenEntries.removeAt, update_eq_self]
  | cons index _ ih =>
    obtain ⟨below, descendingRest⟩ := pairwise_cons.mp descending
    have here := inRange index mem_cons_self
    obtain ⟨left, right, old, length⟩ := split_at here.le
    obtain ⟨x, right, rfl⟩ : ∃ x tail, right = x :: tail := by
      cases right with
      | nil =>
        rw [old, append_nil] at here
        omega
      | cons x tail => exact ⟨x, tail, rfl⟩
    have erased : (F.children m).eraseIdx index = left ++ right := by
      rw [old, eraseIdx_append_of_length_le length.le, length, Nat.sub_self]
      rfl
    have fits : F.Fits m (left ++ right) := by
      rw [← erased]
      exact fits_of_subset ((F.nodup m).eraseIdx index) (eraseIdx_subset)
    obtain ⟨middle, removed, validMiddle, same⟩ := removeChildAt_spec valid old fits
    obtain ⟨after, G, done, validAfter, sameAfter, children⟩ := ih validMiddle descendingRest (by
      -- The indices that are left are before the one that is gone.
      intro earlier member
      have lower := below earlier member
      rw [replace_self, ← erased, length_eraseIdx_of_lt here]
      omega)
    have found : (F.children m)[index]? = some x := by
      rw [old, ← length]
      simp
    refine ⟨after, G, ?_, validAfter, same.trans sameAfter, ?_⟩
    · rw [foldlM_cons, ← length, removed]
      exact done
    · rw [children, replace_children, update_idem, update_self, HiddenEntries.removeAt, found]
      rw [if_neg Bool.false_ne_true, erased]

end ShadowTree

/-! ### Changes of the native hierarchy -/

namespace Optimizer

variable {shadow : ShadowTree} {F G : Forest Tag} {native : NativeTree} {m : Tag}

theorem tree_of_child {x : Tag} (differ : ∀ n, n ≠ m → G.children n = F.children n)
    (child : x ∈ F.children m) : G.tree x = F.tree x := by
  apply tree_congr
  intro d below
  apply differ
  rintro rfl
  exact not_descends_child child below

theorem hosted_congr {K : Roles Tag} {q : Tag} (differ : ∀ n, n ≠ m → G.children n = F.children n)
    (hosted : Hosted K F m q) : Hosted K G m q := by
  obtain ⟨before, after, path⟩ := hosted
  exact ⟨before, after, hostedAt_congr differ path⟩

theorem addNodesToNode_spec {views : List ViewAtIndex} (valid : ShadowTree.Valid shadow F)
    (differ : ∀ n, n ≠ m → G.children n = F.children n)
    (final : F.children m = addViews views (G.children m))
    (ascending : views.Pairwise fun earlier later => earlier.index < later.index)
    (inRange : IndicesInRange (G.children m).length views)
    (mirrors : Mirrors shadow.roles G native.nativeChildren native.nativeParent)
    (consistent : Consistent native) :
    ∃ after, views.foldlM (fun native view =>
        addNodeToNode shadow m view.tag view.index native) native = some after ∧
      Mirrors shadow.roles F after.nativeChildren after.nativeParent ∧ Consistent after ∧
      Logs (fun operation => ∃ q, Hosted shadow.roles F m q ∧
        ∃ view ∈ views, ∃ c ∈ pieces shadow.roles F view.tag, operation.Adds q c) native after := by
  induction views generalizing native G with
  | nil =>
    refine ⟨native, rfl, ?_, consistent, .refl _ native⟩
    apply mirrors.congr
    funext n
    by_cases isM : n = m
    · subst isM
      exact final
    · exact (differ n isM).symm
  | cons view rest ih =>
    obtain ⟨beyond, ascendingRest⟩ := pairwise_cons.mp ascending
    obtain ⟨here, inRangeRest⟩ := indicesInRange_cons.mp inRange
    obtain ⟨left, right, old, length⟩ := split_at here
    have inserted : (G.children m).insertIdx view.index view.tag = left ++ view.tag :: right := by
      rw [old, ← length, KeyedTree.insertIdx_between]
    have finalRest : F.children m = addViews rest (left ++ view.tag :: right) := by
      rw [final, addViews, foldl_cons, inserted]
      rfl
    -- All that is still to be added comes after the view.
    obtain ⟨others, place⟩ : ∃ others, F.children m = left ++ view.tag :: others := by
      obtain ⟨others, place⟩ := addViews_beyond (left ++ [view.tag]) right (by
        intro later member
        have greater := beyond later member
        rw [length_append, length_singleton]
        omega)
      rw [finalRest, ← singleton_append, ← append_assoc, place]
      simp
    have part : ∀ n, G.children n ⊆ F.children n := by
      intro n
      by_cases isM : n = m
      · subst isM
        rw [final]
        exact (sublist_addViews _ _).subset
      · rw [differ n isM]
        exact List.Subset.refl _
    have newPart : (left ++ view.tag :: right).Sublist (F.children m) := by
      rw [finalRest]
      exact sublist_addViews _ _
    have fits := fits_of_part part (newPart.nodup (F.nodup m)) newPart.subset
    have awaited : Awaited shadow F G m view.tag left right others := by
      refine ⟨valid, part, ?_, ?_, old, place⟩
      · intro n apart
        apply differ
        rintro rfl
        exact apart .refl
      · intro c member
        apply pieces_congr
        apply tree_of_child differ
        rw [place, ← singleton_append, ← append_assoc]
        exact mem_append_left _ member
    obtain ⟨middle, added, mirrorsMiddle, consistentMiddle, logs⟩ := addNodeToNode_spec
      (H := G.replace m (left ++ view.tag :: right) fits) awaited mirrors consistent
      (fun n different => replace_of_ne different) replace_self
    obtain ⟨after, done, mirrorsAfter, consistentAfter, logsRest⟩ := ih
      (G := G.replace m (left ++ view.tag :: right) fits)
      (fun n different => (replace_of_ne different).trans (differ n different))
      (by rw [replace_self]; exact finalRest) ascendingRest
      (by
        rw [old] at inRangeRest
        simpa [Nat.add_assoc] using inRangeRest)
      mirrorsMiddle consistentMiddle
    refine ⟨after, ?_, mirrorsAfter, consistentAfter, (logs.mono ?_).trans (logsRest.mono ?_)⟩
    · rw [foldlM_cons, ← length, added]
      exact done
    · rintro operation ⟨q, hosted, c, member, adds⟩
      exact ⟨q, hosted, view, mem_cons_self, c, member, adds⟩
    · rintro operation ⟨q, hosted, later, isLater, c, member, adds⟩
      exact ⟨q, hosted, later, mem_cons_of_mem view isLater, c, member, adds⟩

theorem handleSetChildren_eq (nodeToManage : Tag) (childrenTags : List Tag) :
    handleSetChildren shadow nodeToManage childrenTags native =
      (viewsInOrder childrenTags 0).foldlM (fun native view =>
        addNodeToNode shadow nodeToManage view.tag view.index native) native := by
  rw [handleSetChildren, viewsInOrder, foldlM_map]

theorem removeNodesFromParent_spec {tags : List Tag} (delete : Tag → Bool)
    (linked : ShadowTree.Linked shadow F) (differ : ∀ n, n ≠ m → G.children n = F.children n)
    (nodup : tags.Nodup) (areChildren : ∀ x ∈ tags, x ∈ G.children m)
    (mirrors : Mirrors shadow.roles G native.nativeChildren native.nativeParent)
    (consistent : Consistent native) :
    ∃ after H, tags.foldlM (fun native tag =>
        removeNodeFromParent shadow (delete tag) shadow.depth tag native) native = some after ∧
      H.children = Function.update G.children m ((G.children m).filter fun c => c ∉ tags) ∧
      Mirrors shadow.roles H after.nativeChildren after.nativeParent ∧ Consistent after ∧
      Logs (fun operation => ∃ q, Hosted shadow.roles F m q ∧
        ∃ x ∈ tags, ∃ e ∈ swept shadow.roles F x, operation.Removes (delete x) q e)
        native after := by
  -- Induction over the tags: below the other children nothing changes, whoever goes first.
  induction tags generalizing native G with
  | nil =>
    refine ⟨native, G, rfl, ?_, mirrors, consistent, .refl _ native⟩
    simp
  | cons x _ ih =>
    obtain ⟨notLater, nodupRest⟩ := nodup_cons.mp nodup
    have child := areChildren x mem_cons_self
    have back : ∀ n, n ≠ m → F.children n = G.children n := fun n different =>
      (differ n different).symm
    have sameTree := tree_of_child back child
    obtain ⟨left, right, old⟩ := append_of_mem child
    have filtered : left ++ right = (G.children m).filter fun c => c ≠ x := by
      have nodupChildren := G.nodup m
      rw [old, nodup_middle, nodup_cons, mem_append, not_or] at nodupChildren
      have apart : ∀ part : List Tag, x ∉ part → part.filter (fun c => decide (c ≠ x)) = part := by
        intro part absent
        rw [filter_eq_self]
        intro c member
        rw [decide_eq_true_iff]
        rintro rfl
        exact absent member
      rw [old, filter_append, filter_cons_of_neg (by simp),
        apart left nodupChildren.1.1, apart right nodupChildren.1.2]
    have fits : G.Fits m (left ++ right) := by
      rw [filtered]
      exact fits_of_subset ((G.nodup m).filter _) (filter_subset_self _)
    obtain ⟨_, removed, mirrorsMiddle, consistentMiddle, logs⟩ :=
      removeNodeFromParent_spec (H := G.replace m (left ++ right) fits) (delete x) linked sameTree
        mirrors consistent old (fun n different => replace_of_ne different) replace_self
    obtain ⟨after, H, done, children, mirrorsAfter, consistentAfter, logsRest⟩ := ih
      (G := G.replace m (left ++ right) fits)
      (fun n different => (replace_of_ne different).trans (differ n different)) nodupRest
      (by
        intro y member
        have isChild := areChildren y (mem_cons_of_mem x member)
        rw [replace_self, filtered, mem_filter, decide_eq_true_iff]
        refine ⟨isChild, ?_⟩
        rintro rfl
        exact notLater member)
      mirrorsMiddle consistentMiddle
    refine ⟨after, H, ?_, ?_, mirrorsAfter, consistentAfter, (logs.mono ?_).trans
      (logsRest.mono ?_)⟩
    · rw [foldlM_cons, removed]
      exact done
    · rw [children, replace_children, update_idem, update_self, filtered, filter_filter]
      congr 1
      apply filter_congr
      intro c _
      by_cases isX : c = x <;> simp [isX]
    -- What the operations remove is below one of the nodes.
    · rintro operation ⟨q, hosted, e, member, removes⟩
      rw [swept, ← sameTree] at member
      exact ⟨q, hosted_congr back hosted, x, mem_cons_self, e, member, removes⟩
    · rintro operation ⟨q, hosted, y, isLater, e, member, removes⟩
      exact ⟨q, hosted, y, mem_cons_of_mem x isLater, e, member, removes⟩

end Optimizer

end ReactNative


