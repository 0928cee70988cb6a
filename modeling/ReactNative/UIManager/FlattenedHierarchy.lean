import ReactNative.UIManager.HierarchyCalls

/-! Every call that describes a change of a shadow tree keeps the native lists equal to the
flattened tree, unless a node with native nodes below it stops being layout-only while it has no
parent. -/
namespace ReactNative

open LinkedForest Forest HostedNodes NativeTree Optimizer List

/-! ### Well-formed calls -/

/-- The nodes can become children of a node, some of whose children have been removed. -/
structure ShadowTree.Attaches (shadow : ShadowTree) (node : Tag) (removed tags : List Tag) :
    Prop where
  registered : ∀ tag ∈ tags, tag ∈ shadow.registry
  detached : ∀ tag ∈ tags, shadow.parent tag = none ∨ tag ∈ removed
  apart : ∀ tag ∈ tags, node ∉ shadow.subtree shadow.depth tag
  nodup : tags.Nodup

/-- The call fits the children of the node: indices are in order and in range, and the tags
are those at the indices. -/
structure ManageShadowChildren.Describes (call : ManageShadowChildren) (children : List Tag) :
    Prop where
  ascending : call.indicesToRemove.Pairwise (· < ·)
  inRange : ∀ index ∈ call.indicesToRemove, index < children.length
  tagsToRemove : call.tagsToRemove.Perm
    (HiddenEntries.entriesAt call.indicesToRemove children)
  viewsToAdd : call.viewsToAdd.Pairwise fun earlier later => earlier.index < later.index
  places : IndicesInRange (children.filter fun c => c ∉ call.tagsToRemove).length call.viewsToAdd
  tagsToDelete : ∀ tag ∈ call.tagsToDelete, tag ∈ call.tagsToRemove ∧
    tag ∉ call.viewsToAdd.map ViewAtIndex.tag

instance (shadow : ShadowTree) (node : Tag) (removed tags : List Tag) :
    Decidable (shadow.Attaches node removed tags) :=
  decidable_of_iff
    ((∀ tag ∈ tags, tag ∈ shadow.registry) ∧
      (∀ tag ∈ tags, shadow.parent tag = none ∨ tag ∈ removed) ∧
      (∀ tag ∈ tags, node ∉ shadow.subtree shadow.depth tag) ∧ tags.Nodup)
    ⟨fun ⟨registered, detached, apart, nodup⟩ => ⟨registered, detached, apart, nodup⟩,
      fun ⟨registered, detached, apart, nodup⟩ => ⟨registered, detached, apart, nodup⟩⟩

instance (count : ℕ) (views : List ViewAtIndex) : Decidable (IndicesInRange count views) :=
  inferInstanceAs (Decidable (∀ placed ∈ views.zipIdx count, placed.1.index ≤ placed.2))

instance (call : ManageShadowChildren) (children : List Tag) :
    Decidable (call.Describes children) :=
  decidable_of_iff
    (call.indicesToRemove.Pairwise (· < ·) ∧
      (∀ index ∈ call.indicesToRemove, index < children.length) ∧
      call.tagsToRemove.Perm (HiddenEntries.entriesAt call.indicesToRemove children) ∧
      (call.viewsToAdd.Pairwise fun earlier later => earlier.index < later.index) ∧
      IndicesInRange (children.filter fun c => c ∉ call.tagsToRemove).length call.viewsToAdd ∧
      ∀ tag ∈ call.tagsToDelete, tag ∈ call.tagsToRemove ∧
        tag ∉ call.viewsToAdd.map ViewAtIndex.tag)
    ⟨fun ⟨ascending, inRange, removed, views, places, deleted⟩ =>
      ⟨ascending, inRange, removed, views, places, deleted⟩,
      fun ⟨ascending, inRange, removed, views, places, deleted⟩ =>
        ⟨ascending, inRange, removed, views, places, deleted⟩⟩

namespace UIImplementation

/-- The call describes a shadow tree: tags are distinct, indices are valid, and no node gets a
second parent or becomes its own ancestor. -/
def WellFormed (ui : UIImplementation) : UIEvent → Prop
  | .createView tag _ _ => tag ∉ ui.shadow.tags
  | .updateView tag _ => tag ∈ ui.shadow.registry
  | .setChildren tag childrenTags =>
    tag ∈ ui.shadow.registry ∧ ui.shadow.Attaches tag [] childrenTags
  | .manageChildren tag call =>
    tag ∈ ui.shadow.registry ∧ call.Describes (ui.shadow.children tag) ∧
      ui.shadow.Attaches tag call.tagsToRemove (call.viewsToAdd.map ViewAtIndex.tag)

/-- A node that stops being layout-only has a parent, or nothing to host. -/
def LeavesLayoutOnlyAttached (ui : UIImplementation) : UIEvent → Prop
  | .updateView tag layoutOnlyAndCollapsable =>
    ui.shadow.isLayoutOnly tag = true → layoutOnlyAndCollapsable = false →
      ui.shadow.parent tag ≠ none ∨ ui.shadow.totalNativeChildren tag = 0
  | _ => True

instance (ui : UIImplementation) : ∀ event, Decidable (ui.WellFormed event)
  | .createView tag _ _ => inferInstanceAs (Decidable (tag ∉ ui.shadow.tags))
  | .updateView tag _ => inferInstanceAs (Decidable (tag ∈ ui.shadow.registry))
  | .setChildren tag childrenTags =>
    inferInstanceAs (Decidable
      (tag ∈ ui.shadow.registry ∧ ui.shadow.Attaches tag [] childrenTags))
  | .manageChildren tag call =>
    inferInstanceAs (Decidable
      (tag ∈ ui.shadow.registry ∧ call.Describes (ui.shadow.children tag) ∧
        ui.shadow.Attaches tag call.tagsToRemove (call.viewsToAdd.map ViewAtIndex.tag)))

instance (ui : UIImplementation) : ∀ event, Decidable (ui.LeavesLayoutOnlyAttached event)
  | .updateView tag layoutOnlyAndCollapsable =>
    inferInstanceAs (Decidable (ui.shadow.isLayoutOnly tag = true →
      layoutOnlyAndCollapsable = false →
        ui.shadow.parent tag ≠ none ∨ ui.shadow.totalNativeChildren tag = 0))
  | .createView _ _ _ | .setChildren _ _ | .manageChildren _ _ => .isTrue trivial

variable {ui : UIImplementation} {F : Forest Tag} {m : Tag}

theorem entriesAt_nodup {α : Type} {indices : List ℕ} {entries : List α} (nodup : entries.Nodup)
    (ascending : indices.Pairwise (· < ·)) : (HiddenEntries.entriesAt indices entries).Nodup := by
  apply List.Pairwise.filterMap _ _ ascending
  intro i j less a foundA b foundB same
  obtain ⟨inRangeA, rfl⟩ := List.getElem?_eq_some_iff.mp foundA
  obtain ⟨inRangeB, rfl⟩ := List.getElem?_eq_some_iff.mp foundB
  have equal := (nodup.getElem_inj_iff).mp same
  omega

/-! ### Setting and managing children -/

theorem setChildren_sound {tags : List Tag} (sound : ui.Sound F) (registered : m ∈ ui.shadow.registry)
    (attaches : ui.shadow.Attaches m [] tags) :
    ∃ next G, ui.setChildren m tags = some next ∧ next.Sound G ∧ ui.shadow.SameNodes next.shadow ∧
      G.children = Function.update F.children m (tags ++ F.children m) ∧
      Logs (Around next.shadow G m fun _ => False) ui.native next.native := by
  -- Setting the children is adding them in order, in front of what is there.
  have inOrder : addViews (viewsInOrder tags 0) (F.children m) = tags ++ F.children m :=
    addViews_viewsInOrder tags [] (F.children m)
  have memberTag : ∀ view ∈ viewsInOrder tags 0, view.tag ∈ tags := by
    intro view member
    rw [← tags_viewsInOrder tags 0]
    exact mem_map_of_mem member
  have inRange : IndicesInRange (F.children m).length (viewsInOrder tags 0) :=
    inRange_viewsInOrder _ (Nat.zero_le _)
  have attachable : ui.shadow.Attachable F m (viewsInOrder tags 0) := by
    constructor
    · intro view member
      exact attaches.registered view.tag (memberTag view member)
    · intro view member
      rcases attaches.detached view.tag (memberTag view member) with isNone | impossible
      · exact sound.noParent isNone
      · cases impossible
    · intro view member descends
      exact attaches.apart view.tag (memberTag view member)
        (sound.valid.mem_subtree.mpr descends)
    · rw [tags_viewsInOrder]
      exact attaches.nodup
    · exact inRange
  obtain ⟨shadow, G, isAdded, valid, same, children⟩ :=
    ShadowTree.addRegisteredChildren_spec sound.valid sound.known (sound.known registered) attachable
  have keepAll : (F.children m).filter (fun c => c ∉ ([] : List Tag)) = F.children m := by simp
  obtain ⟨native, isDone, soundNext, logs⟩ := handleManageChildren_sound [] [] sound valid same nodup_nil nofun
    (by rw [keepAll]; exact children) (ascending_viewsInOrder tags 0).1
    (by rw [keepAll]; exact inRange)
  refine ⟨⟨shadow, native⟩, G, ?_, soundNext, same, by rw [children, inOrder], logs.mono ?_⟩
  -- The shadow tree first, then the optimizer brings the native one up to it.
  · have folded : tags.zipIdx.foldlM (fun shadow tagAndIndex =>
        addRegisteredChild m shadow ⟨tagAndIndex.1, tagAndIndex.2⟩) ui.shadow = some shadow := by
      rw [← isAdded, viewsInOrder, foldlM_map]
    rw [setChildren, folded, Option.bind_some, handleSetChildren_eq]
    rw [handleManageChildren, foldlM_nil, Option.pure_def, Option.bind_some] at isDone
    rw [isDone]
    rfl
  · rintro operation ⟨uses, deletes⟩
    refine ⟨uses, ?_⟩
    intro tag isDeleted
    obtain ⟨x, impossible, -⟩ := deletes tag isDeleted
    cases impossible

theorem removeShadowNodes_eq (shadow : ShadowTree) (tags : List Tag) :
    ∃ registry, tags.foldl ShadowTree.removeShadowNode shadow =
        { shadow with registry := registry } ∧
      ∀ n, n ∈ registry ↔ n ∈ shadow.registry ∧
        ∀ tag ∈ tags, n ∉ shadow.subtree shadow.depth tag := by
  induction tags generalizing shadow with
  | nil => exact ⟨shadow.registry, rfl, fun n => by simp⟩
  | cons tag _ ih =>
    obtain ⟨registry, folded, members⟩ := ih (shadow.removeShadowNode tag)
    refine ⟨registry, ?_, ?_⟩
    · rw [foldl_cons, folded]
      rfl
    · intro n
      have sameSubtree : ∀ fuel other,
          (shadow.removeShadowNode tag).subtree fuel other = shadow.subtree fuel other := by
        intro fuel
        induction fuel with
        | zero => exact fun _ => rfl
        | succ fuel ihFuel =>
          intro other
          rw [ShadowTree.subtree, ShadowTree.subtree]
          congr 1
          exact flatMap_congr fun c _ => ihFuel c
      have sameDepth : (shadow.removeShadowNode tag).depth = shadow.depth := rfl
      have left : n ∈ (shadow.removeShadowNode tag).registry ↔
          n ∈ shadow.registry ∧ n ∉ shadow.subtree shadow.depth tag := by
        rw [ShadowTree.removeShadowNode, Finset.mem_sdiff, mem_toFinset]
      rw [members, left, forall_mem_cons, sameDepth]
      simp only [sameSubtree]
      tauto

theorem manageChildren_sound {call : ManageShadowChildren} (sound : ui.Sound F)
    (registered : m ∈ ui.shadow.registry) (describes : call.Describes (ui.shadow.children m))
    (attaches : ui.shadow.Attaches m call.tagsToRemove (call.viewsToAdd.map ViewAtIndex.tag)) :
    ∃ next G, ui.manageChildren m call = some next ∧ next.Sound G ∧
      next.shadow.getNativeKind = ui.shadow.getNativeKind ∧
      G.children = Function.update F.children m
        (addViews call.viewsToAdd ((F.children m).filter fun c => c ∉ call.tagsToRemove)) ∧
      (∀ n, n ∈ next.shadow.registry ↔ n ∈ ui.shadow.registry ∧
        ∀ tag ∈ call.tagsToDelete, ¬ G.Descends tag n) ∧
      Logs (Around next.shadow G m fun e => ∃ x ∈ call.tagsToDelete, G.Descends x e)
        ui.native next.native := by
  have childrenM : ui.shadow.children m = F.children m := by rw [sound.valid.children]
  rw [childrenM] at describes
  have nodup := F.nodup m
  have descending : call.indicesToRemove.reverse.Pairwise (· > ·) :=
    pairwise_reverse.mpr describes.ascending
  -- What is removed is what the tags say.
  have entries : ∀ c, c ∈ HiddenEntries.entriesAt call.indicesToRemove.reverse (F.children m) ↔
      c ∈ call.tagsToRemove := by
    intro c
    rw [describes.tagsToRemove.mem_iff, HiddenEntries.entriesAt, HiddenEntries.entriesAt,
      filterMap_reverse, mem_reverse]
  have nodupTags : call.tagsToRemove.Nodup := by
    rw [describes.tagsToRemove.nodup_iff]
    exact entriesAt_nodup nodup describes.ascending
  have areChildren : ∀ x ∈ call.tagsToRemove, x ∈ F.children m := by
    intro x member
    exact HiddenEntries.mem_of_mem_entriesAt (describes.tagsToRemove.mem_iff.mp member)
  obtain ⟨removed, G, isRemoved, validRemoved, sameRemoved, childrenG⟩ :=
    ShadowTree.removeChildren_spec sound.valid descending (by
      intro index member
      exact describes.inRange index (mem_reverse.mp member))
  have left : G.children m = (F.children m).filter fun c => c ∉ call.tagsToRemove := by
    rw [childrenG, Function.update_self, HiddenEntries.removeAt_eq_filter nodup descending]
    apply filter_congr
    intro c _
    rw [Bool.false_or, decide_eq_decide]
    exact not_congr (entries c)
  have other : ∀ n, n ≠ m → G.children n = F.children n := by
    intro n different
    rw [childrenG, Function.update_of_ne different]
  have attachable : removed.Attachable G m call.viewsToAdd := by
    have memberTag : ∀ view ∈ call.viewsToAdd, view.tag ∈ call.viewsToAdd.map ViewAtIndex.tag :=
      fun view member => mem_map_of_mem member
    constructor
    · intro view member
      rw [sameRemoved.registry]
      exact attaches.registered view.tag (memberTag view member)
    · intro view member p child
      rcases attaches.detached view.tag (memberTag view member) with isNone | isMoved
      · have noParent := sound.noParent isNone
        by_cases isM : p = m
        · subst isM
          rw [left] at child
          exact noParent p (mem_filter.mp child).1
        · rw [other p isM] at child
          exact noParent p child
      · by_cases isM : p = m
        · subst isM
          rw [left, mem_filter, decide_eq_true_iff] at child
          exact child.2 isMoved
        · rw [other p isM] at child
          exact isM (F.unique child (areChildren view.tag isMoved))
    · intro view member descends
      apply attaches.apart view.tag (memberTag view member)
      rw [sound.valid.mem_subtree]
      exact descends_to (fun n different => (other n different).symm) descends
    · exact attaches.nodup
    · rw [left]
      exact describes.places
  obtain ⟨added, H, isAdded, validAdded, sameAdded, childrenH⟩ :=
    ShadowTree.addRegisteredChildren_spec validRemoved
      (by rw [sameRemoved.registry, sameRemoved.tags]; exact sound.known)
      (by rw [sameRemoved.tags]; exact sound.known registered) attachable
  have same := sameRemoved.trans sameAdded
  have children : H.children = Function.update F.children m
      (addViews call.viewsToAdd ((F.children m).filter fun c => c ∉ call.tagsToRemove)) := by
    rw [childrenH, left, childrenG, Function.update_idem]
  obtain ⟨native, isDone, soundAdded, logs⟩ := handleManageChildren_sound call.tagsToRemove
    call.tagsToDelete sound validAdded same nodupTags areChildren children describes.viewsToAdd
    describes.places
  obtain ⟨registry, folded, members⟩ := removeShadowNodes_eq added call.tagsToDelete
  refine ⟨⟨{ added with registry := registry }, native⟩, H, ?_,
    ⟨?_, soundAdded.mirrors, soundAdded.consistent, ?_, soundAdded.isView⟩, same.kind, children, ?_,
    logs⟩
  · simp only [manageChildren, isRemoved, isAdded, isDone, folded, Option.bind_eq_bind,
      Option.bind_some, Option.pure_def]
  · exact ⟨⟨validAdded.children, validAdded.parent, validAdded.known⟩, validAdded.counts⟩
  · intro n member
    exact soundAdded.known ((members n).mp member).1
  · intro n
    rw [members, same.registry]
    simp only [validAdded.mem_subtree]

variable {x : Tag} {layoutOnlyAndCollapsable : Bool}

theorem handleUpdateView_sound (sound : ui.Sound F)
    (stays : ¬ (ui.shadow.isLayoutOnly x = true ∧ layoutOnlyAndCollapsable = false)) :
    ∃ native, ui.handleUpdateView x layoutOnlyAndCollapsable = some ⟨ui.shadow, native⟩ ∧
      Sound ⟨ui.shadow, native⟩ F ∧
      native.operations = ui.native.operations ++
        if ui.shadow.isLayoutOnly x then [] else [.updateProperties x] := by
  unfold handleUpdateView
  cases layoutOnly : ui.shadow.isLayoutOnly x with
  | true =>
    have collapsable : layoutOnlyAndCollapsable = true := by
      simpa [layoutOnly] using stays
    refine ⟨ui.native, by simp [collapsable], sound, by simp⟩
  | false =>
    refine ⟨ui.native.enqueue (.updateProperties x), by simp, ?_, by simp [NativeTree.enqueue]⟩
    exact ⟨sound.valid, sound.mirrors, consistent_enqueue sound.consistent rfl, sound.known,
      sound.isView⟩

theorem handleUpdateView_of_leaves
    (leaves : ui.shadow.isLayoutOnly x = true ∧ layoutOnlyAndCollapsable = false) :
    ui.handleUpdateView x layoutOnlyAndCollapsable =
      ui.transitionLayoutOnlyViewToNativeView x := by
  simp [handleUpdateView, leaves.1, leaves.2]

theorem updateView_sound (sound : ui.Sound F) (registered : x ∈ ui.shadow.registry)
    (attached : ui.LeavesLayoutOnlyAttached (.updateView x layoutOnlyAndCollapsable)) :
    ∃ next, ui.updateView x layoutOnlyAndCollapsable = some next ∧ next.Sound F := by
  unfold updateView
  rw [if_neg (not_not.mpr registered)]
  by_cases isVirtual : (ui.shadow.nodeClass x).isVirtual = true
  · rw [if_pos isVirtual]
    exact ⟨ui, rfl, sound⟩
  · rw [if_neg isVirtual]
    by_cases leaves : ui.shadow.isLayoutOnly x = true ∧ layoutOnlyAndCollapsable = false
    · rw [handleUpdateView_of_leaves leaves]
      cases above : ui.shadow.parent x with
      | some =>
        obtain ⟨next, done, soundNext, -⟩ :=
          transition_sound sound leaves.1 (Bool.eq_false_iff.mpr isVirtual) above
        exact ⟨next, done, soundNext⟩
      | none =>
        rcases attached leaves.1 leaves.2 with hasParent | nothing
        · exact absurd above hasParent
        · obtain ⟨next, done, soundNext, -⟩ :=
            transition_detached_sound sound leaves.1 above nothing
          exact ⟨next, done, soundNext⟩
    · obtain ⟨_, done, soundNext, -⟩ := handleUpdateView_sound sound leaves
      exact ⟨_, done, soundNext⟩

/-! ### Runs -/

/-- The native list of every node that hosts native children is its flattened subtree, every
count is the number of native nodes below, and the operations lead to these lists. -/
structure FlattenedAs (ui : UIImplementation) (F : Forest Tag) : Prop where
  links : ui.shadow.children = F.children
  nativeChildren : ∀ node, ui.shadow.getNativeKind node = .parent →
    ui.native.nativeChildren node = content ui.shadow.roles F node
  totals : ∀ node, ui.shadow.totalNativeChildren node = (content ui.shadow.roles F node).length
  replayed : Runs.run UIOperation.replay (fun _ => []) ui.native.operations =
    some ui.native.nativeChildren

theorem Sound.flattenedAs (sound : ui.Sound F) : ui.FlattenedAs F where
  links := sound.valid.children
  nativeChildren _ isParent := sound.mirrors.list_of_host (ShadowTree.roles_hosts.mpr isParent)
  totals node := (sound.valid.contribution_eq node).2
  replayed := sound.consistent.replayed

theorem step_sound {event : UIEvent} (sound : ui.Sound F) (wellFormed : ui.WellFormed event)
    (attached : ui.LeavesLayoutOnlyAttached event) :
    ∃ next, ui.step event = some next ∧ ∃ G, next.Sound G := by
  cases event with
  | createView tag nodeClass layoutOnlyAndCollapsable =>
    obtain ⟨next, done, soundNext, -⟩ :=
      createView_sound nodeClass layoutOnlyAndCollapsable sound wellFormed
    exact ⟨next, done, F, soundNext⟩
  | updateView tag layoutOnlyAndCollapsable =>
    obtain ⟨next, done, soundNext⟩ := updateView_sound sound wellFormed attached
    exact ⟨next, done, F, soundNext⟩
  | setChildren tag =>
    obtain ⟨next, G, done, soundNext, -⟩ := setChildren_sound sound wellFormed.1 wellFormed.2
    exact ⟨next, done, G, soundNext⟩
  | manageChildren tag =>
    obtain ⟨next, G, done, soundNext, -⟩ :=
      manageChildren_sound sound wellFormed.1 wellFormed.2.1 wellFormed.2.2
    exact ⟨next, done, G, soundNext⟩

/-- **The native hierarchy is the flattened shadow tree** after every sequence of well-formed
calls in which a node that stops being layout-only has a parent, or nothing to host. -/
theorem run_flattened {roots : Finset Tag} {events : List UIEvent} (along : Runs.Along step
      (fun ui event => ui.WellFormed event ∧ ui.LeavesLayoutOnlyAttached event)
      (initial roots) events) :
    ∃ final, Runs.run step (initial roots) events = some final ∧ ∃ F, final.FlattenedAs F := by
  have steps : ∀ ui event, (∃ F, Sound ui F) →
      ui.WellFormed event ∧ ui.LeavesLayoutOnlyAttached event →
      ∃ next, ui.step event = some next ∧ ∃ G, next.Sound G := by
    rintro ui event ⟨F, sound⟩ ⟨wellFormed, attached⟩
    exact step_sound sound wellFormed attached
  obtain ⟨final, ran, F, sound⟩ := Runs.run_progress steps ⟨discrete Tag, initial_sound roots⟩ along
  exact ⟨final, ran, F, sound.flattenedAs⟩

def createNested : List UIEvent :=
  [.createView 2 { isView := true } true, .createView 3 { isView := true } false,
    .setChildren 2 [3]]

def attachThenUpdate : List UIEvent := createNested ++ [.setChildren 1 [2], .updateView 2 false]

def updateThenAttach : List UIEvent := createNested ++ [.updateView 2 false, .setChildren 1 [2]]

theorem run_flattened_attached :
    ∃ final, Runs.run step (initial {1}) attachThenUpdate = some final ∧ ∃ F, final.FlattenedAs F :=
  run_flattened (by decide)

theorem not_flattenedAs {p c : Tag} (children : ui.shadow.children p = [c])
    (isParent : ui.shadow.getNativeKind p = .parent)
    (childIsParent : ui.shadow.getNativeKind c = .parent)
    (empty : ui.native.nativeChildren p = []) : ¬ ui.FlattenedAs F := by
  intro flattened
  have list := flattened.nativeChildren p isParent
  rw [content, ← flattened.links, children, flatMap_singleton,
    pieces_of_host (ShadowTree.roles_hosts.mpr childIsParent), empty] at list
  cases list

theorem updateThenAttach_not_flattened : Runs.Along step WellFormed (initial {1}) updateThenAttach ∧
      ∃ final, Runs.run step (initial {1}) updateThenAttach = some final ∧
        final.shadow.parent 2 = some 1 ∧ ∀ F, ¬ final.FlattenedAs F := by
  refine ⟨by decide, _, rfl, by decide, ?_⟩
  intro F
  exact not_flattenedAs (p := 2) (c := 3) (by decide) (by decide) (by decide) (by decide)

end UIImplementation

end ReactNative


