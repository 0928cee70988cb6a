import ReactNative.UIManager.FlattenedHierarchy

/-! Nodes in the registry that have a native kind have a view: it has been created and has not been
deleted since. This fails for a node that stops being layout-only while it has no parent, since only
its kind changes then. -/
namespace ReactNative

open LinkedForest Forest NativeTree List Function

namespace UIOperation

variable {roots : Finset Tag} {operations log : List UIOperation}

/-- The view is a root view or has been created, and it has not been deleted since. -/
def CreatedBefore (roots : Finset Tag) (operations : List UIOperation) (tag : Tag) : Prop :=
  (∃ earlier later, operations = earlier ++ .createView tag :: later ∧
    ∀ operation ∈ later, tag ∉ operation.deletes) ∨
  (tag ∈ roots ∧ ∀ operation ∈ operations, tag ∉ operation.deletes)

/-- Every operation uses only views that exist when it is executed. -/
def UsesExisting (roots : Finset Tag) (operations : List UIOperation) : Prop :=
  ∀ earlier operation later, operations = earlier ++ operation :: later →
    ∀ tag ∈ operation.uses, CreatedBefore roots earlier tag

theorem createdBefore_self (tag : Tag) : CreatedBefore roots (operations ++ [.createView tag]) tag :=
  .inl ⟨operations, [], rfl, by simp⟩

theorem CreatedBefore.concat {operation : UIOperation} {tag : Tag}
    (created : CreatedBefore roots operations tag) (kept : tag ∉ operation.deletes) :
    CreatedBefore roots (operations ++ [operation]) tag := by
  rcases created with ⟨earlier, later, rfl, notDeleted⟩ | ⟨isRoot, notDeleted⟩
  · refine .inl ⟨earlier, later ++ [operation], by simp, ?_⟩
    intro other member
    rcases mem_append.mp member with isLater | isLast
    · exact notDeleted other isLater
    · rw [mem_singleton.mp isLast]
      exact kept
  · refine .inr ⟨isRoot, ?_⟩
    intro other member
    rcases mem_append.mp member with isEarlier | isLast
    · exact notDeleted other isEarlier
    · rw [mem_singleton.mp isLast]
      exact kept

theorem CreatedBefore.mem {tag : Tag} (created : CreatedBefore roots operations tag) :
    .createView tag ∈ operations ∨ tag ∈ roots := by
  rcases created with ⟨-, -, rfl, -⟩ | ⟨isRoot, -⟩
  · exact .inl (by simp)
  · exact .inr isRoot

theorem UsesExisting.concat {operation : UIOperation} (existing : UsesExisting roots operations)
    (created : ∀ tag ∈ operation.uses, CreatedBefore roots operations tag) :
    UsesExisting roots (operations ++ [operation]) := by
  intro earlier other later split
  rcases eq_nil_or_concat later with rfl | ⟨front, _, rfl⟩
  · obtain ⟨rfl, same⟩ := append_inj' split rfl
    cases same
    exact created
  · rw [concat_eq_append, ← cons_append, ← append_assoc] at split
    exact existing earlier other front (append_inj' split rfl).1

theorem UsesExisting.append {views : Tag → Prop} (existing : UsesExisting roots operations)
    (created : ∀ tag, views tag → CreatedBefore roots operations tag)
    (respects : ∀ operation ∈ log, (∀ tag ∈ operation.uses, views tag) ∧
      ∀ tag ∈ operation.deletes, ¬ views tag) :
    UsesExisting roots (operations ++ log) ∧
      ∀ tag, views tag → CreatedBefore roots (operations ++ log) tag := by
  induction log generalizing operations with
  | nil =>
    rw [append_nil]
    exact ⟨existing, created⟩
  | cons operation _ ih =>
    obtain ⟨uses, deletes⟩ := respects operation mem_cons_self
    have next := ih (existing.concat fun tag isUsed => created tag (uses tag isUsed))
      (fun tag isView => (created tag isView).concat fun isDeleted => deletes tag isDeleted isView)
      (fun later member => respects later (mem_cons_of_mem operation member))
    rwa [append_assoc, singleton_append] at next

end UIOperation

namespace UIImplementation

open UIOperation

variable {ui : UIImplementation} {F G : Forest Tag} {roots : Finset Tag} {registry : Finset Tag}

/-! ### Whole trees are registered -/

def RegistersTrees (registry : Finset Tag) (F : Forest Tag) : Prop :=
  ∀ p c, c ∈ F.children p → (c ∈ registry ↔ p ∈ registry)

theorem RegistersTrees.descends (trees : RegistersTrees registry F) {a n : Tag}
    (descends : F.Descends a n) : n ∈ registry ↔ a ∈ registry := by
  induction descends with
  | refl => rfl
  | tail _ child ih => rw [trees _ _ child, ih]

theorem RegistersTrees.around (trees : RegistersTrees registry F) {p n : Tag}
    (registered : p ∈ registry) (related : F.Descends p n ∨ F.Descends n p) : n ∈ registry := by
  rcases related with below | above
  · exact (trees.descends below).mpr registered
  · exact (trees.descends above).mp registered

theorem RegistersTrees.replace {m : Tag} {new : List Tag} (trees : RegistersTrees registry F)
    (children : G.children = Function.update F.children m new) (registered : m ∈ registry)
    (all : ∀ c ∈ new, c ∈ registry) : RegistersTrees registry G := by
  intro p c child
  rw [children] at child
  by_cases isM : p = m
  · subst isM
    rw [update_self] at child
    exact iff_of_true (all c child) registered
  · rw [update_of_ne isM] at child
    exact trees p c child

/-! ### Calls -/

/-- Nodes in the registry with a native kind have views, and all views that have been used
existed. -/
structure Supplied (roots : Finset Tag) (ui : UIImplementation) (F : Forest Tag) : Prop where
  sound : ui.Sound F
  trees : RegistersTrees ui.shadow.registry F
  created : ∀ n, n ∈ ui.shadow.registry ∧ ui.shadow.getNativeKind n ≠ .none →
    CreatedBefore roots ui.native.operations n
  existing : UsesExisting roots ui.native.operations

theorem initial_supplied (roots : Finset Tag) : Supplied roots (initial roots) (discrete Tag) where
  sound := initial_sound roots
  trees := by
    intro p c child
    cases child
  created := by
    rintro n ⟨registered, -⟩
    exact .inr ⟨registered, by simp [initial]⟩
  existing := by
    intro earlier operation later split
    simp [initial] at split

theorem existing_of_around {shadow : ShadowTree} {native after : NativeTree} {m : Tag}
    {deleted : Tag → Prop} (trees : RegistersTrees shadow.registry G)
    (created : ∀ n, n ∈ shadow.registry ∧ shadow.getNativeKind n ≠ .none →
      CreatedBefore roots native.operations n)
    (existing : UsesExisting roots native.operations) (registered : m ∈ shadow.registry)
    (gone : ∀ n, deleted n → n ∉ shadow.registry)
    (logs : Logs (Around shadow G m deleted) native after) :
    (∀ n, n ∈ shadow.registry ∧ shadow.getNativeKind n ≠ .none →
      CreatedBefore roots after.operations n) ∧ UsesExisting roots after.operations := by
  obtain ⟨_, ops, each⟩ := logs
  rw [ops]
  refine And.symm (existing.append created ?_)
  intro operation member
  obtain ⟨uses, deletes⟩ := each operation member
  constructor
  · intro tag isUsed
    obtain ⟨isShown, related⟩ := uses tag isUsed
    exact ⟨trees.around registered related, isShown⟩
  · rintro tag isDeleted ⟨isRegistered, -⟩
    exact gone tag (deletes tag isDeleted) isRegistered

theorem createView_supplied {tag : Tag} (nodeClass : ShadowNodeClass)
    (layoutOnlyAndCollapsable : Bool) (supplied : Supplied roots ui F)
    (fresh : tag ∉ ui.shadow.tags) :
    ∃ next, ui.createView tag nodeClass layoutOnlyAndCollapsable = some next ∧
      Supplied roots next F := by
  obtain ⟨next, done, sound, registry, kinds, ops⟩ :=
    createView_sound nodeClass layoutOnlyAndCollapsable supplied.sound fresh
  refine ⟨next, done, sound, ?_, ?_, ?_⟩
  · -- The new node has no links.
    intro p c child
    obtain ⟨knownC, knownP⟩ := supplied.sound.valid.known p c child
    have differentC : c ≠ tag := fun same => fresh (same ▸ knownC)
    have differentP : p ≠ tag := fun same => fresh (same ▸ knownP)
    rw [registry, Finset.mem_insert, Finset.mem_insert, or_iff_right differentC,
      or_iff_right differentP]
    exact supplied.trees p c child
  · rintro n ⟨registered, isShown⟩
    rw [registry, Finset.mem_insert] at registered
    rw [ops]
    by_cases isTag : n = tag
    · subst isTag
      rw [if_neg isShown]
      exact createdBefore_self n
    · rw [kinds n isTag] at isShown
      have before := supplied.created n ⟨registered.resolve_left isTag, isShown⟩
      split
      · rw [append_nil]
        exact before
      · exact before.concat (by simp [deletes])
  · rw [ops]
    split
    · rw [append_nil]
      exact supplied.existing
    · exact supplied.existing.concat (by simp [uses])

/-- A node that stops being layout-only has a parent. -/
def LeavesLayoutOnlyWithParent (ui : UIImplementation) : UIEvent → Prop
  | .updateView tag layoutOnlyAndCollapsable =>
    ui.shadow.isLayoutOnly tag = true → layoutOnlyAndCollapsable = false →
      ui.shadow.parent tag ≠ none
  | _ => True

instance (ui : UIImplementation) : ∀ event, Decidable (ui.LeavesLayoutOnlyWithParent event)
  | .updateView tag layoutOnlyAndCollapsable =>
    inferInstanceAs (Decidable (ui.shadow.isLayoutOnly tag = true →
      layoutOnlyAndCollapsable = false → ui.shadow.parent tag ≠ none))
  | .createView _ _ _ | .setChildren _ _ | .manageChildren _ _ => .isTrue trivial

section

variable (supplied : Supplied roots ui F)
include supplied

theorem transition_supplied {x p : Tag} (registered : x ∈ ui.shadow.registry)
    (layoutOnly : ui.shadow.isLayoutOnly x = true)
    (notVirtual : (ui.shadow.nodeClass x).isVirtual = false) (above : ui.shadow.parent x = some p) :
    ∃ next, ui.transitionLayoutOnlyViewToNativeView x = some next ∧ Supplied roots next F := by
  obtain ⟨next, done, sound, registry, kinds, -, _, logsBefore, logsAfter⟩ :=
    transition_sound supplied.sound layoutOnly notVirtual above
  have child := (supplied.sound.valid.parent x p).mp above
  have registeredP : p ∈ ui.shadow.registry := (supplied.trees p x child).mp registered
  obtain ⟨createdBefore, existingBefore⟩ := existing_of_around supplied.trees supplied.created
    supplied.existing registeredP (fun n impossible => impossible.elim) logsBefore
  have trees : RegistersTrees next.shadow.registry F := by
    rw [registry]
    exact supplied.trees
  obtain ⟨created, existing⟩ := existing_of_around trees
    (by
      rintro n ⟨isRegistered, isShown⟩
      rw [registry] at isRegistered
      by_cases isX : n = x
      · subst isX
        exact createdBefore_self n
      · rw [kinds n isX] at isShown
        exact (createdBefore n ⟨isRegistered, isShown⟩).concat (by simp [deletes]))
    (existingBefore.concat (by simp [uses])) (by rw [registry]; exact registeredP)
    (fun n impossible => impossible.elim) logsAfter
  exact ⟨next, done, sound, trees, created, existing⟩

theorem updateView_supplied {x : Tag} {layoutOnlyAndCollapsable : Bool}
    (registered : x ∈ ui.shadow.registry)
    (attached : ui.LeavesLayoutOnlyWithParent (.updateView x layoutOnlyAndCollapsable)) :
    ∃ next, ui.updateView x layoutOnlyAndCollapsable = some next ∧ Supplied roots next F := by
  unfold updateView
  rw [if_neg (not_not.mpr registered)]
  by_cases isVirtual : (ui.shadow.nodeClass x).isVirtual = true
  · rw [if_pos isVirtual]
    exact ⟨ui, rfl, supplied⟩
  · rw [if_neg isVirtual]
    by_cases leaves : ui.shadow.isLayoutOnly x = true ∧ layoutOnlyAndCollapsable = false
    · rw [handleUpdateView_of_leaves leaves]
      obtain ⟨p, above⟩ := Option.ne_none_iff_exists'.mp (attached leaves.1 leaves.2)
      exact transition_supplied supplied registered leaves.1 (Bool.eq_false_iff.mpr isVirtual) above
    · obtain ⟨_, done, sound, ops⟩ := handleUpdateView_sound supplied.sound leaves
      have appended : ∀ operation ∈
          (if ui.shadow.isLayoutOnly x then [] else [UIOperation.updateProperties x]),
          (∀ tag ∈ operation.uses, tag ∈ ui.shadow.registry ∧ ui.shadow.getNativeKind tag ≠ .none) ∧
          ∀ tag ∈ operation.deletes, ¬ (tag ∈ ui.shadow.registry ∧
            ui.shadow.getNativeKind tag ≠ .none) := by
        intro operation member
        split at member
        · cases member
        · rename_i notLayoutOnly
          rw [mem_singleton] at member
          subst member
          refine ⟨?_, by simp [deletes]⟩
          intro tag isUsed
          rw [uses, mem_singleton] at isUsed
          subst isUsed
          refine ⟨registered, ?_⟩
          rw [ShadowTree.getNativeKind, if_neg (by simp [isVirtual, notLayoutOnly])]
          split <;> decide
      obtain ⟨existing, created⟩ := supplied.existing.append supplied.created appended
      rw [← ops] at existing created
      exact ⟨_, done, sound, supplied.trees, created, existing⟩

theorem setChildren_supplied {m : Tag} {tags : List Tag} (registered : m ∈ ui.shadow.registry)
    (attaches : ui.shadow.Attaches m [] tags) :
    ∃ next, ui.setChildren m tags = some next ∧ ∃ G, Supplied roots next G := by
  obtain ⟨next, G, done, sound, same, children, logs⟩ :=
    setChildren_sound supplied.sound registered attaches
  have trees : RegistersTrees next.shadow.registry G := by
    rw [same.registry]
    apply supplied.trees.replace children registered
    intro c member
    rcases mem_append.mp member with isNew | isOld
    · exact attaches.registered c isNew
    · exact (supplied.trees m c isOld).mpr registered
  obtain ⟨created, existing⟩ := existing_of_around trees
    (by rw [same.registry, same.kind]; exact supplied.created) supplied.existing
    (by rw [same.registry]; exact registered) (fun n impossible => impossible.elim) logs
  exact ⟨next, done, G, sound, trees, created, existing⟩

theorem manageChildren_supplied {m : Tag} {call : ManageShadowChildren}
    (registered : m ∈ ui.shadow.registry) (describes : call.Describes (ui.shadow.children m))
    (attaches : ui.shadow.Attaches m call.tagsToRemove (call.viewsToAdd.map ViewAtIndex.tag)) :
    ∃ next, ui.manageChildren m call = some next ∧ ∃ G, Supplied roots next G := by
  obtain ⟨next, G, done, sound, kinds, children, members, logs⟩ :=
    manageChildren_sound supplied.sound registered describes attaches
  have other : ∀ n, n ≠ m → F.children n = G.children n := by
    intro n different
    rw [children, update_of_ne different]
  have deletedChild : ∀ x ∈ call.tagsToDelete, x ∈ F.children m := by
    intro x member
    have isRemoved := (describes.tagsToDelete x member).1
    rw [← supplied.sound.valid.children]
    exact HiddenEntries.mem_of_mem_entriesAt (describes.tagsToRemove.mem_iff.mp isRemoved)
  have deletedNoParent : ∀ x ∈ call.tagsToDelete, ∀ p, x ∉ G.children p := by
    intro x member p child
    obtain ⟨isRemoved, notAdded⟩ := describes.tagsToDelete x member
    by_cases isM : p = m
    · subst isM
      rw [children, update_self] at child
      rcases mem_addViews child with isLeft | isAdded
      · rw [mem_filter, decide_eq_true_iff] at isLeft
        exact isLeft.2 isRemoved
      · exact notAdded isAdded
    · rw [← other p isM] at child
      exact isM (F.unique child (deletedChild x member))
  have allTrees : RegistersTrees ui.shadow.registry G := by
    apply supplied.trees.replace children registered
    intro c member
    rcases mem_addViews member with isLeft | isAdded
    · exact (supplied.trees m c (mem_filter.mp isLeft).1).mpr registered
    · exact attaches.registered c isAdded
  have trees : RegistersTrees next.shadow.registry G := by
    intro p c child
    rw [members, members, allTrees p c child]
    apply and_congr_right
    intro _
    apply forall₂_congr
    intro x member
    apply not_congr
    constructor
    · intro below
      apply below.parent _ child
      rintro rfl
      exact deletedNoParent c member p child
    · intro below
      exact below.child child
  have stays : m ∈ next.shadow.registry := by
    rw [members]
    refine ⟨registered, ?_⟩
    intro x member below
    exact not_descends_child (deletedChild x member) (descends_to other below)
  obtain ⟨created, existing⟩ := existing_of_around trees
    (by
      rintro n ⟨isRegistered, isShown⟩
      rw [kinds] at isShown
      exact supplied.created n ⟨((members n).mp isRegistered).1, isShown⟩)
    supplied.existing stays
    (by
      rintro n ⟨x, member, below⟩ isRegistered
      exact ((members n).mp isRegistered).2 x member below)
    logs
  exact ⟨next, done, G, sound, trees, created, existing⟩

theorem step_supplied {event : UIEvent} (wellFormed : ui.WellFormed event)
    (attached : ui.LeavesLayoutOnlyWithParent event) :
    ∃ next, ui.step event = some next ∧ ∃ G, Supplied roots next G := by
  cases event with
  | createView tag nodeClass layoutOnlyAndCollapsable =>
    obtain ⟨next, done, suppliedNext⟩ :=
      createView_supplied nodeClass layoutOnlyAndCollapsable supplied wellFormed
    exact ⟨next, done, F, suppliedNext⟩
  | updateView tag layoutOnlyAndCollapsable =>
    obtain ⟨next, done, suppliedNext⟩ := updateView_supplied supplied wellFormed attached
    exact ⟨next, done, F, suppliedNext⟩
  | setChildren tag =>
    exact setChildren_supplied supplied wellFormed.1 wellFormed.2
  | manageChildren tag =>
    exact manageChildren_supplied supplied wellFormed.1 wellFormed.2.1 wellFormed.2.2

end

/-- **Views exist before they are used** in every sequence of well-formed calls in which a
node that stops being layout-only has a parent. -/
theorem run_usesExisting {roots : Finset Tag} {events : List UIEvent} (along : Runs.Along step
      (fun ui event => ui.WellFormed event ∧ ui.LeavesLayoutOnlyWithParent event)
      (initial roots) events) :
    ∃ final, Runs.run step (initial roots) events = some final ∧
      UsesExisting roots final.native.operations := by
  have steps : ∀ ui event, (∃ F, Supplied roots ui F) →
      ui.WellFormed event ∧ ui.LeavesLayoutOnlyWithParent event →
      ∃ next, ui.step event = some next ∧ ∃ G, Supplied roots next G := by
    rintro ui event ⟨F, supplied⟩ ⟨wellFormed, attached⟩
    exact step_supplied supplied wellFormed attached
  obtain ⟨final, ran, F, supplied⟩ :=
    Runs.run_progress steps ⟨discrete Tag, initial_supplied roots⟩ along
  exact ⟨final, ran, supplied.existing⟩

theorem run_usesExisting_attached :
    ∃ final, Runs.run step (initial {1}) attachThenUpdate = some final ∧
      UsesExisting {1} final.native.operations :=
  run_usesExisting (by decide)

theorem updateThenAttach_uses_missing : Runs.Along step WellFormed (initial {1}) updateThenAttach ∧
      ∃ final, Runs.run step (initial {1}) updateThenAttach = some final ∧
        ¬ UsesExisting {1} final.native.operations := by
  refine ⟨by decide, _, rfl, ?_⟩
  intro existing
  have created := existing [.createView 3] (.manageChildren 1 { viewsToAdd := [⟨2, 0⟩] }) [] rfl 2
    (by simp [uses])
  rcases created.mem with isCreated | isRoot
  · simp at isCreated
  · revert isRoot
    decide

end UIImplementation

end ReactNative

