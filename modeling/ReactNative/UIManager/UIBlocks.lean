import ReactNative.UIManager.RCTUIManager

/-! The shadow views follow the calls at once, the views when the UI blocks run. -/
namespace ReactNative

open PlacedEntries Runs RCTRegistry List

inductive RCTUIBlock where
  | createView (reactTag : Tag)
  | setChildren (containerTag : Tag) (reactTags : List Tag)
  | manageChildren (depth : ℕ) (containerTag : Tag) (arrays : ManageChildrenArrays)

def RCTUIBlock.perform : RCTUIBlock → RCTRegistry → Option RCTRegistry
  | .createView reactTag, registry => some (registry.createView reactTag)
  | .setChildren containerTag reactTags, registry => registry.setChildren containerTag reactTags
  | .manageChildren depth containerTag arrays, registry =>
    registry.manageChildren depth containerTag arrays

/-- The blocks that create views wait in the main queue and among the UI blocks; the second one of
the two that runs does nothing. -/
structure RCTUIManager where
  shadowViewRegistry : RCTRegistry := {}
  viewRegistry : RCTRegistry := {}
  /-- The tags of all components that were created. -/
  reactTags : Finset Tag := ∅
  createViewBlocks : List Tag := []
  pendingUIBlocks : List RCTUIBlock := []

inductive RCTUIEvent where
  | createView (reactTag : Tag)
  | setChildren (containerTag : Tag) (reactTags : List Tag)
  | manageChildren (containerTag : Tag) (arrays : ManageChildrenArrays)
  | runCreateViewBlock
  | runUIBlock

namespace RCTUIManager

variable (manager : RCTUIManager)

/-- A call changes the shadow views, and adds a UI block that does the same to the views. -/
def call (block : RCTUIBlock) : Option RCTUIManager :=
  match block.perform manager.shadowViewRegistry with
  | none => none
  | some registry =>
    some { manager with
      shadowViewRegistry := registry
      pendingUIBlocks := manager.pendingUIBlocks ++ [block] }

def createView (manager : RCTUIManager) (reactTag : Tag) : RCTUIManager :=
  { manager with
    shadowViewRegistry := manager.shadowViewRegistry.createView reactTag
    reactTags := insert reactTag manager.reactTags
    createViewBlocks := manager.createViewBlocks ++ [reactTag]
    pendingUIBlocks := manager.pendingUIBlocks ++ [.createView reactTag] }

def runUIBlock : RCTUIBlock → Option RCTUIManager
  | .createView reactTag =>
    if reactTag ∈ manager.createViewBlocks then
      some { manager with
        viewRegistry := manager.viewRegistry.createView reactTag
        createViewBlocks := manager.createViewBlocks.filter (· ≠ reactTag) }
    else some manager
  | block =>
    match block.perform manager.viewRegistry with
    | none => none
    | some registry => some { manager with viewRegistry := registry }

/-- A tree is not deeper than there are components. -/
def step : RCTUIEvent → Option RCTUIManager
  | .createView reactTag => some (manager.createView reactTag)
  | .setChildren containerTag reactTags => manager.call (.setChildren containerTag reactTags)
  | .manageChildren containerTag arrays =>
    manager.call (.manageChildren (manager.reactTags.card + 1) containerTag arrays)
  | .runCreateViewBlock =>
    match manager.createViewBlocks with
    | [] => none
    | reactTag :: rest => some { manager with
        viewRegistry := manager.viewRegistry.createView reactTag
        createViewBlocks := rest }
  | .runUIBlock =>
    match manager.pendingUIBlocks with
    | [] => none
    | block :: rest => ({ manager with pendingUIBlocks := rest } : RCTUIManager).runUIBlock block

/-- The class of a component decides whether it can have subviews; no view asks it. -/
def initial (rootTags : Finset Tag) (canHaveSubviews : Tag → Bool) : RCTUIManager where
  shadowViewRegistry := { registered := rootTags, canHaveSubviews }
  viewRegistry := { registered := rootTags }
  reactTags := rootTags

/-- Tags are not used again, and calls name components that were created. -/
def NamesCreated : RCTUIEvent → Prop
  | .createView reactTag => reactTag ∉ manager.reactTags
  | .setChildren containerTag reactTags =>
    containerTag ∈ manager.reactTags ∧ ∀ tag ∈ reactTags, tag ∈ manager.reactTags
  | .manageChildren containerTag arrays =>
    containerTag ∈ manager.reactTags ∧ ∀ tag ∈ arrays.addChildTags, tag ∈ manager.reactTags
  | .runCreateViewBlock | .runUIBlock => True

instance (manager : RCTUIManager) : DecidablePred manager.NamesCreated
  | .createView reactTag => inferInstanceAs (Decidable (reactTag ∉ manager.reactTags))
  | .setChildren containerTag reactTags => inferInstanceAs (Decidable
      (containerTag ∈ manager.reactTags ∧ ∀ tag ∈ reactTags, tag ∈ manager.reactTags))
  | .manageChildren containerTag arrays => inferInstanceAs (Decidable
      (containerTag ∈ manager.reactTags ∧ ∀ tag ∈ arrays.addChildTags, tag ∈ manager.reactTags))
  | .runCreateViewBlock => inferInstanceAs (Decidable True)
  | .runUIBlock => inferInstanceAs (Decidable True)

end RCTUIManager

/-! ### Registries that differ in components that nothing names -/

structure Shows (known : Finset Tag) (base views : RCTRegistry) : Prop where
  subviews : views.reactSubviews = base.reactSubviews
  lookups : ∀ tag ∈ known, (tag ∈ views.registered ↔ tag ∈ base.registered)
  closed : ∀ container, ∀ subview ∈ base.reactSubviews container, subview ∈ known
  empty : ∀ container, container ∉ known → base.reactSubviews container = []
  canHave : ∀ container, base.canHaveSubviews container = true →
    views.canHaveSubviews container = true

namespace Shows

variable {known : Finset Tag} {base views : RCTRegistry}

theorem traverse_known (follows : Shows known base views) {view : Tag} (isKnown : view ∈ known)
    (depth : ℕ) : ∀ tag ∈ traverse base.reactSubviews depth view, tag ∈ known := by
  induction depth generalizing view with
  | zero => exact fun tag member => absurd member not_mem_nil
  | succ depth ih =>
    intro tag member
    rw [RCTRegistry.traverse, mem_cons, mem_flatMap] at member
    rcases member with rfl | ⟨subview, isSubview, below⟩
    · exact isKnown
    · exact ih (follows.closed view subview isSubview) tag below

variable {container : Tag}

theorem withSubviews (follows : Shows known base views) {subviews : List Tag}
    (isKnown : container ∈ known) (areKnown : ∀ subview ∈ subviews, subview ∈ known) :
    Shows known (base.withSubviews container subviews) (views.withSubviews container subviews) := by
  constructor
  · rw [RCTRegistry.withSubviews, RCTRegistry.withSubviews, follows.subviews]
  · exact follows.lookups
  · intro other subview member
    by_cases same : other = container
    · subst same
      rw [withSubviews_self] at member
      exact areKnown subview member
    · rw [withSubviews_of_ne base same] at member
      exact follows.closed other subview member
  · intro other unknown
    have differs : other ≠ container := fun same => unknown (same ▸ isKnown)
    rw [withSubviews_of_ne base differs]
    exact follows.empty other unknown
  · exact follows.canHave

theorem removeChildren (follows : Shows known base views) (children : List Tag)
    (isKnown : container ∈ known) :
    Shows known (RCTRegistry.removeChildren children container base)
      (RCTRegistry.removeChildren children container views) := by
  rw [removeChildren_eq, removeChildren_eq, follows.subviews]
  apply follows.withSubviews isKnown
  intro subview member
  exact follows.closed container subview (mem_filter.mp member).1

theorem purgeChildren {children : List Tag} (follows : Shows known base views) (depth : ℕ)
    (areKnown : ∀ child ∈ children, child ∈ known) :
    Shows known (RCTRegistry.purgeChildren depth children base)
        (RCTRegistry.purgeChildren depth children views) ∧
      ∀ tag, tag ∉ known → tag ∈ views.registered →
        tag ∈ (RCTRegistry.purgeChildren depth children views).registered := by
  induction children generalizing base views with
  | nil => exact ⟨follows, fun _ _ member => member⟩
  | cons child _ ih =>
    have isKnown := areKnown child mem_cons_self
    have restKnown := fun other member => areKnown other (mem_cons_of_mem child member)
    rw [RCTRegistry.purgeChildren, RCTRegistry.purgeChildren, foldl_cons, foldl_cons,
      ← RCTRegistry.purgeChildren, ← RCTRegistry.purgeChildren]
    -- What is below the child is below it among the views as well, and known.
    by_cases registered : child ∈ base.registered
    · have registeredViews := (follows.lookups child isKnown).mpr registered
      rw [if_neg (not_not.mpr registered), if_neg (not_not.mpr registeredViews)]
      have next : Shows known
          { base with registered :=
              base.registered \ (traverse base.reactSubviews depth child).toFinset }
          { views with registered :=
              views.registered \ (traverse views.reactSubviews depth child).toFinset } := by
        refine ⟨follows.subviews, ?_, follows.closed, follows.empty, follows.canHave⟩
        intro tag member
        simp only [Finset.mem_sdiff, follows.subviews, follows.lookups tag member]
      obtain ⟨final, early⟩ := ih next restKnown
      refine ⟨final, ?_⟩
      intro tag unknown member
      refine early tag unknown ?_
      rw [Finset.mem_sdiff, mem_toFinset, follows.subviews]
      exact ⟨member, fun below => unknown (follows.traverse_known isKnown depth tag below)⟩
    · have notViews := mt (follows.lookups child isKnown).mp registered
      rw [if_pos registered, if_pos notViews]
      exact ih follows restKnown

def AreKnown (known : Finset Tag) (placed : List (ℕ × Tag)) : Prop :=
  ∀ place ∈ placed, place.2 ∈ known

variable {base' : RCTRegistry}

theorem foldlM_insertReactSubview {placed : List (ℕ × Tag)}
    (follows : Shows known base views) (isKnown : container ∈ known)
    (areKnown : AreKnown known placed)
    (done : placed.foldlM (fun registry place =>
      insertReactSubview registry container place.2 place.1) base = some base') :
    ∃ views', placed.foldlM (fun registry place =>
        insertReactSubview registry container place.2 place.1) views = some views' ∧
      Shows known base' views' ∧ views'.registered = views.registered := by
  induction placed generalizing base views with
  | nil =>
    cases done
    exact ⟨views, rfl, follows, rfl⟩
  | cons place _ ih =>
    rw [foldlM_cons, Option.bind_eq_bind, Option.bind_eq_some_iff] at done
    obtain ⟨_, inserted, done⟩ := done
    unfold insertReactSubview at inserted
    split at inserted
    next => cases inserted
    next inserts =>
      obtain ⟨canHave, inRange⟩ := not_or.mp inserts
      cases inserted
      have insertedKnown : ∀ subview ∈ (base.reactSubviews container).insertIdx place.1 place.2,
          subview ∈ known := by
        intro subview member
        rcases eq_or_mem_of_mem_insertIdx member with rfl | present
        · exact areKnown place mem_cons_self
        · exact follows.closed container subview present
      have next := follows.withSubviews isKnown insertedKnown
      obtain ⟨views', doneViews, final, same⟩ := ih next
        (fun other member => areKnown other (mem_cons_of_mem place member)) done
      rw [← follows.subviews] at inRange doneViews
      have takes : ¬ views.canHaveSubviews container = false := by
        rw [follows.canHave container (Bool.eq_true_of_not_eq_false canHave)]
        exact Bool.true_eq_false_eq_False
      rw [foldlM_cons, insertReactSubview, if_neg (not_or.mpr ⟨takes, inRange⟩)]
      exact ⟨views', doneViews, final, same⟩

theorem mem_setObject {destinations : List (ℕ × Tag)} {index : ℕ} {view : Tag}
    {destination : ℕ × Tag} (member : destination ∈ setObject destinations index view) :
    destination ∈ destinations ∨ destination.2 = view := by
  rcases mem_append.mp member with kept | new
  · exact .inl (mem_filter.mp kept).1
  · rw [mem_singleton.mp new]
    exact .inr rfl

section

variable (follows : Shows known base views)
include follows

theorem destinationsToChildrenToAdd {moved : List Tag} {arrays : ManageChildrenArrays}
    (movedKnown : ∀ tag ∈ moved, tag ∈ known)
    (addsKnown : ∀ tag ∈ arrays.addChildTags, tag ∈ known) :
    views.destinationsToChildrenToAdd moved arrays = base.destinationsToChildrenToAdd moved arrays ∧
      AreKnown known (base.destinationsToChildrenToAdd moved arrays) := by
  constructor
  · apply foldl_ext
    intro destinations add member
    simp only [follows.lookups add.2 (addsKnown add.2 (of_mem_zip member).2)]
  · -- Whatever is set in either loop is known.
    refine foldlRecOn (motive := AreKnown known) _ _ ?_ ?_
    · refine foldlRecOn (motive := AreKnown known) _ _ ?_ ?_
      · exact fun destination member => absurd member not_mem_nil
      · intro destinations each move isMove destination member
        rcases mem_setObject member with before | same
        · exact each destination before
        · rw [same]
          exact movedKnown move.2 (of_mem_zip isMove).2
    · intro destinations each add isAdd destination member
      split at member
      · rcases mem_setObject member with before | same
        · exact each destination before
        · rw [same]
          exact addsKnown add.2 (of_mem_zip isAdd).2
      · exact each destination member

theorem childrenToRemove_known {atIndices : List ℕ} {children : List Tag}
    (found : childrenToRemoveFromContainer (base.reactSubviews container) atIndices =
      some children) : ∀ child ∈ children, child ∈ known := by
  unfold childrenToRemoveFromContainer at found
  split at found
  · cases found
    exact fun child member => absurd member not_mem_nil
  · dsimp only at found
    split at found
    · cases found
    · cases found
      intro child member
      exact follows.closed container child (HiddenEntries.mem_of_mem_entriesAt member)

/-- **A call on known components does the same to the views as to the shadow views.** -/
theorem manageChildren {depth : ℕ} {arrays : ManageChildrenArrays} (isKnown : container ∈ known)
    (addsKnown : ∀ tag ∈ arrays.addChildTags, tag ∈ known)
    (done : base.manageChildren depth container arrays = some base') :
    ∃ views', views.manageChildren depth container arrays = some views' ∧ Shows known base' views' ∧
      ∀ tag, tag ∉ known → tag ∈ views.registered → tag ∈ views'.registered := by
  unfold RCTRegistry.manageChildren at done ⊢
  split at done
  next => cases done
  next sizes =>
    rw [if_neg sizes]
    simp only [follows.lookups container isKnown, follows.subviews]
    split at done
    next missing =>
      cases done
      rw [if_pos missing]
      exact ⟨views, rfl, follows, fun _ _ member => member⟩
    next registered =>
      rw [if_neg registered]
      split at done
      next permanently temporarily isPermanent isTemporary =>
        -- The children to take out are subviews, so that they are known.
        obtain ⟨purged, early⟩ := ((follows.removeChildren permanently isKnown).removeChildren
          temporarily isKnown).purgeChildren depth
            (follows.childrenToRemove_known isPermanent)
        obtain ⟨same, areKnown⟩ := purged.destinationsToChildrenToAdd
          (follows.childrenToRemove_known isTemporary) addsKnown
        rw [same]
        obtain ⟨views', doneViews, final, registeredViews⟩ := purged.foldlM_insertReactSubview
          isKnown (fun place member => areKnown place ((sortBy_perm _ _).mem_iff.mp member)) done
        refine ⟨views', doneViews, final, ?_⟩
        intro tag unknown member
        rw [registeredViews]
        refine early tag unknown ?_
        rw [removeChildren_eq, removeChildren_eq]
        exact member
      next => cases done

theorem setChildren {reactTags : List Tag} (isKnown : container ∈ known)
    (areKnown : ∀ tag ∈ reactTags, tag ∈ known)
    (done : base.setChildren container reactTags = some base') :
    ∃ views', views.setChildren container reactTags = some views' ∧ Shows known base' views' ∧
      views'.registered = views.registered := by
  unfold RCTRegistry.setChildren at done ⊢
  simp only [follows.lookups container isKnown]
  split at done
  next missing =>
    cases done
    rw [if_pos missing]
    exact ⟨views, rfl, follows, rfl⟩
  next registered =>
    rw [if_neg registered]
    -- The same tags are left out on both sides.
    have same : reactTags.filter (· ∈ views.registered) = reactTags.filter (· ∈ base.registered) := by
      apply filter_congr
      intro tag member
      exact decide_eq_decide.mpr (follows.lookups tag (areKnown tag member))
    rw [same]
    apply follows.foldlM_insertReactSubview isKnown _ done
    intro place member
    obtain ⟨view, isView, rfl⟩ := mem_map.mp member
    exact areKnown view.1 (mem_filter.mp (fst_mem_of_mem_zipIdx isView)).1

theorem createView_base {reactTag : Tag} (isNew : reactTag ∉ known)
    (early : reactTag ∈ views.registered) :
    Shows (insert reactTag known) (base.createView reactTag) views := by
  have same : (base.createView reactTag).reactSubviews = base.reactSubviews := by
    rw [RCTRegistry.createView, ← follows.empty reactTag isNew, Function.update_eq_self]
  constructor
  · rw [same, follows.subviews]
  · intro tag member
    rw [RCTRegistry.createView, Finset.mem_insert]
    rcases Finset.mem_insert.mp member with rfl | isKnown
    · exact iff_of_true early (.inl rfl)
    · have differs : tag ≠ reactTag := fun isNewTag => isNew (isNewTag ▸ isKnown)
      rw [follows.lookups tag isKnown, or_iff_right differs]
  · rw [same]
    intro container subview member
    exact Finset.mem_insert_of_mem (follows.closed container subview member)
  · rw [same]
    intro container unknown
    exact follows.empty container fun isKnown => unknown (Finset.mem_insert_of_mem isKnown)
  · exact follows.canHave

theorem createView_views {reactTag : Tag} (isNew : reactTag ∉ known) :
    Shows known base (views.createView reactTag) := by
  have same : (views.createView reactTag).reactSubviews = views.reactSubviews := by
    rw [RCTRegistry.createView, ← follows.empty reactTag isNew, ← follows.subviews,
      Function.update_eq_self]
  refine ⟨same.trans follows.subviews, ?_, follows.closed, follows.empty, follows.canHave⟩
  intro tag isKnown
  have differs : tag ≠ reactTag := fun isNewTag => isNew (isNewTag ▸ isKnown)
  rw [RCTRegistry.createView, Finset.mem_insert, or_iff_right differs, follows.lookups tag isKnown]

end

end Shows

/-! ### Blocks that are replayed -/

def RCTUIBlock.known (known : Finset Tag) : RCTUIBlock → Finset Tag
  | .createView reactTag => insert reactTag known
  | .setChildren _ _ | .manageChildren _ _ _ => known

variable (shown : RCTRegistry × Finset Tag)

def replayBlock (block : RCTUIBlock) : Option (RCTRegistry × Finset Tag) :=
  match block.perform shown.1 with
  | none => none
  | some registry => some (registry, block.known shown.2)

def NamesKnown : RCTUIBlock → Prop
  | .createView reactTag => reactTag ∉ shown.2
  | .setChildren containerTag reactTags =>
    containerTag ∈ shown.2 ∧ ∀ tag ∈ reactTags, tag ∈ shown.2
  | .manageChildren _ containerTag arrays =>
    containerTag ∈ shown.2 ∧ ∀ tag ∈ arrays.addChildTags, tag ∈ shown.2

theorem replayBlock_eq_some {shown next : RCTRegistry × Finset Tag} {block : RCTUIBlock} :
    replayBlock shown block = some next ↔
      block.perform shown.1 = some next.1 ∧ block.known shown.2 = next.2 := by
  unfold replayBlock
  cases performed : block.perform shown.1 with
  | none => simp
  | some => simp [Prod.ext_iff]

theorem notKnown_of_pending {shown last : RCTRegistry × Finset Tag} {blocks : List RCTUIBlock}
    {reactTag : Tag} (ran : run replayBlock shown blocks = some last)
    (along : Along replayBlock NamesKnown shown blocks) (member : .createView reactTag ∈ blocks) :
    reactTag ∉ shown.2 := by
  induction blocks generalizing shown with
  | nil => cases member
  | cons block _ ih =>
    obtain ⟨next, replayed, ranRest⟩ := run_cons.mp ran
    rcases mem_cons.mp member with rfl | later
    · exact along.1
    · intro isKnown
      apply ih ranRest (along.2 next replayed) later
      rw [← (replayBlock_eq_some.mp replayed).2]
      cases block with
      | createView => exact Finset.mem_insert_of_mem isKnown
      | setChildren => exact isKnown
      | manageChildren => exact isKnown

namespace RCTUIManager

/-- The views show what the shadow views showed before the blocks that are pending. -/
structure Behind (manager : RCTUIManager) (base : RCTRegistry) (known : Finset Tag) : Prop where
  follows : Shows known base manager.viewRegistry
  replays : run replayBlock (base, known) manager.pendingUIBlocks =
    some (manager.shadowViewRegistry, manager.reactTags)
  along : Along replayBlock NamesKnown (base, known) manager.pendingUIBlocks
  waiting : ∀ tag ∈ manager.createViewBlocks, .createView tag ∈ manager.pendingUIBlocks
  early : ∀ tag, .createView tag ∈ manager.pendingUIBlocks →
    tag ∈ manager.createViewBlocks ∨ tag ∈ manager.viewRegistry.registered

theorem initial_behind (rootTags : Finset Tag) (canHaveSubviews : Tag → Bool) :
    (initial rootTags canHaveSubviews).Behind { registered := rootTags, canHaveSubviews }
      rootTags where
  follows := ⟨rfl, fun _ _ => Iff.rfl, nofun, fun _ _ => rfl, fun _ _ => rfl⟩
  replays := rfl
  along := trivial
  waiting := nofun
  early := nofun

variable {manager : RCTUIManager} {base : RCTRegistry} {known : Finset Tag} {block : RCTUIBlock}

section

variable (behind : manager.Behind base known)
include behind

theorem Behind.next {base' : RCTRegistry} {rest : List RCTUIBlock} {views' : RCTRegistry}
    {waiting' : List Tag} (pending : manager.pendingUIBlocks = block :: rest)
    (performed : block.perform base = some base') (follows : Shows (block.known known) base' views')
    (stillWaiting : ∀ tag, tag ∈ waiting' ↔ tag ∈ manager.createViewBlocks ∧ block ≠ .createView tag)
    (stillEarly : ∀ tag, tag ∉ block.known known → tag ∈ manager.viewRegistry.registered →
      tag ∈ views'.registered) :
    Behind { manager with
      viewRegistry := views', createViewBlocks := waiting', pendingUIBlocks := rest } base'
      (block.known known) := by
  have replays := behind.replays
  have along := behind.along
  rw [pending] at replays along
  obtain ⟨shown, replayed, ranRest⟩ := run_cons.mp replays
  have shownIs : shown = (base', block.known known) := by
    obtain ⟨same, knownNow⟩ := replayBlock_eq_some.mp replayed
    exact Prod.ext (Option.some.inj (same.symm.trans performed)) knownNow.symm
  subst shownIs
  have alongRest := along.2 _ replayed
  constructor
  · exact follows
  · exact ranRest
  · exact alongRest
  · intro tag member
    obtain ⟨before, differs⟩ := (stillWaiting tag).mp member
    have created := behind.waiting tag before
    rw [pending] at created
    exact (mem_cons.mp created).resolve_left fun same => differs same.symm
  · intro tag created
    -- The block is pending still, so that its tag is not known to what is replayed before it.
    have isNew := notKnown_of_pending ranRest alongRest created
    have early := behind.early tag (pending ▸ mem_cons_of_mem block created)
    rcases early with before | registered
    · left
      refine (stillWaiting tag).mpr ⟨before, ?_⟩
      rintro rfl
      exact isNew (Finset.mem_insert_self tag known)
    · right
      exact stillEarly tag isNew registered

/-- **The first pending block can run**, and leaves the others pending. -/
theorem runUIBlock_behind {rest : List RCTUIBlock}
    (pending : manager.pendingUIBlocks = block :: rest) :
    ∃ next, manager.step .runUIBlock = some next ∧ (∃ base known, next.Behind base known) ∧
      next.pendingUIBlocks = rest ∧ next.shadowViewRegistry = manager.shadowViewRegistry := by
  have replays := behind.replays
  have along := behind.along
  rw [pending] at replays along
  obtain ⟨_, replayed, -⟩ := run_cons.mp replays
  have performed := (replayBlock_eq_some.mp replayed).1
  simp only [step, pending]
  cases block with
  | createView reactTag =>
    have isNew : reactTag ∉ known := along.1
    dsimp only [runUIBlock]
    -- The main queue has run the other block before, or the view is created now.
    by_cases waits : reactTag ∈ manager.createViewBlocks
    · rw [if_pos waits]
      refine ⟨_, rfl, ⟨_, _, behind.next pending rfl ?_ ?_ ?_⟩, rfl, rfl⟩
      · exact (behind.follows.createView_views isNew).createView_base isNew
          (Finset.mem_insert_self _ _)
      · intro tag
        rw [mem_filter, decide_eq_true_iff, ne_comm, Ne, Ne, RCTUIBlock.createView.injEq]
      · intro tag _ registered
        exact Finset.mem_insert_of_mem registered
    · rw [if_neg waits]
      have created := behind.early reactTag (pending ▸ mem_cons_self)
      have registered := created.resolve_left waits
      refine ⟨_, rfl, ⟨_, _, behind.next pending rfl ?_ ?_ ?_⟩, rfl, rfl⟩
      · exact behind.follows.createView_base isNew registered
      · intro tag
        refine iff_self_and.mpr fun member same => ?_
        cases same
        exact waits member
      · exact fun tag _ member => member
  | setChildren container =>
    obtain ⟨isKnown, areKnown⟩ := along.1
    obtain ⟨views', doneViews, follows, registered⟩ :=
      behind.follows.setChildren isKnown areKnown performed
    simp only [runUIBlock, RCTUIBlock.perform, doneViews]
    refine ⟨_, rfl, ⟨_, _, behind.next pending performed follows (by simp) ?_⟩, rfl, rfl⟩
    intro tag _ member
    rw [registered]
    exact member
  | manageChildren _ container =>
    obtain ⟨isKnown, areKnown⟩ := along.1
    obtain ⟨views', doneViews, follows, early⟩ :=
      behind.follows.manageChildren isKnown areKnown performed
    simp only [runUIBlock, RCTUIBlock.perform, doneViews]
    exact ⟨_, rfl, ⟨_, _, behind.next pending performed follows (by simp) early⟩, rfl, rfl⟩

theorem call_behind {next : RCTUIManager}
    (names : NamesKnown (manager.shadowViewRegistry, manager.reactTags) block)
    (creates : ∀ tag, block ≠ .createView tag) (called : manager.call block = some next) :
    next.Behind base known := by
  unfold call at called
  split at called
  next => cases called
  next registry performed =>
    cases called
    have knows : block.known manager.reactTags = manager.reactTags := by
      cases block with
      | createView tag => exact absurd rfl (creates tag)
      | setChildren => rfl
      | manageChildren => rfl
    have replayed : replayBlock (manager.shadowViewRegistry, manager.reactTags) block =
        some (registry, manager.reactTags) := replayBlock_eq_some.mpr ⟨performed, knows⟩
    constructor
    · exact behind.follows
    · rw [run_append, behind.replays, Option.bind_some, run, replayed]
      rfl
    · exact along_snoc behind.along behind.replays names
    · intro tag member
      exact mem_append_left _ (behind.waiting tag member)
    · intro tag created
      rcases mem_append.mp created with before | new
      · exact behind.early tag before
      · exact absurd (mem_singleton.mp new).symm (creates tag)

theorem createView_behind {reactTag : Tag} (isNew : reactTag ∉ manager.reactTags) :
    (manager.createView reactTag).Behind base known where
  follows := behind.follows
  replays := by
    rw [createView, run_append, behind.replays]
    rfl
  along := along_snoc behind.along behind.replays isNew
  waiting := by
    intro tag member
    rcases mem_append.mp member with before | new
    · exact mem_append_left _ (behind.waiting tag before)
    · rw [mem_singleton.mp new]
      exact mem_append_right _ mem_cons_self
  early := by
    intro tag created
    rcases mem_append.mp created with before | new
    · exact (behind.early tag before).imp_left (mem_append_left _)
    · cases mem_singleton.mp new
      exact .inl (mem_append_right _ mem_cons_self)

/-- **Each step leaves the views behind**, with what is pending still to do. -/
theorem step_behind {next : RCTUIManager} {event : RCTUIEvent}
    (names : manager.NamesCreated event) (stepped : manager.step event = some next) :
    ∃ base known, next.Behind base known := by
  cases event with
  | createView reactTag =>
    cases stepped
    exact ⟨base, known, createView_behind behind names⟩
  | setChildren container reactTags =>
    have namesKnown : NamesKnown (manager.shadowViewRegistry, manager.reactTags)
        (.setChildren container reactTags) := names
    exact ⟨base, known, call_behind behind namesKnown (by simp) stepped⟩
  | manageChildren container arrays =>
    have namesKnown : NamesKnown (manager.shadowViewRegistry, manager.reactTags)
        (.manageChildren (manager.reactTags.card + 1) container arrays) := names
    exact ⟨base, known, call_behind behind namesKnown (by simp) stepped⟩
  | runCreateViewBlock =>
    unfold step at stepped
    dsimp only at stepped
    split at stepped
    next => cases stepped
    next reactTag rest blocks =>
      cases stepped
      -- The block that creates the view is pending as well: nothing before it knows the tag.
      have isPending := behind.waiting reactTag (blocks ▸ mem_cons_self)
      have isNew := notKnown_of_pending behind.replays behind.along isPending
      refine ⟨base, known, behind.follows.createView_views isNew, behind.replays, behind.along, ?_, ?_⟩
      · intro tag member
        exact behind.waiting tag (blocks ▸ mem_cons_of_mem reactTag member)
      · intro tag created
        rcases behind.early tag created with waits | registered
        · rw [blocks] at waits
          rcases mem_cons.mp waits with rfl | later
          · exact .inr (Finset.mem_insert_self _ _)
          · exact .inl later
        · exact .inr (Finset.mem_insert_of_mem registered)
  | runUIBlock =>
    cases pending : manager.pendingUIBlocks with
    | nil =>
      rw [step, pending] at stepped
      cases stepped
    | cons _ rest =>
      obtain ⟨_, same, holds, -⟩ := runUIBlock_behind behind pending
      rw [stepped] at same
      cases same
      exact holds

end

theorem run_behind {rootTags : Finset Tag} {canHaveSubviews : Tag → Bool} {events : List RCTUIEvent}
    (names : Along step NamesCreated (initial rootTags canHaveSubviews) events)
    (ran : run step (initial rootTags canHaveSubviews) events = some manager) :
    ∃ base known, manager.Behind base known := by
  apply @run_induction _ _ _ _ (fun state : RCTUIManager => ∃ base known, state.Behind base known)
    _ _ _ _ ⟨_, _, initial_behind rootTags canHaveSubviews⟩ names ran
  rintro state event next ⟨base, known, behind⟩ namesHere stepped
  exact step_behind behind namesHere stepped

/-- **The pending blocks run to their end, and then the views show what the shadow views do.** -/
theorem flush_subviews (behind : manager.Behind base known) :
    ∃ flushed, run step manager (replicate manager.pendingUIBlocks.length .runUIBlock) =
        some flushed ∧
      flushed.pendingUIBlocks = [] ∧ flushed.shadowViewRegistry = manager.shadowViewRegistry ∧
      flushed.viewRegistry.reactSubviews = manager.shadowViewRegistry.reactSubviews := by
  generalize blocks : manager.pendingUIBlocks = pending
  induction pending generalizing manager base known with
  | nil =>
    have replays := behind.replays
    rw [blocks, run, Option.some_inj, Prod.mk.injEq] at replays
    exact ⟨manager, rfl, blocks, rfl, behind.follows.subviews.trans (by rw [replays.1])⟩
  | cons _ _ ih =>
    -- The blocks that are left are behind the same shadow views.
    obtain ⟨next, stepped, ⟨_, _, holds⟩, left, shadow⟩ := runUIBlock_behind behind blocks
    obtain ⟨flushed, ran, nothing, sameShadow, same⟩ := ih holds left
    rw [shadow] at sameShadow same
    exact ⟨flushed, run_cons.mpr ⟨next, stepped, ran⟩, nothing, sameShadow, same⟩

end RCTUIManager

/-! ### Both platforms -/

/-- What both platforms ask of the tags to add: they are there when the removed children are gone,
and are added once, without a parent. -/
structure RCTRegistry.Addable (registry : RCTRegistry) (depth : ℕ) (removed tags : List Tag) :
    Prop where
  stay : ∀ tag ∈ tags, registry.Stays depth removed tag
  noParent : ∀ tag ∈ tags, ∀ container, tag ∉ registry.reactSubviews container
  nodup : tags.Nodup

/-- **Both platforms leave the same children**, for tags to add that stay when the removed children
are gone; on iOS the views get them as well, when the pending UI blocks have run. On Android nodes
that are laid out take none that are virtual. -/
theorem manageChildren_alike :
    (∀ (registry : RCTRegistry) (ui : UIImplementation) (depth : ℕ) (container : Tag)
      (arrays : ManageChildrenArrays),
      ui.shadow.children container = registry.reactSubviews container →
      (registry.reactSubviews container).Nodup →
      arrays.Fits (registry.reactSubviews container).length →
      container ∈ registry.registered → registry.canHaveSubviews container = true →
      registry.Addable depth
        (HiddenEntries.entriesAt arrays.removeFrom (registry.reactSubviews container))
        arrays.addChildTags →
      ∃ next, registry.manageChildren depth container arrays = some next ∧
        (∀ other, ui.manageChildrenArrays container arrays = .ok other →
          next.reactSubviews container = other.shadow.children container) ∧
        (∀ F, ui.Sound F → container ∈ ui.shadow.registry → ui.shadow.Attaches container
            (HiddenEntries.entriesAt arrays.moveFrom (ui.shadow.children container))
            (arrays.tagsToAdd (ui.shadow.children container)) →
          (ui.shadow.managesYogaChildren container →
            ∀ tag ∈ arrays.tagsToAdd (ui.shadow.children container),
              (ui.shadow.nodeClass tag).isVirtual = false) →
          ∃ other, ui.manageChildrenArrays container arrays = .ok other)) ∧
    (∀ (rootTags : Finset Tag) (canHaveSubviews : Tag → Bool) (events : List RCTUIEvent)
      (manager : RCTUIManager),
      Along RCTUIManager.step RCTUIManager.NamesCreated (.initial rootTags canHaveSubviews)
        events →
      run RCTUIManager.step (.initial rootTags canHaveSubviews) events = some manager →
      ∃ flushed, run RCTUIManager.step manager
          (replicate manager.pendingUIBlocks.length .runUIBlock) = some flushed ∧
        flushed.pendingUIBlocks = [] ∧ flushed.shadowViewRegistry = manager.shadowViewRegistry ∧
        flushed.viewRegistry.reactSubviews = manager.shadowViewRegistry.reactSubviews) := by
  constructor
  · -- Both leave `placedChildren`, whatever the order of the two loops.
    intro registry ui depth container arrays same nodup fits registered canHave addable
    obtain ⟨next, done, subviews⟩ :=
      manageChildren_eq registered canHave nodup fits addable.stay
    rw [← same] at fits subviews
    refine ⟨next, done, ?_, fun F sound isNode attaches yogaNodes =>
      UIImplementation.manageChildrenArrays_returns sound isNode fits attaches yogaNodes⟩
    intro other managed
    rcases UIImplementation.manageChildrenArrays_cases fits with
      ⟨result, isResult, -, children⟩ | ⟨broken, -⟩ | ⟨exception, -, stops⟩
    · rw [managed] at isResult
      cases isResult
      rw [subviews, children]
    · rw [managed] at broken
      cases broken
    · rw [managed] at stops
      cases stops
  · intro rootTags canHaveSubviews events manager names ran
    obtain ⟨base, known, behind⟩ := RCTUIManager.run_behind names ran
    exact RCTUIManager.flush_subviews behind

def threeSubviews : RCTRegistry where
  registered := {1, 5, 6, 7, 8}
  reactSubviews := Function.update (fun _ => []) 1 [5, 6, 7]

theorem eightAddable : threeSubviews.Addable 2 [6] [8] where
  stay := by
    intro tag member
    cases mem_singleton.mp member
    exact ⟨by decide, by decide⟩
  noParent := by
    intro tag member container
    cases mem_singleton.mp member
    by_cases isRoot : container = 1
    · subst isRoot
      decide
    · have nothing : threeSubviews.reactSubviews container = [] := by
        simp [threeSubviews, isRoot]
      rw [nothing]
      exact not_mem_nil
  nodup := by decide

def twoCreated : List RCTUIEvent :=
  [.createView 5, .createView 6, .setChildren 1 [5],
    .manageChildren 1 { addChildTags := [6], addAtIndices := [0] }]

theorem manageChildren_alike_rearranged :
    (∃ next, threeSubviews.manageChildren 2 1 UIImplementation.rearranged = some next ∧
      next.reactSubviews 1 = [8, 7, 5]) ∧
    ∃ manager, run RCTUIManager.step (.initial {1} fun _ => true) twoCreated = some manager ∧
      ∃ flushed, run RCTUIManager.step manager (replicate 4 .runUIBlock) = some flushed ∧
        flushed.viewRegistry.reactSubviews 1 = [6, 5] := by
  constructor
  · obtain ⟨next, done, same, -⟩ := manageChildren_alike.1 threeSubviews UIImplementation.threeViews
      2 1 UIImplementation.rearranged rfl (by decide)
      ⟨rfl, rfl, by decide, by decide, by decide, by decide⟩ (by decide) rfl eightAddable
    exact ⟨next, done, same _ rfl⟩
  · obtain ⟨manager, ran, pending, shadow⟩ :
        ∃ manager, run RCTUIManager.step (.initial {1} fun _ => true) twoCreated = some manager ∧
          manager.pendingUIBlocks.length = 4 ∧
          manager.shadowViewRegistry.reactSubviews 1 = [6, 5] := ⟨_, rfl, rfl, rfl⟩
    obtain ⟨flushed, done, -, -, same⟩ :=
      manageChildren_alike.2 {1} (fun _ => true) twoCreated manager (by decide) ran
    rw [pending] at done
    exact ⟨manager, ran, flushed, done, by rw [same, shadow]⟩

def rawTextInText : UIImplementation where
  shadow :=
    { nodeClass := fun tag =>
        if tag = 2 then
          { isYogaLeafNode := true
            hoistNativeChildren := true
            hosts_of_view := UIImplementation.hosts_of_notView true }
        else UIImplementation.rawText
      children := Function.update (fun _ => []) 2 [5]
      parent := fun tag => if tag = 5 then some 2 else none
      registry := {2, 5}
      tags := {2, 5} }

def removedAndAdded : ManageChildrenArrays where
  addChildTags := [5]
  addAtIndices := [0]
  removeFrom := [0]

def addedOnly : ManageChildrenArrays where
  addChildTags := [5]
  addAtIndices := [0]

/-- A child that is removed and added again is purged on iOS; raw text in a view is refused on
Android. -/
theorem rawText_purged : (removedAndAdded.Fits (rawTextInText.shadow.children 2).length ∧
      (∀ tag ∈ removedAndAdded.addChildTags, tag ∈ rawTextInText.shadow.registry) ∧
      (∃ other, rawTextInText.manageChildrenArrays 2 removedAndAdded = .ok other ∧
        other.shadow.children 2 = [5]) ∧
      ∃ next, RCTRegistry.manageChildren 3 2 removedAndAdded
          { registered := {2, 5}, reactSubviews := rawTextInText.shadow.children } = some next ∧
        next.reactSubviews 2 = []) ∧
    addedOnly.Fits 0 ∧
    UIImplementation.rawTextAndView.manageChildrenArrays 1 addedOnly = .error (.noYogaNode 5 1) ∧
    ∃ next, RCTRegistry.manageChildren 3 1 addedOnly { registered := {1, 5} } = some next ∧
      next.reactSubviews 1 = [5] :=
  ⟨⟨⟨rfl, rfl, by decide, by decide, by decide, by decide⟩, by decide, ⟨_, rfl, rfl⟩, ⟨_, rfl, rfl⟩⟩,
    ⟨rfl, rfl, by decide, by decide, by decide, by decide⟩, rfl, ⟨_, rfl, rfl⟩⟩

end ReactNative
