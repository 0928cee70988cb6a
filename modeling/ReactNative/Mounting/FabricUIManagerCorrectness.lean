import Mathlib.Data.List.Nodup
import ReactNative.Mounting.FabricUIManager

/-! This is so as long as no item that `dispatchMountItems` executes schedules another one on the UI
thread: nothing tells `tryDispatchMountItems` that it is being called again then. -/
namespace ReactNative

open List Option

namespace FabricUIManager

def started (log : List FabricEvent) : List FabricItem :=
  log.filterMap fun
    | .started item => some item
    | .finished _ => none

/-- What is seen if items have been executed one after the other, and one is being executed. -/
def history (done : List FabricItem) (running : Option FabricItem) : List FabricEvent :=
  done.flatMap (fun item => [.started item, .finished item]) ++ running.toList.map .started

/-- Each item has finished before the next one has started. -/
def OneAtATime (log : List FabricEvent) : Prop := ∃ done running, log = history done running

variable (manager : FabricUIManager)

/-- Items are executed one at a time: the mount items in the order in which they have been added,
none of them twice, and each after the pre-mount items that have been added before it. -/
structure InOrder : Prop where
  oneAtATime : OneAtATime manager.log
  once : (started manager.log).Nodup
  inOrder : (started manager.log).filter (!·.isPreMountItem) <+:
    manager.added.filter (!·.isPreMountItem)
  prepared : ∀ before item after, manager.log = before ++ .started item :: after →
    item.isPreMountItem = false → ∀ earlier preMountItem later,
      manager.added = earlier ++ preMountItem :: later → item ∈ later →
        preMountItem.isPreMountItem = true → .finished preMountItem ∈ before

/-- No item schedules another one on the UI thread while `dispatchMountItems` executes it. -/
def Unnested : FabricAction → Prop
  | .scheduleMountItem true => manager.calls = [] ∨ manager.inDispatch = true
  | _ => True

structure Places where
  done : List FabricItem := []
  running : Option FabricItem := none
  /-- What `dispatchMountItems` has taken. -/
  preMountItems : List FabricItem := []
  mountItems : List FabricItem := []
  /-- It has taken the pre-mount items. -/
  tookPreMountItems : Bool := false

def Places.started (places : Places) : List FabricItem := places.done ++ places.running.toList

inductive Calls (done : List FabricItem) : Bool → Places → List FabricCall → Prop where
  | returning {rest} (re : ∀ call ∈ rest, call = .reDispatched) :
    Calls done false ⟨done, none, [], [], false⟩ rest
  | trying {rest} (re : ∀ call ∈ rest, call = .reDispatched) :
    Calls done false ⟨done, none, [], [], false⟩ (.tryDispatchMountItems :: rest)
  | took {rest mountItems} (re : ∀ call ∈ rest, call = .reDispatched) :
    Calls done false ⟨done, none, [], mountItems, false⟩ (.tookMountItems mountItems :: rest)
  | dispatching {rest preMountItems mountItems} (re : ∀ call ∈ rest, call = .reDispatched) :
    Calls done false ⟨done, none, preMountItems, mountItems, true⟩
      (.dispatchMountItems preMountItems mountItems :: rest)
  | executing {rest item preMountItems mountItems} (re : ∀ call ∈ rest, call = .reDispatched) :
    Calls done false ⟨done, some item, preMountItems, mountItems, true⟩
      (.execute item :: .dispatchMountItems preMountItems mountItems :: rest)
  | didDispatch {rest didDispatchItems} (re : ∀ call ∈ rest, call = .reDispatched) :
    Calls done false ⟨done, none, [], [], false⟩ (.didDispatch didDispatchItems :: rest)
  | inFrame : Calls done true ⟨done, none, [], [], false⟩ [.dispatchPreMountItems]
  | executingInFrame {item} :
    Calls done true ⟨done, some item, [], [], false⟩ [.execute item, .dispatchPreMountItems]
  /-- What an item in a frame has scheduled waits. -/
  | tryingInFrame {item} : Calls done true ⟨done, some item, [], [], false⟩
      [.tryDispatchMountItems, .execute item, .dispatchPreMountItems]

structure Tracked (places : Places) (preMountItems mountItems added : List FabricItem) : Prop where
  numbered : ∀ item ∈ added, item.order < added.length
  inOrder : added.Pairwise fun first second => first.order < second.order
  /-- Each item is in one place. -/
  everything : ∀ item, (places.started ++ places.preMountItems ++ places.mountItems ++
    preMountItems ++ mountItems).count item = added.count item
  areMountItems : places.started.filter (!·.isPreMountItem) ++ places.mountItems ++ mountItems =
    added.filter (!·.isPreMountItem)
  arePreMountItems : ∀ item ∈ places.preMountItems ++ preMountItems, item.isPreMountItem = true
  prepared : ∀ before item after, places.started = before ++ item :: after →
    item.isPreMountItem = false → ∀ preMountItem ∈ added, preMountItem.isPreMountItem = true →
      preMountItem.order < item.order → preMountItem ∈ before
  /-- Once both queues have been taken, what mount items need is before them. -/
  ready : places.tookPreMountItems = true → ∀ item ∈ places.mountItems, ∀ preMountItem ∈ added,
    preMountItem.isPreMountItem = true → preMountItem.order < item.order →
      preMountItem ∈ places.started ++ places.preMountItems

theorem started_history (done : List FabricItem) (running : Option FabricItem) :
    started (history done running) = done ++ running.toList := by
  rw [started, history, filterMap_append]
  congr 1
  · induction done with
    | nil => rfl
    | cons item done ih => simpa using ih
  · cases running with
    | none => rfl
    | some item => rfl

theorem history_split {done : List FabricItem} {running : Option FabricItem}
    {before after : List FabricEvent} {item : FabricItem}
    (split : history done running = before ++ .started item :: after) :
    ∃ first second, done ++ running.toList = first ++ item :: second ∧
      ∀ other ∈ first, .finished other ∈ before := by
  induction done generalizing before with
  | nil =>
    cases running with
    | none => simp [history] at split
    | some other =>
      obtain ⟨rfl, same⟩ | ⟨rest, rfl, impossible⟩ := cons_eq_append_iff.mp split
      · cases same
        exact ⟨[], [], rfl, by simp⟩
      · simp at impossible
  | cons other done ih =>
    have whole : .started other :: .finished other :: history done running =
        before ++ .started item :: after := split
    obtain ⟨rfl, same⟩ | ⟨rest, rfl, fromFinish⟩ := cons_eq_append_iff.mp whole
    · cases same
      exact ⟨[], done ++ running.toList, rfl, by simp⟩
    · obtain ⟨rfl, same⟩ | ⟨rest, rfl, later⟩ := cons_eq_append_iff.mp fromFinish
      · cases same
      · obtain ⟨first, second, isSplit, finished⟩ := ih later
        refine ⟨other :: first, second, by rw [cons_append, isSplit, cons_append], ?_⟩
        intro another member
        obtain rfl | isLater := mem_cons.mp member
        · simp
        · simp [finished another isLater]

/-! ### What happens to the items -/

section

variable {places : Places} {preMountItems mountItems added : List FabricItem} {item : FabricItem}

theorem Tracked.mem_iff (tracked : Tracked places preMountItems mountItems added)
 : item ∈ places.started ++ places.preMountItems ++ places.mountItems ++
      preMountItems ++ mountItems ↔ item ∈ added := by
  rw [← count_pos_iff, tracked.everything, count_pos_iff]

theorem Tracked.add {isPreMountItem : Bool} {newPreMountItems newMountItems : List FabricItem}
    (tracked : Tracked places preMountItems mountItems added)
    (isNew : if isPreMountItem then
        newPreMountItems = preMountItems ++ [⟨added.length, isPreMountItem⟩] ∧
          newMountItems = mountItems
      else newPreMountItems = preMountItems ∧
        newMountItems = mountItems ++ [⟨added.length, isPreMountItem⟩]) :
    Tracked places newPreMountItems newMountItems
      (added ++ [⟨added.length, isPreMountItem⟩]) := by
  -- The new item is the last one added, so that nothing added is after it.
  have earlier : ∀ item, item ∈ added → ∀ preMountItem : FabricItem,
      preMountItem ∈ added ++ [⟨added.length, isPreMountItem⟩] →
        preMountItem.order < item.order → preMountItem ∈ added := by
    intro item member preMountItem isAdded before
    obtain isOld | isNew := mem_append.mp isAdded
    · exact isOld
    · rw [mem_singleton.mp isNew] at before
      exact absurd (tracked.numbered item member) (Nat.not_lt_of_lt before)
  -- The fields in the order of `Tracked`.
  refine ⟨?_, ?_, ?_, ?_, ?_, ?_, ?_⟩
  · intro item member
    rw [length_append, length_singleton]
    obtain isOld | isLast := mem_append.mp member
    · exact Nat.lt_succ_of_lt (tracked.numbered item isOld)
    · rw [mem_singleton.mp isLast]
      exact Nat.lt_succ_self _
  · refine pairwise_append.mpr ⟨tracked.inOrder, pairwise_singleton _ _, ?_⟩
    intro item isOld other isLast
    rw [mem_singleton.mp isLast]
    exact tracked.numbered item isOld
  -- Each item stands in one place, and the new one in its queue.
  · intro item
    have before := tracked.everything item
    cases isPreMountItem with
    | true =>
      obtain ⟨rfl, rfl⟩ := isNew
      simp only [count_append] at before ⊢
      omega
    | false =>
      obtain ⟨rfl, rfl⟩ := isNew
      simp only [count_append] at before ⊢
      omega
  · have before := tracked.areMountItems
    cases isPreMountItem with
    | true =>
      obtain ⟨rfl, rfl⟩ := isNew
      simpa using before
    | false =>
      obtain ⟨rfl, rfl⟩ := isNew
      rw [filter_append, ← before]
      simp
  · cases isPreMountItem with
    | true =>
      obtain ⟨rfl, rfl⟩ := isNew
      intro item member
      rw [← append_assoc] at member
      obtain isOld | isLast := mem_append.mp member
      · exact tracked.arePreMountItems item isOld
      · rw [mem_singleton.mp isLast]
    | false =>
      obtain ⟨rfl, rfl⟩ := isNew
      exact tracked.arePreMountItems
  · intro before item after split isMountItem preMountItem isAdded isPre isBefore
    have member : item ∈ added := tracked.mem_iff.mp (by simp [split])
    exact tracked.prepared before item after split isMountItem preMountItem
      (earlier item member preMountItem isAdded isBefore) isPre isBefore
  · intro took item isItem preMountItem isAdded isPre isBefore
    have member : item ∈ added := tracked.mem_iff.mp (by simp [isItem])
    exact tracked.ready took item isItem preMountItem
      (earlier item member preMountItem isAdded isBefore) isPre isBefore

variable {done takenMountItems : List FabricItem}

theorem Tracked.finish {taken : List FabricItem} {took : Bool}
    (tracked : Tracked ⟨done, some item, taken, takenMountItems, took⟩ preMountItems mountItems
      added) :
    Tracked ⟨done ++ [item], none, taken, takenMountItems, took⟩ preMountItems mountItems added := by
  have same : Places.started ⟨done ++ [item], none, taken, takenMountItems, took⟩ =
      Places.started ⟨done, some item, taken, takenMountItems, took⟩ := by
    simp [Places.started]
  obtain ⟨numbered, inOrder, everything, areMountItems, arePreMountItems, prepared, ready⟩ := tracked
  rw [← same] at everything areMountItems prepared ready
  exact ⟨numbered, inOrder, everything, areMountItems, arePreMountItems, prepared, ready⟩

theorem prepared_concat {started : List FabricItem}
    (prepared : ∀ before other after, started = before ++ other :: after →
      other.isPreMountItem = false → ∀ preMountItem ∈ added, preMountItem.isPreMountItem = true →
        preMountItem.order < other.order → preMountItem ∈ before)
    (isPrepared : item.isPreMountItem = false → ∀ preMountItem ∈ added,
      preMountItem.isPreMountItem = true → preMountItem.order < item.order →
        preMountItem ∈ started) :
    ∀ before other after, started ++ [item] = before ++ other :: after →
      other.isPreMountItem = false → ∀ preMountItem ∈ added, preMountItem.isPreMountItem = true →
        preMountItem.order < other.order → preMountItem ∈ before := by
  intro before other after split
  obtain rfl | ⟨rest, _, rfl⟩ := eq_nil_or_concat after
  · obtain ⟨rfl, same⟩ := append_inj' split rfl
    rw [← singleton_inj.mp same]
    exact isPrepared
  · rw [concat_eq_append, ← cons_append, ← append_assoc] at split
    obtain ⟨isStarted, -⟩ := append_inj' split rfl
    exact prepared before other rest isStarted

theorem Tracked.not_preMountItem (tracked : Tracked places preMountItems mountItems added)
    (member : item ∈ places.mountItems ++ mountItems) : item.isPreMountItem = false := by
  have isAdded : item ∈ added.filter (!·.isPreMountItem) := by
    rw [← tracked.areMountItems, append_assoc]
    exact mem_append_right _ member
  simpa using (mem_filter.mp isAdded).2

/-- The first item that waits in the queue, or in what was taken of it, is started. -/
theorem Tracked.startPreMountItem {taken takenLater preLater : List FabricItem} {took : Bool}
    (tracked : Tracked ⟨done, none, taken, takenMountItems, took⟩ preMountItems mountItems added)
    (first : taken ++ preMountItems = item :: (takenLater ++ preLater))
    (ifTook : took = true → taken = item :: takenLater) :
    Tracked ⟨done, some item, takenLater, takenMountItems, took⟩ preLater mountItems added := by
  have waiting : ∀ other ∈ item :: (takenLater ++ preLater), other.isPreMountItem = true :=
    fun other member => tracked.arePreMountItems other (first ▸ member)
  obtain ⟨isPre, later⟩ := forall_mem_cons.mp waiting
  have everything := tracked.everything
  have areMountItems := tracked.areMountItems
  have prepared := tracked.prepared
  simp only [Places.started, toList_none, append_nil] at everything areMountItems prepared
  refine ⟨tracked.numbered, tracked.inOrder, fun other => ?_, ?_, later, ?_,
    fun isTaken other isOther preMountItem isAdded isPreMountItem isBefore => ?_⟩
  · have before := everything other
    have counts := congrArg (count other) first
    simp only [Places.started, toList_some, count_append, count_cons, count_nil] at before counts ⊢
    omega
  · simpa [Places.started, isPre] using areMountItems
  · exact prepared_concat prepared fun isMountItem => absurd (isMountItem.symm.trans isPre) (by simp)
  · have isReady := tracked.ready isTaken other isOther preMountItem isAdded isPreMountItem isBefore
    simpa [Places.started, ifTook isTaken] using isReady

theorem Tracked.startMountItem
    (tracked : Tracked ⟨done, none, [], item :: takenMountItems, true⟩ preMountItems mountItems
      added) :
    Tracked ⟨done, some item, [], takenMountItems, true⟩ preMountItems mountItems added := by
  have isMountItem : item.isPreMountItem = false := tracked.not_preMountItem (by simp)
  have everything := tracked.everything
  have areMountItems := tracked.areMountItems
  have prepared := tracked.prepared
  have ready := tracked.ready rfl
  simp only [Places.started, toList_none, append_nil] at everything areMountItems prepared ready
  refine ⟨tracked.numbered, tracked.inOrder, fun other => ?_, ?_, tracked.arePreMountItems, ?_,
    fun _ other isOther preMountItem isAdded isPreMountItem isBefore => ?_⟩
  · have before := everything other
    simp only [Places.started, toList_some, append_nil, count_append,
      count_cons, count_nil] at before ⊢
    omega
  · simpa [Places.started, isMountItem] using areMountItems
  · exact prepared_concat prepared fun _ => ready item (by simp)
  · have isStarted := ready other (mem_cons_of_mem _ isOther) preMountItem isAdded
      isPreMountItem isBefore
    simp [Places.started, isStarted]

theorem Tracked.takeMountItems
    (tracked : Tracked ⟨done, none, [], [], false⟩ preMountItems mountItems added) :
    Tracked ⟨done, none, [], mountItems, false⟩ preMountItems [] added := by
  refine ⟨tracked.numbered, tracked.inOrder, fun item => ?_, ?_, tracked.arePreMountItems,
    tracked.prepared, nofun⟩
  · have before := tracked.everything item
    simp only [Places.started, append_nil, count_append] at before ⊢
    omega
  · simpa [Places.started] using tracked.areMountItems

theorem Tracked.takePreMountItems
    (tracked : Tracked ⟨done, none, [], takenMountItems, false⟩ preMountItems mountItems added) :
    Tracked ⟨done, none, preMountItems, takenMountItems, true⟩ [] mountItems added := by
  refine ⟨tracked.numbered, tracked.inOrder, fun item => ?_, tracked.areMountItems, ?_,
    tracked.prepared, fun _ item isItem preMountItem isAdded isPre isBefore => ?_⟩
  · have before := tracked.everything item
    simp only [Places.started, append_nil, count_append] at before ⊢
    omega
  · simpa using tracked.arePreMountItems
  · have found := tracked.mem_iff.mpr isAdded
    have notMountItem : preMountItem ∉ takenMountItems ++ mountItems := fun member =>
      absurd (isPre.symm.trans (tracked.not_preMountItem member)) (by simp)
    simp only [mem_append, not_or] at found notMountItem ⊢
    tauto

theorem Tracked.dispatched
    (tracked : Tracked ⟨done, none, [], [], true⟩ preMountItems mountItems added) :
    Tracked ⟨done, none, [], [], false⟩ preMountItems mountItems added :=
  ⟨tracked.numbered, tracked.inOrder, tracked.everything, tracked.areMountItems,
    tracked.arePreMountItems, tracked.prepared, nofun⟩

end

/-! ### Steps -/

variable {manager after : FabricUIManager}

structure Sound (places : Places) (manager : FabricUIManager) : Prop where
  calls : Calls places.done manager.inDispatch places manager.calls
  log : manager.log = history places.done places.running
  tracked : Tracked places manager.preMountItems manager.mountItems manager.added

variable {places : Places}

theorem Sound.addPreMountItem (sound : Sound places manager) :
    Sound places manager.addPreMountItem :=
  ⟨sound.calls, sound.log, sound.tracked.add ⟨rfl, rfl⟩⟩

theorem Sound.addMountItem (sound : Sound places manager) : Sound places manager.addMountItem :=
  ⟨sound.calls, sound.log, sound.tracked.add ⟨rfl, rfl⟩⟩

theorem Calls.tryDispatch {done : List FabricItem} {inDispatch : Bool} {stack : List FabricCall}
    (calls : Calls done inDispatch places stack)
    (outside : stack = [] ∨ inDispatch = true ∧ ∃ item rest, stack = .execute item :: rest) :
    Calls done inDispatch places (.tryDispatchMountItems :: stack) := by
  obtain rfl | ⟨rfl, item, rest, rfl⟩ := outside
  · cases calls with
    | returning re => exact .trying re
  · cases calls with
    | executingInFrame => exact .tryingInFrame

theorem history_start (done : List FabricItem) (item : FabricItem) :
    history done none ++ [.started item] = history done (some item) := by
  simp [history]

theorem history_finish (done : List FabricItem) (item : FabricItem) :
    history done (some item) ++ [.finished item] = history (done ++ [item]) none := by
  simp [history]

theorem Sound.next {timeLeft : Bool} (sound : Sound places manager)
    (stepped : manager.next timeLeft = some after) : ∃ later, Sound later after := by
  obtain ⟨calls, log, tracked⟩ := sound
  unfold FabricUIManager.next at stepped
  obtain ⟨mountItems, preMountItems, _, _, stack, _, _⟩ := manager
  generalize places.done = done at calls
  -- One case for each place in which the innermost call may be.
  cases calls with
  | returning re =>
    cases stack with
    | nil => cases stepped
    | cons _ rest =>
      obtain ⟨rfl, others⟩ := forall_mem_cons.mp re
      cases stepped
      exact ⟨⟨done, none, [], [], false⟩, .returning others, log, tracked⟩
  | trying re =>
    cases mountItems with
    | nil =>
      cases stepped
      exact ⟨⟨done, none, [], [], false⟩, .didDispatch re, log, tracked⟩
    | cons item mountItems =>
      cases stepped
      exact ⟨⟨done, none, [], item :: mountItems, false⟩, .took re, log, tracked.takeMountItems⟩
  | @took rest takenMountItems re =>
    cases stepped
    exact ⟨⟨done, none, preMountItems, takenMountItems, true⟩, .dispatching re, log,
      tracked.takePreMountItems⟩
  | @dispatching rest taken takenMountItems re =>
    cases taken with
    | cons item taken =>
      cases stepped
      exact ⟨⟨done, some item, taken, takenMountItems, true⟩, .executing re,
        by rw [startItem, log, history_start], tracked.startPreMountItem rfl fun _ => rfl⟩
    | nil =>
      cases takenMountItems with
      | cons item takenMountItems =>
        cases stepped
        exact ⟨⟨done, some item, [], takenMountItems, true⟩, .executing re,
          by rw [startItem, log, history_start], tracked.startMountItem⟩
      | nil =>
        cases stepped
        exact ⟨⟨done, none, [], [], false⟩, .didDispatch re, log, tracked.dispatched⟩
  | @executing rest item taken takenMountItems re =>
    cases stepped
    exact ⟨⟨done ++ [item], none, taken, takenMountItems, true⟩, .dispatching re,
      by rw [log, history_finish], tracked.finish⟩
  | @didDispatch rest _ re =>
    dsimp only at stepped
    split at stepped
    next =>
      cases stepped
      exact ⟨⟨done, none, [], [], false⟩, .trying (forall_mem_cons.mpr ⟨rfl, re⟩), log, tracked⟩
    next =>
      cases stepped
      exact ⟨⟨done, none, [], [], false⟩, .returning re, log, tracked⟩
  | inFrame =>
    dsimp only at stepped
    split at stepped
    next item preMountItems =>
      cases stepped
      exact ⟨⟨done, some item, [], [], false⟩, .executingInFrame,
        by rw [startItem, log, history_start], tracked.startPreMountItem rfl nofun⟩
    next =>
      cases stepped
      exact ⟨⟨done, none, [], [], false⟩, .trying nofun, log, tracked⟩
  | @executingInFrame item =>
    cases stepped
    exact ⟨⟨done ++ [item], none, [], [], false⟩, .inFrame, by rw [log, history_finish],
      tracked.finish⟩
  | @tryingInFrame item =>
    cases stepped
    exact ⟨⟨done, some item, [], [], false⟩, .executingInFrame, log, tracked⟩

theorem Sound.step {action : FabricAction} (sound : Sound places manager)
    (unnested : manager.Unnested action) (stepped : manager.step action = some after) :
    ∃ later, Sound later after := by
  cases action with
  | preallocateView =>
    cases stepped
    exact ⟨places, sound.addPreMountItem⟩
  | dispatchCommand =>
    cases stepped
    exact ⟨places, sound.addMountItem⟩
  | scheduleMountItem isOnUiThread =>
    obtain ⟨mayCall, same⟩ := ite_none_right_eq_some.mp stepped
    cases same
    cases isOnUiThread with
    | false => exact ⟨places, sound.addMountItem⟩
    | true =>
      have outside : manager.calls = [] ∨ manager.inDispatch = true ∧
          ∃ item rest, manager.calls = .execute item :: rest := by
        refine unnested.imp_right fun inDispatch => ⟨inDispatch, ?_⟩
        have isAllowed := mayCall rfl
        unfold FabricUIManager.mayCall at isAllowed
        split at isAllowed
        next isEmpty =>
          -- A frame that dispatches pre-mount items is on the stack.
          have calls := sound.calls
          rw [isEmpty, inDispatch] at calls
          generalize places.done = done at calls
          cases calls
        next item rest isCalls => exact ⟨item, rest, isCalls⟩
        next => cases isAllowed
      exact ⟨places, sound.addMountItem.calls.tryDispatch outside, sound.log,
        sound.addMountItem.tracked⟩
  | doFrame =>
    obtain ⟨isEmpty, same⟩ := ite_none_right_eq_some.mp stepped
    cases same
    have calls := sound.calls
    have log := sound.log
    have tracked := sound.tracked
    obtain ⟨_, _, inDispatch, _, _, _, _⟩ := manager
    obtain rfl := List.isEmpty_iff.mp isEmpty
    generalize places.done = done at calls
    cases calls with
    | returning => exact ⟨⟨done, none, [], [], false⟩, .inFrame, log, tracked⟩
  | next => exact sound.next stepped

theorem sound_init : Sound {} {} := by
  refine ⟨.returning nofun, rfl, ?_, List.Pairwise.nil, fun _ => rfl, rfl, ?_, ?_, nofun⟩
  · nofun
  · nofun
  · intro before item after impossible
    simp [Places.started] at impossible

/-! ### Runs -/

theorem Sound.correct (sound : Sound places manager) : InOrder manager := by
  have isStarted : started manager.log = places.started := by
    rw [sound.log, started_history]
    rfl
  have nodup : manager.added.Nodup := sound.tracked.inOrder.imp fun less same => by
    rw [same] at less
    exact Nat.lt_irrefl _ less
  refine ⟨⟨places.done, places.running, sound.log⟩, ?_, ?_, ?_⟩
  · rw [isStarted, nodup_iff_count_le_one]
    intro item
    refine Nat.le_trans ?_ (nodup_iff_count_le_one.mp nodup item)
    have everything := sound.tracked.everything item
    simp only [count_append] at everything
    omega
  · rw [isStarted, ← sound.tracked.areMountItems, append_assoc]
    exact prefix_append _ _
  · intro before item after isLog isMountItem earlier preMountItem later isAdded isLater isPre
    rw [sound.log] at isLog
    obtain ⟨first, second, split, finished⟩ := history_split isLog
    have inOrder := sound.tracked.inOrder
    rw [isAdded] at inOrder
    have isBefore := (pairwise_cons.mp (pairwise_append.mp inOrder).2.1).1 item isLater
    refine finished preMountItem (sound.tracked.prepared first item second split isMountItem
      preMountItem ?_ isPre isBefore)
    rw [isAdded]
    simp

def IsSound (manager : FabricUIManager) : Prop := ∃ places, Sound places manager

/-- **Mount items are executed in order, one at a time**, if no item that `dispatchMountItems`
executes schedules another one on the UI thread. -/
theorem inOrder_of_unnested {actions : List FabricAction} {final : FabricUIManager}
    (unnested : Runs.Along FabricUIManager.step Unnested {} actions)
    (ran : Runs.run FabricUIManager.step {} actions = some final) : InOrder final := by
  have keeps : ∀ (manager : FabricUIManager) action after, manager.IsSound →
      manager.Unnested action → manager.step action = some after → after.IsSound := by
    rintro manager action after ⟨places, sound⟩ isUnnested stepped
    exact sound.step isUnnested stepped
  obtain ⟨places, sound⟩ := Runs.run_induction keeps ⟨{}, sound_init⟩ unnested ran
  exact sound.correct

instance (manager : FabricUIManager) (action : FabricAction) :
    Decidable (manager.Unnested action) :=
  match action with
  | .scheduleMountItem true =>
    decidable_of_iff (manager.calls.isEmpty ∨ manager.inDispatch = true)
      (or_congr_left List.isEmpty_iff)
  | .scheduleMountItem false | .preallocateView | .dispatchCommand | .doFrame | .next _ =>
    .isTrue trivial

/-- A pre-mount item schedules a mount item in a frame, which also executes what others have
added. -/
def scheduledInFrame : List FabricAction :=
  [.preallocateView, .dispatchCommand, .preallocateView, .doFrame, .next true,
    .scheduleMountItem true, .next true, .next true, .next false, .next true, .next true, .next true,
    .next true, .next true, .next true]

theorem inOrder_of_scheduledInFrame : ∃ final,
    Runs.run FabricUIManager.step {} scheduledInFrame = some final ∧ InOrder final := by
  have ends : (Runs.run FabricUIManager.step {} scheduledInFrame).isSome = true := by decide
  obtain ⟨final, ran⟩ := isSome_iff_exists.mp ends
  exact ⟨final, ran, inOrder_of_unnested (by decide) ran⟩

theorem nested_not_inOrder : ¬ ∀ final, Runs.run FabricUIManager.step {}
    [.scheduleMountItem true, .next true, .next true, .next true, .scheduleMountItem true,
      .next true, .next true, .next true] = some final → InOrder final := by
  intro all
  obtain ⟨done, running, isLog⟩ := (all _ rfl).oneAtATime
  have bothStarted : [⟨0, false⟩, ⟨1, false⟩] = done ++ running.toList := by
    rw [← started_history, ← isLog]
    rfl
  have split : history done running = [.started ⟨0, false⟩] ++ .started ⟨1, false⟩ :: [] :=
    isLog.symm
  obtain ⟨first, second, isStarted, finished⟩ := history_split split
  rw [← bothStarted] at isStarted
  -- The first item has been started before the second, and has not finished.
  cases first with
  | nil => simp at isStarted
  | cons item first => simpa using finished item mem_cons_self

end FabricUIManager

end ReactNative


