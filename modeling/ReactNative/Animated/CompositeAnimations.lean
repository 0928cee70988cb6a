import Mathlib.Data.Finset.Card
import ReactNative.Foundation.Runs

/-! A sequence keeps the position of the child that it started last. The position survives the end
of a start: it is only set back by `reset`, which does not wait for the child that runs. -/
namespace ReactNative.Animated

/-! ## Sequences -/

structure Sequence where
  current : ℕ := 0
  /-- The children that run, each with the start whose `onComplete` it was given. -/
  running : List (ℕ × ℕ) := []
  starts : ℕ := 0
  calledBack : List ℕ := []
  /-- The children that were started, each with the child that had finished, if one had. -/
  started : List (ℕ × Option ℕ) := []
  threw : Bool := false

namespace Sequence

variable (length : ℕ) (sequence : Sequence)

/-- `animations[current].start(onComplete)`, which throws where there is no animation. -/
def startCurrent (start : ℕ) (finished : Option ℕ) : Sequence :=
  if sequence.current < length then
    { sequence with
      running := (sequence.current, start) :: sequence.running
      started := (sequence.current, finished) :: sequence.started }
  else { sequence with threw := true }

def callback (start : ℕ) : Sequence :=
  { sequence with calledBack := start :: sequence.calledBack }

def onComplete (child start : ℕ) (finished : Bool) : Sequence :=
  if !finished then sequence.callback start
  else
    let next := { sequence with current := sequence.current + 1 }
    if next.current = length then next.callback start
    else next.startCurrent length start (some child)

def start : Sequence :=
  let begun := { sequence with starts := sequence.starts + 1 }
  if length = 0 then begun.callback sequence.starts
  else begun.startCurrent length sequence.starts none

def stopped : Option ℕ :=
  if sequence.current < length then some sequence.current else none

def reset : Sequence := { sequence with current := 0 }

inductive Event
  | start
  | stop
  | reset
  | completed (child start : ℕ) (finished : Bool)

/-- A start comes when the one before has ended, and what ends was running. -/
def step : Event → Option Sequence
  | .start =>
    if ∀ start < sequence.starts, start ∈ sequence.calledBack then some (sequence.start length)
    else none
  | .stop => some sequence
  | .reset => some sequence.reset
  | .completed child start finished =>
    if (child, start) ∈ sequence.running then
      some ({ sequence with running := sequence.running.erase (child, start) }.onComplete length
        child start finished)
    else none

structure RunsInOrder : Prop where
  threw : sequence.threw = false
  single : sequence.running.length ≤ 1
  stops : ∀ run ∈ sequence.running, sequence.stopped length = some run.1
  /-- A start begins with the first child, and each other child follows the one before it. -/
  order : ∀ child finished, (child, finished) ∈ sequence.started → child = finished.elim 0 (· + 1)
  once : ∀ start, sequence.calledBack.count start + (sequence.running.map Prod.snd).count start =
    if start < sequence.starts then 1 else 0

/-- A start comes at the first position, and a reset when no other child runs. -/
def FromTheStart : Event → Prop
  | .start => sequence.current = 0
  | .reset => ∀ run ∈ sequence.running, run.1 = 0
  | _ => True

variable {length} {sequence next : Sequence} {event : Event}

theorem RunsInOrder.running_cases (inOrder : sequence.RunsInOrder length) :
    sequence.running = [] ∨ ∃ start, sequence.running = [(sequence.current, start)] ∧
      sequence.current < length := by
  match shape : sequence.running with
  | [] => exact .inl rfl
  | [run] =>
    have stops := inOrder.stops run (by simp [shape])
    simp only [stopped, Option.ite_none_right_eq_some, Option.some.injEq] at stops
    exact .inr ⟨run.2, by simp [stops.2], stops.1⟩
  | _ :: _ :: _ =>
    have single := inOrder.single
    simp [shape] at single

theorem RunsInOrder.idle (inOrder : sequence.RunsInOrder length)
    (ended : ∀ start < sequence.starts, start ∈ sequence.calledBack) : sequence.running = [] := by
  rcases inOrder.running_cases with idle | ⟨start, running, -⟩
  · exact idle
  · -- Of the start that runs the callback has not been called.
    have once := inOrder.once start
    simp only [running, List.map_cons, List.map_nil, List.count_singleton_self] at once
    split at once
    next begun =>
      have called := List.count_pos_iff.2 (ended start begun)
      omega
    next => omega

/-- The child of the only start that runs has ended, and its callback is called. -/
theorem RunsInOrder.called (inOrder : sequence.RunsInOrder length) {start : ℕ} {running : ℕ}
    (runs : sequence.running = [(running, start)]) (other : ℕ) :
    (start :: sequence.calledBack).count other = if other < sequence.starts then 1 else 0 := by
  have once := inOrder.once other
  rw [runs, List.map_singleton] at once
  rw [← once, List.count_cons, List.count_singleton]

theorem step_runsInOrder_iff (nonempty : 0 < length) (inOrder : sequence.RunsInOrder length)
    (stepped : step length sequence event = some next) :
    next.RunsInOrder length ↔ sequence.FromTheStart event := by
  obtain ⟨threw, single, stops, order, once⟩ := id inOrder
  cases event with
  | start =>
    simp only [step, Option.ite_none_right_eq_some, Option.some.injEq] at stepped
    obtain ⟨ended, rfl⟩ := stepped
    have idle := inOrder.idle ended
    unfold start startCurrent FromTheStart
    rw [if_neg nonempty.ne']
    split
    next inside =>
      refine ⟨fun holds => holds.order _ none List.mem_cons_self, fun first => ⟨threw, ?_, ?_, ?_, ?_⟩⟩
      · simp [idle]
      · simp [idle, stopped, inside]
      · intro child finished member
        rcases List.mem_cons.1 member with new | old
        · cases new
          exact first
        · exact order child finished old
      · intro other
        have before := once other
        rw [idle, List.map_nil, List.count_nil, Nat.add_zero] at before
        simp only [idle, before, List.map_cons, List.map_nil, List.count_singleton, beq_iff_eq]
        split_ifs <;> omega
    next outside => exact iff_of_false (fun holds => by simpa using holds.threw) (by simp at outside ⊢; omega)
  | stop =>
    cases stepped
    exact iff_of_true ⟨threw, single, stops, order, once⟩ trivial
  | reset =>
    cases stepped
    refine ⟨fun holds run member => ?_, fun first => ⟨threw, single, fun run member => ?_, order, once⟩⟩
    · have := holds.stops run member
      simp_all [reset, stopped]
    · rw [first run member]
      simp [stopped, reset, nonempty]
  | completed child start finished =>
    simp only [step, Option.ite_none_right_eq_some, Option.some.injEq] at stepped
    obtain ⟨member, rfl⟩ := stepped
    refine iff_of_true ?_ trivial
    obtain ⟨running, rfl, inside⟩ : sequence.running = [(child, start)] ∧
        sequence.current = child ∧ child < length := by
      rcases inOrder.running_cases with idle | ⟨other, running, inside⟩
      · simp [idle] at member
      · rw [running, List.mem_singleton] at member
        cases member
        exact ⟨running, rfl, inside⟩
    have called := inOrder.called running
    simp only [running, List.erase_cons_head, onComplete, callback, startCurrent]
    split_ifs with failed last more
    -- Nothing runs after the last child, or after one that did not finish.
    · exact ⟨threw, by simp, by simp, order, by simpa using called⟩
    · exact ⟨threw, by simp, by simp, order, by simpa using called⟩
    · refine ⟨threw, by simp, by simp [stopped, more], ?_, ?_⟩
      · intro next finishedChild begun
        rcases List.mem_cons.1 begun with new | old
        · cases new
          rfl
        · exact order next finishedChild old
      · rwa [running] at once
    · omega

/-- **A sequence runs its children in order** in all states of a run exactly if each start comes at
the first position and no child but the first runs at a reset. -/
theorem runsInOrder_iff (length : ℕ) (nonempty : 0 < length) (events : List Event) :
    (∀ taken rest sequence, events = taken ++ rest →
        Runs.run (step length) {} taken = some sequence → sequence.RunsInOrder length) ↔
      Runs.Along (step length) (fun sequence event => (step length sequence event).isSome →
        sequence.FromTheStart event) {} events :=
  @Runs.always_iff_along _ _ (step length) FromTheStart (fun _ => True) (RunsInOrder length) {}
    events (fun _ _ _ _ _ _ => trivial) (fun _ _ _ _ => step_runsInOrder_iff nonempty) trivial
    ⟨rfl, by simp, by simp, by simp, by simp⟩

theorem runsInOrder_one : (Runs.run (step 1) {} [.start]).isSome ∧
    ∀ taken rest sequence, [Event.start] = taken ++ rest →
      Runs.run (step 1) {} taken = some sequence → sequence.RunsInOrder 1 :=
  ⟨rfl, (runsInOrder_iff 1 Nat.one_pos [.start]).2 ⟨fun _ => rfl, fun _ _ => trivial⟩⟩

theorem restart_throws : (Runs.run (step 1) {} [.start, .completed 0 0 true, .start]).map
    (·.threw) = some true := by
  decide

end Sequence

/-! ## Parallel animations -/

/-- A loop over the children, before or after the call of the child at the index. -/
inductive ParallelLoop
  | stopping (idx : ℕ) (called : Bool)
  | resetting (idx : ℕ) (called : Bool)
  deriving DecidableEq

structure Parallel where
  doneCount : ℕ := 0
  hasEnded : Finset ℕ := ∅
  running : Finset ℕ := ∅
  /-- The calls of `stop` of the children since the latest start. -/
  told : List ℕ := []
  loops : List ParallelLoop := []
  starts : ℕ := 0
  calledBack : ℕ := 0

namespace Parallel

variable (length : ℕ) (stopTogether : Bool) (parallel : Parallel)

def start : Parallel :=
  if parallel.doneCount = length then
    { parallel with starts := parallel.starts + 1, calledBack := parallel.calledBack + 1 }
  else
    { parallel with running := .range length, told := [], starts := parallel.starts + 1 }

def ended (idx : ℕ) (finished : Bool) : Parallel :=
  let done := { parallel with
    running := parallel.running.erase idx
    hasEnded := insert idx parallel.hasEnded
    doneCount := parallel.doneCount + 1 }
  if done.doneCount = length then
    { done with doneCount := 0, calledBack := done.calledBack + 1 }
  else if !finished && stopTogether then { done with loops := .stopping 0 false :: done.loops }
  else done

/-- A loop goes on: it calls the child, sets the flag after the call, or returns. -/
def resume : Option Parallel :=
  match parallel.loops with
  | [] => none
  | .stopping idx called :: rest =>
    some <| if length ≤ idx then { parallel with loops := rest }
      else if called then
        { parallel with
          hasEnded := insert idx parallel.hasEnded
          loops := .stopping (idx + 1) false :: rest }
      else
        { parallel with
          told := if idx ∈ parallel.hasEnded then parallel.told else idx :: parallel.told
          loops := .stopping idx true :: rest }
  | .resetting idx called :: rest =>
    some <| if length ≤ idx then { parallel with loops := rest }
      else if called then
        { parallel with
          hasEnded := parallel.hasEnded.erase idx
          doneCount := 0
          loops := .resetting (idx + 1) false :: rest }
      else { parallel with loops := .resetting idx true :: rest }

inductive Event
  | start
  | stop
  | reset
  | resume
  | ended (idx : ℕ) (finished : Bool)

/-- A start comes when the one before has ended. -/
def step : Event → Option Parallel
  | .start => if parallel.calledBack = parallel.starts then some (parallel.start length) else none
  | .stop => some { parallel with loops := .stopping 0 false :: parallel.loops }
  | .reset => some { parallel with loops := .resetting 0 false :: parallel.loops }
  | .resume => parallel.resume length
  | .ended idx finished =>
    if idx ∈ parallel.running then some (parallel.ended length stopTogether idx finished) else none

/-- Starts find the flags clear and no loop under way, and resets no child that runs. -/
def Cleared : Event → Prop
  | .start => parallel.hasEnded = ∅ ∧ parallel.loops = []
  | .reset => parallel.running = ∅
  | _ => True

/-- A child that runs although its flag is set, or a loop is past it, was told to stop. -/
structure Sound : Prop where
  count : parallel.doneCount + parallel.running.card = if parallel.running = ∅ then 0 else length
  flagged : ∀ idx ∈ parallel.running, idx ∈ parallel.hasEnded → idx ∈ parallel.told
  stopping : ∀ idx called, .stopping idx called ∈ parallel.loops → ∀ other ∈ parallel.running,
    other < idx ∨ other = idx ∧ called = true → other ∈ parallel.told
  resetting : ∀ idx called, .resetting idx called ∈ parallel.loops → parallel.running = ∅
  calls : parallel.calledBack + (if parallel.running = ∅ then 0 else 1) = parallel.starts
  inside : ∀ idx ∈ parallel.running, idx < length

variable {length stopTogether} {parallel next : Parallel} {event : Event}

theorem Sound.step (sound : parallel.Sound length) (cleared : parallel.Cleared event)
    (stepped : step length stopTogether parallel event = some next) : next.Sound length := by
  obtain ⟨count, flagged, stopping, resetting, calls, inside⟩ := sound
  cases event with
  | start =>
    simp only [Parallel.step, Option.ite_none_right_eq_some, Option.some.injEq] at stepped
    obtain ⟨ended, rfl⟩ := stepped
    obtain ⟨flags, loops⟩ := cleared
    have idle : parallel.running = ∅ := by
      by_contra runs
      rw [if_neg runs] at calls
      omega
    rw [idle, if_pos rfl, Finset.card_empty, Nat.add_zero] at count
    unfold start
    split
    next same =>
      -- There is no child, so that the callback is called at once.
      refine ⟨?_, flagged, stopping, resetting, ?_, inside⟩
      · simp [idle, count]
      · simp [idle, ended]
    next children =>
      have some : Finset.range length ≠ ∅ := by
        rw [Ne, Finset.range_eq_empty_iff]
        omega
      refine ⟨?_, ?_, ?_, ?_, ?_, ?_⟩
      · simp only [count, Finset.card_range, if_neg some, Nat.zero_add]
      · simp [flags]
      · simp [loops]
      · simp [loops]
      · simp only [if_neg some, ended]
      · simp
  | stop =>
    cases stepped
    refine ⟨count, flagged, ?_, ?_, calls, inside⟩
    · intro idx called member other runs passed
      rcases List.mem_cons.1 member with same | earlier
      · cases same
        simp at passed
      · exact stopping idx called earlier other runs passed
    · intro idx called member
      exact resetting idx called (by simpa using member)
  | reset =>
    cases stepped
    refine ⟨count, flagged, ?_, fun _ _ _ => cleared, calls, inside⟩
    intro idx called member
    exact stopping idx called (by simpa using member)
  | resume =>
    simp only [Parallel.step, resume] at stepped
    split at stepped
    next => cases stepped
    next idx called rest loops =>
      cases stepped
      rw [loops] at stopping resetting
      have stoppingRest idx called (member : .stopping idx called ∈ rest) :=
        stopping idx called (List.mem_cons_of_mem _ member)
      have resettingRest idx called (member : .resetting idx called ∈ rest) :=
        resetting idx called (List.mem_cons_of_mem _ member)
      have here := stopping idx called List.mem_cons_self
      split
      next => exact ⟨count, flagged, stoppingRest, resettingRest, calls, inside⟩
      split
      next _ wasCalled =>
        -- The flag is set after the call; the child was told to stop before it, or by it.
        refine ⟨count, ?_, ?_, ?_, calls, inside⟩
        · intro other runs isFlagged
          rcases Finset.mem_insert.1 isFlagged with rfl | old
          · exact here other runs (.inr ⟨rfl, wasCalled⟩)
          · exact flagged other runs old
        · intro at_ called member other runs passed
          rcases List.mem_cons.1 member with same | earlier
          · cases same
            refine here other runs ?_
            simp only [Bool.false_eq_true, and_false, or_false] at passed
            rcases Nat.lt_succ_iff_lt_or_eq.1 passed with below | rfl
            · exact .inl below
            · exact .inr ⟨rfl, wasCalled⟩
          · exact stoppingRest at_ called earlier other runs passed
        · intro at_ called member
          exact resettingRest at_ called (by simpa using member)
      next =>
        have told other (old : other ∈ parallel.told) :
            other ∈ if idx ∈ parallel.hasEnded then parallel.told else idx :: parallel.told := by
          split_ifs
          · exact old
          · exact List.mem_cons_of_mem idx old
        refine ⟨count, fun other runs isFlagged => told other (flagged other runs isFlagged), ?_, ?_,
          calls, inside⟩
        · intro at_ called member other runs passed
          rcases List.mem_cons.1 member with same | earlier
          · cases same
            rcases passed with below | ⟨rfl, -⟩
            · exact told other (here other runs (.inl below))
            · by_cases isFlagged : other ∈ parallel.hasEnded
              · exact told other (flagged other runs isFlagged)
              · rw [if_neg isFlagged]
                exact List.mem_cons_self
          · exact told other (stoppingRest at_ called earlier other runs passed)
        · intro at_ called member
          exact resettingRest at_ called (by simpa using member)
    next idx called rest loops =>
      cases stepped
      rw [loops] at stopping resetting
      have idle : parallel.running = ∅ := resetting idx called List.mem_cons_self
      -- While a loop of `reset` is under way no child runs, and only the counter matters.
      rw [idle, if_pos rfl, Finset.card_empty, Nat.add_zero] at count
      split_ifs <;> refine ⟨?_, ?_, ?_, fun _ _ _ => idle, calls, inside⟩ <;> simp [idle, count]
  | ended idx finished =>
    simp only [Parallel.step, Option.ite_none_right_eq_some, Option.some.injEq] at stepped
    obtain ⟨runs, rfl⟩ := stepped
    have busy : parallel.running ≠ ∅ := Finset.ne_empty_of_mem runs
    rw [if_neg busy] at count calls
    have fewer := Finset.card_erase_add_one runs
    have left other (member : other ∈ parallel.running.erase idx) :
        other ≠ idx ∧ other ∈ parallel.running := Finset.mem_erase.1 member
    have last : parallel.doneCount + 1 = length ↔ parallel.running.erase idx = ∅ := by
      rw [← Finset.card_eq_zero]
      omega
    have flaggedLeft : ∀ other ∈ parallel.running.erase idx,
        other ∈ insert idx parallel.hasEnded → other ∈ parallel.told := by
      intro other member isFlagged
      obtain ⟨differs, stillRuns⟩ := left other member
      exact flagged other stillRuns (Finset.mem_of_mem_insert_of_ne isFlagged differs)
    have insideLeft other (member : other ∈ parallel.running.erase idx) :=
      inside other (left other member).2
    have stoppingLeft at_ called (under : .stopping at_ called ∈ parallel.loops) other
        (member : other ∈ parallel.running.erase idx) :=
      stopping at_ called under other (left other member).2
    -- No loop of `reset` is under way, since a child runs.
    have resettingLeft at_ called (under : .resetting at_ called ∈ parallel.loops) :
        parallel.running.erase idx = ∅ := (busy (resetting at_ called under)).elim
    unfold ended
    dsimp only
    split
    next isLast =>
      have idle := last.1 isLast
      refine ⟨?_, flaggedLeft, stoppingLeft, resettingLeft, ?_, insideLeft⟩
      · simp [idle]
      · simp [idle, calls]
    next notLast =>
      have others := mt last.2 notLast
      have countLeft : parallel.doneCount + 1 + (parallel.running.erase idx).card =
          if parallel.running.erase idx = ∅ then 0 else length := by
        rw [if_neg others]
        omega
      have callsLeft : parallel.calledBack + (if parallel.running.erase idx = ∅ then 0 else 1) =
          parallel.starts := by rw [if_neg others, calls]
      split
      next =>
        refine ⟨countLeft, flaggedLeft, ?_, ?_, callsLeft, insideLeft⟩
        · intro at_ called member other runs passed
          rcases List.mem_cons.1 member with same | under
          · cases same
            simp at passed
          · exact stoppingLeft at_ called under other runs passed
        · intro at_ called member
          exact resettingLeft at_ called (by simpa using member)
      next => exact ⟨countLeft, flaggedLeft, stoppingLeft, resettingLeft, callsLeft, insideLeft⟩

end Parallel

end ReactNative.Animated

