import ReactNative.Foundation.Runs

/-! A commit takes the next revision number under the commit mutex and pushes its revision later,
under the mutex of the coordinator. -/
namespace ReactNative

open Option

variable {R : Type}

structure ShadowTreeRevision (R : Type) where
  rootShadowNode : R
  number : Nat
  deriving DecidableEq

structure MountingCoordinator (R : Type) where
  baseRevision : ShadowTreeRevision R
  lastRevision : Option (ShadowTreeRevision R) := none
  number : Nat := 0

structure MountingTransaction (R : Type) where
  number : Nat
  oldRootShadowNode : R
  newRootShadowNode : R

namespace MountingCoordinator

variable (coordinator : MountingCoordinator R) (revision : ShadowTreeRevision R)

/-- The assertions at the start of `push`. -/
structure PushAsserts : Prop where
  newer : revision.number > coordinator.baseRevision.number
  other : ∀ last, coordinator.lastRevision = some last → revision.number ≠ last.number

/-- The state after `push`; the assertions stand apart. -/
def push : MountingCoordinator R :=
  match coordinator.lastRevision with
  | none => { coordinator with lastRevision := some revision }
  | some last =>
    if last.number < revision.number then { coordinator with lastRevision := some revision }
    else coordinator

def pullTransaction : Option (MountingTransaction R) × MountingCoordinator R :=
  match coordinator.lastRevision with
  | none => (none, coordinator)
  | some last =>
    let number := coordinator.number + 1
    (some ⟨number, coordinator.baseRevision.rootShadowNode, last.rootShadowNode⟩,
      { baseRevision := last, lastRevision := none, number })

end MountingCoordinator

/-! ### The system -/

/-- Where a thread is inside `tryCommit`. -/
inductive CommitPhase (R : Type) where
  | idle
  /-- It has read the root that its transaction starts from. -/
  | building (oldRootShadowNode : R)
  /-- It has swapped the root and not pushed its revision yet. -/
  | pushing (revision : ShadowTreeRevision R)

structure ShadowTreeSystem (R : Type) where
  rootShadowNode : R
  revisionNumber : Nat
  mountingCoordinator : MountingCoordinator R
  threads : Nat → CommitPhase R

inductive ShadowTreeAction (R : Type) where
  | readRoot (thread : Nat)
  /-- The transaction returned `nullptr`. -/
  | abandon (thread : Nat)
  | swapRoot (thread : Nat) (newRootShadowNode : R)
  | push (thread : Nat)
  | pull

namespace ShadowTreeSystem

def start (rootShadowNode : R) : ShadowTreeSystem R where
  rootShadowNode
  revisionNumber := 0
  mountingCoordinator := { baseRevision := ⟨rootShadowNode, 0⟩ }
  threads := fun _ => .idle

def enter (system : ShadowTreeSystem R) (thread : Nat) (phase : CommitPhase R) :
    ShadowTreeSystem R :=
  { system with threads := Function.update system.threads thread phase }

variable [DecidableEq R] (system : ShadowTreeSystem R)

def step : ShadowTreeAction R → Option (ShadowTreeSystem R)
  | .readRoot thread =>
    match system.threads thread with
    | .idle => some (system.enter thread (.building system.rootShadowNode))
    | _ => none
  | .abandon thread =>
    match system.threads thread with
    | .building _ => some (system.enter thread .idle)
    | _ => none
  | .swapRoot thread newRootShadowNode =>
    match system.threads thread with
    | .building oldRootShadowNode =>
      if system.rootShadowNode ≠ oldRootShadowNode then some (system.enter thread .idle)
      else
        let revisionNumber := system.revisionNumber + 1
        some ({ system with rootShadowNode := newRootShadowNode, revisionNumber }.enter thread
          (.pushing ⟨newRootShadowNode, revisionNumber⟩))
    | _ => none
  | .push thread =>
    match system.threads thread with
    | .pushing revision =>
      some ({ system with
        mountingCoordinator := system.mountingCoordinator.push revision }.enter thread .idle)
    | _ => none
  | .pull => some { system with
      mountingCoordinator := system.mountingCoordinator.pullTransaction.2 }

/-- The numbers of the revisions that the pulls of a run adopt as base. -/
def adoptions : ShadowTreeSystem R → List (ShadowTreeAction R) → List Nat
  | _, [] => []
  | system, action :: rest =>
    let adopted := match action with
      | .pull => (system.mountingCoordinator.lastRevision.map ShadowTreeRevision.number).toList
      | _ => []
    adopted ++ match system.step action with
      | some next => adoptions next rest
      | none => []

/-- The mounted revision moves forward over a run that ends in `system`. -/
structure GoesForward (rootShadowNode : R) (actions : List (ShadowTreeAction R))
    (system : ShadowTreeSystem R) : Prop where
  /-- Whichever thread pushes next meets the assertions. -/
  asserts : ∀ thread revision, system.threads thread = .pushing revision →
    system.mountingCoordinator.PushAsserts revision
  /-- Each adopted revision is newer than the base before it. -/
  increasing : (0 :: adoptions (start rootShadowNode) actions).IsChain (· < ·)
  /-- Once all commits are pushed, one more pull mounts the latest root. -/
  latest : (∀ thread revision, system.threads thread ≠ .pushing revision) →
    system.mountingCoordinator.pullTransaction.2.baseRevision =
      ⟨system.rootShadowNode, system.revisionNumber⟩

/-- No commit is on its way with an older revision than the one a pull adopts. -/
def NoOvertaking : ShadowTreeAction R → Prop
  | .pull => ∀ last, system.mountingCoordinator.lastRevision = some last →
      ∀ thread revision, system.threads thread = .pushing revision → last.number < revision.number
  | _ => True

theorem step_cases {system next : ShadowTreeSystem R} {action : ShadowTreeAction R}
    (stepped : system.step action = some next) :
    (∃ thread phase, (∀ revision, system.threads thread ≠ .pushing revision) ∧
        (∀ revision, phase ≠ .pushing revision) ∧ action ≠ .pull ∧
        next = system.enter thread phase) ∨
      (∃ thread newRoot, (∀ revision, system.threads thread ≠ .pushing revision) ∧
        action = .swapRoot thread newRoot ∧
        next = { system with
          rootShadowNode := newRoot, revisionNumber := system.revisionNumber + 1 }.enter thread
            (.pushing ⟨newRoot, system.revisionNumber + 1⟩)) ∨
      (∃ thread revision, action = .push thread ∧ system.threads thread = .pushing revision ∧
        next = { system with
          mountingCoordinator := system.mountingCoordinator.push revision }.enter thread .idle) ∨
      (action = .pull ∧ next = { system with
        mountingCoordinator := system.mountingCoordinator.pullTransaction.2 }) := by
  -- One case for each action, and in it for the phase of the thread.
  cases action with
  | readRoot thread =>
    cases phase : system.threads thread with
    | idle =>
      simp only [step, phase, some.injEq] at stepped
      exact .inl ⟨thread, _, by simp [phase], by simp, by simp, stepped.symm⟩
    | building => simp [step, phase] at stepped
    | pushing => simp [step, phase] at stepped
  | abandon thread =>
    cases phase : system.threads thread with
    | building old =>
      simp only [step, phase, some.injEq] at stepped
      exact .inl ⟨thread, _, by simp [phase], by simp, by simp, stepped.symm⟩
    | idle => simp [step, phase] at stepped
    | pushing => simp [step, phase] at stepped
  | swapRoot thread newRoot =>
    cases phase : system.threads thread with
    | building old =>
      simp only [step, phase] at stepped
      split at stepped
      · -- Another commit was faster.
        exact .inl ⟨thread, .idle, by simp [phase], by simp, by simp, (some.inj stepped).symm⟩
      · exact .inr (.inl ⟨thread, newRoot, by simp [phase], rfl, (some.inj stepped).symm⟩)
    | idle => simp [step, phase] at stepped
    | pushing => simp [step, phase] at stepped
  | push thread =>
    cases phase : system.threads thread with
    | pushing revision =>
      simp only [step, phase, some.injEq] at stepped
      exact .inr (.inr (.inl ⟨thread, revision, rfl, phase, stepped.symm⟩))
    | idle => simp [step, phase] at stepped
    | building => simp [step, phase] at stepped
  | pull => exact .inr (.inr (.inr ⟨rfl, (some.inj stepped).symm⟩))

/-! ### The invariant -/

/-- Every revision that is pushed or waits for a pull is newer than the base and
has its own number; the latest one is on its way, waiting, or the base. -/
structure Inv : Prop where
  newer : ∀ thread revision, system.threads thread = .pushing revision →
    system.mountingCoordinator.baseRevision.number < revision.number
  issued : ∀ thread revision, system.threads thread = .pushing revision →
    revision.number ≤ system.revisionNumber
  distinct : ∀ first second revision revision', system.threads first = .pushing revision →
    system.threads second = .pushing revision' → revision.number = revision'.number →
    first = second
  waiting : ∀ last, system.mountingCoordinator.lastRevision = some last →
    system.mountingCoordinator.baseRevision.number < last.number ∧
      last.number ≤ system.revisionNumber
  other : ∀ thread revision last, system.threads thread = .pushing revision →
    system.mountingCoordinator.lastRevision = some last → revision.number ≠ last.number
  latest : (∃ thread, system.threads thread =
      .pushing ⟨system.rootShadowNode, system.revisionNumber⟩) ∨
    system.mountingCoordinator.lastRevision = some ⟨system.rootShadowNode, system.revisionNumber⟩ ∨
    (system.mountingCoordinator.lastRevision = none ∧
      system.mountingCoordinator.baseRevision = ⟨system.rootShadowNode, system.revisionNumber⟩)
  mounted : system.mountingCoordinator.baseRevision.number ≤ system.revisionNumber

omit [DecidableEq R] in
theorem inv_start (rootShadowNode : R) : Inv (start rootShadowNode) := by
  constructor <;> simp [start]

variable {thread : Nat} {phase : CommitPhase R}

section

omit [DecidableEq R]

variable {system : ShadowTreeSystem R}

/-- After a thread entered another phase, a pushing thread is that one or was pushing. -/
theorem enter_pushing {other : Nat} {revision : ShadowTreeRevision R}
    (pushing : (system.enter thread phase).threads other = .pushing revision) :
    (other = thread ∧ phase = .pushing revision) ∨
      (other ≠ thread ∧ system.threads other = .pushing revision) := by
  by_cases same : other = thread
  · subst same
    exact .inl ⟨rfl, by simpa [enter] using pushing⟩
  · exact .inr ⟨same, by simpa [enter, same] using pushing⟩

theorem Inv.enter (inv : Inv system) (was : ∀ revision, system.threads thread ≠ .pushing revision)
    (enters : ∀ revision, phase ≠ .pushing revision) : Inv (system.enter thread phase) := by
  have before : ∀ other revision, (system.enter thread phase).threads other = .pushing revision →
      system.threads other = .pushing revision := by
    intro other revision pushing
    rcases enter_pushing pushing with ⟨-, here⟩ | ⟨-, there⟩
    · exact absurd here (enters revision)
    · exact there
  constructor
  · exact fun other revision pushing => inv.newer other revision (before _ _ pushing)
  · exact fun other revision pushing => inv.issued other revision (before _ _ pushing)
  · intro first second revision revision' one two same
    exact inv.distinct first second revision revision' (before _ _ one) (before _ _ two) same
  · exact inv.waiting
  · exact fun other revision last pushing waits =>
      inv.other other revision last (before _ _ pushing) waits
  · rcases inv.latest with ⟨other, pushing⟩ | waits | mounted
    · have apart : other ≠ thread := fun same => was _ (same ▸ pushing)
      exact .inl ⟨other, by simpa [ShadowTreeSystem.enter, apart] using pushing⟩
    · exact .inr (.inl waits)
    · exact .inr (.inr mounted)
  · exact inv.mounted

theorem Inv.swap (inv : Inv system) (newRoot : R) :
    Inv ({ system with
      rootShadowNode := newRoot, revisionNumber := system.revisionNumber + 1 }.enter thread
        (.pushing ⟨newRoot, system.revisionNumber + 1⟩)) := by
  -- The new number is larger than all numbers given out so far.
  constructor
  · intro other revision pushing
    rcases enter_pushing pushing with ⟨-, here⟩ | ⟨-, there⟩
    · cases here
      exact Nat.lt_succ_of_le inv.mounted
    · exact inv.newer other revision there
  · intro other revision pushing
    rcases enter_pushing pushing with ⟨-, here⟩ | ⟨-, there⟩
    · cases here
      exact Nat.le_refl _
    · exact Nat.le_succ_of_le (inv.issued other revision there)
  · intro first second revision revision' one two same
    rcases enter_pushing one with ⟨atFirst, here⟩ | ⟨-, there⟩
    · rcases enter_pushing two with ⟨atSecond, -⟩ | ⟨-, there'⟩
      · exact atFirst.trans atSecond.symm
      · cases here
        have bound := inv.issued second revision' there'
        simp only at same
        omega
    · rcases enter_pushing two with ⟨-, here'⟩ | ⟨-, there'⟩
      · cases here'
        have bound := inv.issued first revision there
        simp only at same
        omega
      · exact inv.distinct first second revision revision' there there' same
  · intro last waits
    obtain ⟨newer, bound⟩ := inv.waiting last waits
    exact ⟨newer, Nat.le_succ_of_le bound⟩
  · intro other revision last pushing waits
    have bound := (inv.waiting last waits).2
    rcases enter_pushing pushing with ⟨-, here⟩ | ⟨-, there⟩
    · cases here
      simp only
      omega
    · exact inv.other other revision last there waits
  · exact .inl ⟨thread, by simp [ShadowTreeSystem.enter]⟩
  · exact Nat.le_succ_of_le inv.mounted

theorem push_lastRevision (coordinator : MountingCoordinator R) (revision : ShadowTreeRevision R) :
    (coordinator.push revision).baseRevision = coordinator.baseRevision ∧
      ((coordinator.push revision).lastRevision = some revision ∧
          (∀ last, coordinator.lastRevision = some last → last.number < revision.number) ∨
        ∃ last, coordinator.lastRevision = some last ∧
          (coordinator.push revision).lastRevision = some last ∧
          revision.number ≤ last.number) := by
  unfold MountingCoordinator.push
  cases waits : coordinator.lastRevision with
  | none => exact ⟨rfl, .inl ⟨rfl, by simp⟩⟩
  | some last =>
    by_cases older : last.number < revision.number
    · simp only [if_pos older]
      refine ⟨trivial, .inl ⟨trivial, ?_⟩⟩
      rintro other ⟨⟩
      exact older
    · simp only [if_neg older]
      exact ⟨trivial, .inr ⟨last, rfl, waits, Nat.le_of_not_lt older⟩⟩

theorem Inv.push (inv : Inv system) {thread : Nat}
    {revision : ShadowTreeRevision R} (pushing : system.threads thread = .pushing revision) :
    Inv ({ system with
      mountingCoordinator := system.mountingCoordinator.push revision }.enter thread .idle) := by
  obtain ⟨base, waits⟩ := push_lastRevision system.mountingCoordinator revision
  have before : ∀ other revision', ({ system with
      mountingCoordinator := system.mountingCoordinator.push revision }.enter thread
        .idle).threads other = .pushing revision' →
      other ≠ thread ∧ system.threads other = .pushing revision' := by
    intro other revision' there
    rcases enter_pushing there with ⟨-, idle⟩ | there
    · cases idle
    · exact there
  -- The revision that waits now is the pushed one or the one before.
  have known : ∀ last, (system.mountingCoordinator.push revision).lastRevision = some last →
      last = revision ∨ system.mountingCoordinator.lastRevision = some last := by
    intro last now
    rcases waits with ⟨pushed, -⟩ | ⟨old, was, stays, -⟩
    · rw [pushed, some.injEq] at now
      exact .inl now.symm
    · rw [stays] at now
      exact .inr (was.trans now)
  constructor
  · intro other revision' there
    change (system.mountingCoordinator.push revision).baseRevision.number < revision'.number
    rw [base]
    exact inv.newer other revision' (before _ _ there).2
  · exact fun other revision' there => inv.issued other revision' (before _ _ there).2
  · intro first second one two atFirst atSecond same
    exact inv.distinct first second one two (before _ _ atFirst).2 (before _ _ atSecond).2 same
  · intro last now
    change (system.mountingCoordinator.push revision).baseRevision.number < last.number ∧
      last.number ≤ system.revisionNumber
    rw [base]
    rcases known last now with rfl | was
    · exact ⟨inv.newer thread last pushing, inv.issued thread last pushing⟩
    · exact inv.waiting last was
  · intro other revision' last there now same
    obtain ⟨apart, pushing'⟩ := before _ _ there
    rcases known last now with rfl | was
    · exact apart (inv.distinct other thread revision' last pushing' pushing same)
    · exact inv.other other revision' last pushing' was same
  · rcases inv.latest with ⟨other, newest⟩ | was | ⟨-, mounted⟩
    · by_cases here : other = thread
      · -- The latest revision is the one that is pushed.
        rw [here, pushing, CommitPhase.pushing.injEq] at newest
        rcases waits with ⟨pushed, -⟩ | ⟨old, was, -, newerOld⟩
        · exact .inr (.inl (newest ▸ pushed))
        · have bound := (inv.waiting old was).2
          have apart := inv.other thread revision old pushing was
          rw [newest] at newerOld apart
          simp only at newerOld apart
          omega
      · exact .inl ⟨other, by simpa [ShadowTreeSystem.enter, here] using newest⟩
    · -- The latest revision waits already and the pushed one is older.
      rcases waits with ⟨-, older⟩ | ⟨old, was', stays, -⟩
      · have bound := inv.issued thread revision pushing
        have less := older _ was
        simp only at less
        omega
      · exact .inr (.inl (stays.trans (was'.symm.trans was)))
    · have newer := inv.newer thread revision pushing
      have bound := inv.issued thread revision pushing
      rw [mounted] at newer
      simp only at newer
      omega
  · change (system.mountingCoordinator.push revision).baseRevision.number ≤ system.revisionNumber
    rw [base]
    exact inv.mounted

theorem Inv.pull (inv : Inv system) (noOvertaking : system.NoOvertaking .pull) :
    Inv { system with mountingCoordinator := system.mountingCoordinator.pullTransaction.2 } := by
  cases waits : system.mountingCoordinator.lastRevision with
  | none =>
    have same : system.mountingCoordinator.pullTransaction.2 = system.mountingCoordinator := by
      simp [MountingCoordinator.pullTransaction, waits]
    rw [same]
    exact inv
  | some last =>
    have pulled : system.mountingCoordinator.pullTransaction.2 =
        { baseRevision := last, number := system.mountingCoordinator.number + 1 } := by
      simp [MountingCoordinator.pullTransaction, waits]
    rw [pulled]
    constructor
    · exact noOvertaking last waits
    · exact inv.issued
    · exact inv.distinct
    · simp
    · simp
    · rcases inv.latest with pushing | newest | ⟨none, -⟩
      · exact .inl pushing
      · rw [waits, some.injEq] at newest
        exact .inr (.inr ⟨rfl, newest⟩)
      · rw [waits] at none
        cases none
    · exact (inv.waiting last waits).2

end

theorem step_inv (action : ShadowTreeAction R)
    (next : ShadowTreeSystem R) (inv : Inv system) (noOvertaking : system.NoOvertaking action)
    (stepped : system.step action = some next) : Inv next := by
  rcases step_cases stepped with ⟨thread, _, was, enters, -, rfl⟩ |
    ⟨thread, newRoot, -, -, rfl⟩ | ⟨thread, revision, -, pushing, rfl⟩ | ⟨rfl, rfl⟩
  · exact inv.enter was enters
  · exact inv.swap newRoot
  · exact inv.push pushing
  · exact inv.pull noOvertaking

/-! ### Runs -/

theorem adoptions_increase (actions : List (ShadowTreeAction R)) (system final : ShadowTreeSystem R)
    (inv : Inv system) (along : Runs.Along step NoOvertaking system actions)
    (ran : Runs.run step system actions = some final) :
    (system.mountingCoordinator.baseRevision.number :: adoptions system actions).IsChain
      (· < ·) := by
  -- Induction over the actions; only a pull may change the base.
  induction actions generalizing system with
  | nil => exact .singleton _
  | cons action _ ih =>
    obtain ⟨next, stepped, ranRest⟩ := Runs.run_cons.mp ran
    have tail := ih next (step_inv system action next inv along.1 stepped) (along.2 next stepped)
      ranRest
    simp only [adoptions, stepped]
    rcases step_cases stepped with ⟨thread, _, -, -, notPull, rfl⟩ |
      ⟨thread, newRoot, -, rfl, rfl⟩ | ⟨thread, revision, rfl, -, rfl⟩ | ⟨rfl, rfl⟩
    · cases action with
      | pull => exact absurd rfl notPull
      | readRoot | abandon | swapRoot | push => exact tail
    · exact tail
    · have base := (push_lastRevision system.mountingCoordinator revision).1
      change List.IsChain (· < ·)
        ((system.mountingCoordinator.push revision).baseRevision.number :: _) at tail
      rw [base] at tail
      exact tail
    -- A pull without a revision adopts nothing.
    · cases waits : system.mountingCoordinator.lastRevision with
      | none =>
        have base : system.mountingCoordinator.pullTransaction.2.baseRevision =
            system.mountingCoordinator.baseRevision := by
          simp [MountingCoordinator.pullTransaction, waits]
        rw [base] at tail
        exact tail
      | some last =>
        have base : system.mountingCoordinator.pullTransaction.2.baseRevision = last := by
          simp [MountingCoordinator.pullTransaction, waits]
        rw [base] at tail
        exact .cons_cons (inv.waiting last waits).1 tail

/-- **The mounted revision never goes backwards** in a run whose pulls overtake no
commit. -/
theorem goesForward {rootShadowNode : R} {actions : List (ShadowTreeAction R)}
    {system : ShadowTreeSystem R} (ran : Runs.run step (start rootShadowNode) actions = some system)
    (along : Runs.Along step NoOvertaking (start rootShadowNode) actions) :
    GoesForward rootShadowNode actions system := by
  have inv := Runs.run_induction step_inv (inv_start rootShadowNode) along ran
  constructor
  · intro thread revision pushing
    exact ⟨inv.newer thread revision pushing,
      fun last waits => inv.other thread revision last pushing waits⟩
  · exact adoptions_increase actions (start rootShadowNode) system (inv_start rootShadowNode) along
      ran
  · intro finished
    rcases inv.latest with ⟨thread, pushing⟩ | newest | ⟨none, mounted⟩
    · exact absurd pushing (finished thread _)
    · simp [MountingCoordinator.pullTransaction, newest]
    · simp [MountingCoordinator.pullTransaction, none, mounted]

theorem goesForward_swapped_pushes :
    ∃ system, GoesForward 0 [.readRoot 1, .swapRoot 1 10, .readRoot 2, .swapRoot 2 20, .push 2,
        .push 1, .pull] system ∧ system.mountingCoordinator.baseRevision = ⟨20, 2⟩ := by
  have unpushed : ∀ thread revision, (if thread = 1 then .idle else if thread = 2 then .idle
      else if thread = 1 then .pushing ⟨10, 1⟩ else .idle : CommitPhase Nat) ≠
        .pushing revision := by
    intro thread revision
    split_ifs <;> simp
  refine ⟨_, goesForward rfl ?_, rfl⟩
  simpa [Runs.Along, NoOvertaking, step, start, enter, Function.update] using
    fun last _ thread revision pushing => absurd pushing (unpushed thread revision)

theorem overtaken_commit_goes_backwards :
    ¬ ∀ (actions : List (ShadowTreeAction Nat)) (system : ShadowTreeSystem Nat),
      Runs.run step (start 0) actions = some system → GoesForward 0 actions system := by
  intro all
  have forward := all [.readRoot 1, .swapRoot 1 10, .readRoot 2, .swapRoot 2 20, .push 2, .pull] _ rfl
  have newer := (forward.asserts 1 ⟨10, 1⟩ rfl).newer
  exact absurd newer (by decide)

end ShadowTreeSystem

end ReactNative

