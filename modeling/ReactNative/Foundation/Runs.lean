import Mathlib.Data.List.Basic

/-! A run executes a list of actions; an action that is not enabled has no successor. -/
namespace Runs

open Option

variable {S A : Type} (step : S → A → Option S)

def run : S → List A → Option S
  | state, [] => some state
  | state, action :: rest => (step state action).bind fun next => run next rest

/-- The condition holds before each step of the run. -/
def Along (condition : S → A → Prop) : S → List A → Prop
  | _, [] => True
  | state, action :: rest =>
    condition state action ∧ ∀ next, step state action = some next → Along condition next rest

instance decidableAlong (condition : S → A → Prop) [∀ state action, Decidable (condition state action)] :
    ∀ (state : S) (actions : List A), Decidable (Along step condition state actions)
  | _, [] => .isTrue trivial
  | state, action :: rest =>
    match stepped : step state action with
    | none =>
      decidable_of_iff (condition state action)
        ⟨fun here => ⟨here, fun _ same => by cases stepped.symm.trans same⟩, And.left⟩
    | some next =>
      have := decidableAlong condition next rest
      decidable_of_iff (condition state action ∧ Along step condition next rest)
        ⟨fun both => ⟨both.1, fun _ same => some.inj (stepped.symm.trans same) ▸ both.2⟩,
          fun both => ⟨both.1, both.2 next stepped⟩⟩

variable {step} {condition : S → A → Prop} {state final : S} {action : A} {rest : List A}

theorem run_cons : run step state (action :: rest) = some final ↔
      ∃ next, step state action = some next ∧ run step next rest = some final := by
  rw [run, bind_eq_some_iff]

theorem run_append (state : S) (first second : List A) : run step state (first ++ second) =
      (run step state first).bind fun middle => run step middle second := by
  induction first generalizing state with
  | nil => rfl
  | cons action _ ih =>
    simp only [List.cons_append, run]
    cases step state action with
    | none => rfl
    | some next => exact ih next

theorem along_cons {next : S} (here : condition state action)
    (stepped : step state action = some next) (later : Along step condition next rest) :
    Along step condition state (action :: rest) := by
  refine ⟨here, ?_⟩
  intro other same
  rw [stepped] at same
  cases same
  exact later

theorem along_append {first second : List A}
    (along : Along step condition state (first ++ second)) :
    Along step condition state first ∧
      ∀ middle, run step state first = some middle → Along step condition middle second := by
  induction first generalizing state with
  | nil =>
    refine ⟨trivial, ?_⟩
    rintro middle ⟨⟩
    exact along
  | cons _ _ ih =>
    obtain ⟨here, later⟩ := along
    refine ⟨⟨here, fun next stepped => (ih (later next stepped)).1⟩, ?_⟩
    intro middle ran
    obtain ⟨next, stepped, ranRest⟩ := run_cons.mp ran
    exact (ih (later next stepped)).2 middle ranRest

theorem along_snoc {middle : S} {first : List A} {last : A}
    (along : Along step condition state first) (ran : run step state first = some middle)
    (holds : condition middle last) : Along step condition state (first ++ [last]) := by
  induction first generalizing state with
  | nil =>
    cases ran
    exact ⟨holds, fun _ _ => trivial⟩
  | cons _ _ ih =>
    refine ⟨along.1, ?_⟩
    intro next stepped
    obtain ⟨_, same, ranRest⟩ := run_cons.mp ran
    rw [stepped] at same
    cases same
    exact ih (along.2 next stepped) ranRest

variable {actions : List A}

theorem along_of_prefixes
    (holds : ∀ first action second middle, actions = first ++ action :: second →
      run step state first = some middle → condition middle action) :
    Along step condition state actions := by
  induction actions generalizing state with
  | nil => trivial
  | cons action rest ih =>
    constructor
    · exact holds [] action rest state rfl rfl
    · intro next stepped
      apply ih
      intro first later second middle split ran
      refine holds (action :: first) later second middle (by rw [split, List.cons_append]) ?_
      rw [run, stepped]
      exact ran

variable {other : S → A → Prop}

theorem along_mono (implies : ∀ state action, condition state action → other state action)
    (along : Along step condition state actions) : Along step other state actions := by
  induction actions generalizing state with
  | nil => trivial
  | cons action _ ih =>
    exact ⟨implies state action along.1, fun next stepped => ih (along.2 next stepped)⟩

theorem along_of_forall {allowed : A → Prop} (all : ∀ action ∈ actions, allowed action)
    (state : S) : Along step (fun _ action => allowed action) state actions := by
  induction actions generalizing state with
  | nil => trivial
  | cons action _ ih =>
    constructor
    · exact all action List.mem_cons_self
    · intro next _
      exact ih (fun later member => all later (List.mem_cons_of_mem action member)) next

theorem along_and (first : Along step condition state actions)
    (second : Along step other state actions) :
    Along step (fun state action => condition state action ∧ other state action) state actions := by
  induction actions generalizing state with
  | nil => trivial
  | cons action _ ih =>
    constructor
    · exact ⟨first.1, second.1⟩
    · intro next stepped
      exact ih (first.2 next stepped) (second.2 next stepped)

/-- **Invariant rule.** What each step keeps, under the condition, a run keeps. -/
theorem run_induction {Inv : S → Prop} {state final : S} {actions : List A}
    (keeps : ∀ state action next, Inv state → condition state action →
      step state action = some next → Inv next)
    (start : Inv state) (along : Along step condition state actions)
    (ran : run step state actions = some final) : Inv final := by
  induction actions generalizing state with
  | nil =>
    cases ran
    exact start
  | cons action _ ih =>
    obtain ⟨next, stepped, ranRest⟩ := run_cons.mp ran
    exact ih (keeps state action next start along.1 stepped) (along.2 next stepped) ranRest

/-- **Equivalence rule.** Conditions that are the same for the steps from states with the invariant
hold along the same runs. -/
theorem along_iff {Inv : S → Prop} {other : S → A → Prop} {state final : S} {actions : List A}
    (keeps : ∀ state action next, Inv state → step state action = some next → Inv next)
    (same : ∀ state action next, Inv state → step state action = some next →
      (condition state action ↔ other state action))
    (start : Inv state) (ran : run step state actions = some final) :
    Along step condition state actions ↔ Along step other state actions := by
  induction actions generalizing state with
  | nil => rfl
  | cons action _ ih =>
    obtain ⟨next, stepped, ranRest⟩ := run_cons.mp ran
    have later := ih (keeps state action next start stepped) ranRest
    rw [Along, Along, same state action next start stepped]
    simp only [stepped, some.injEq, forall_eq', later]

variable {Inv : S → Prop} {allowed : S → A → Prop}

theorem along_iff_of_allowed (keeps : ∀ state action next, Inv state → allowed state action →
      step state action = some next → Inv next)
    (same : ∀ state action, Inv state → allowed state action →
      (condition state action ↔ other state action)) (start : Inv state)
    (along : Along step allowed state actions) :
    Along step condition state actions ↔ Along step other state actions := by
  induction actions generalizing state with
  | nil => rfl
  | cons action _ ih =>
    rw [Along, Along, same state action start along.1]
    refine and_congr_right fun _ => forall₂_congr fun next stepped => ?_
    exact ih (keeps state action next start along.1 stepped) (along.2 next stepped)

/-- **Conservation rule.** What a step leaves in place exactly under the condition is in place after
a run exactly if it was before and the condition held along the run. -/
theorem stays_iff_along {Good : S → Prop}
    (keeps : ∀ state action next, Inv state → allowed state action →
      step state action = some next → Inv next)
    (exactly : ∀ state action next, Inv state → allowed state action →
      step state action = some next → (Good next ↔ Good state ∧ condition state action))
    (start : Inv state) (along : Along step allowed state actions)
    (ran : run step state actions = some final) :
    Good final ↔ Good state ∧ Along step condition state actions := by
  induction actions generalizing state with
  | nil =>
    cases ran
    exact ⟨fun good => ⟨good, trivial⟩, And.left⟩
  | cons action _ ih =>
    obtain ⟨next, stepped, ranRest⟩ := run_cons.mp ran
    have later := ih (keeps state action next start along.1 stepped) (along.2 next stepped) ranRest
    rw [later, exactly state action next start along.1 stepped, Along, and_assoc]
    simp only [stepped, some.injEq, forall_eq']

/-- **Progress rule.** If a step is always possible under the condition, the run goes on to its
end. -/
theorem run_progress (steps : ∀ state action, Inv state → condition state action →
      ∃ next, step state action = some next ∧ Inv next) (start : Inv state)
    (along : Along step condition state actions) :
    ∃ final, run step state actions = some final ∧ Inv final := by
  induction actions generalizing state with
  | nil => exact ⟨state, rfl, start⟩
  | cons action _ ih =>
    obtain ⟨next, stepped, keeps⟩ := steps state action start along.1
    obtain ⟨final, ran, holds⟩ := ih keeps (along.2 next stepped)
    exact ⟨final, run_cons.mpr ⟨next, stepped, ran⟩, holds⟩

/-- **Simulation rule.** If every step of the specification is answered by a step that keeps the
relation, then so is every run of it. -/
theorem run_simulation {T : Type} {spec : T → A → Option T} {Related : S → T → Prop}
    {abstract final : T} (simulates : ∀ state abstract action next, Related state abstract →
      spec abstract action = some next →
      ∃ answer, step state action = some answer ∧ Related answer next)
    (start : Related state abstract) (ran : run spec abstract actions = some final) :
    ∃ answer, run step state actions = some answer ∧ Related answer final := by
  induction actions generalizing state abstract with
  | nil =>
    cases ran
    exact ⟨state, rfl, start⟩
  | cons action _ ih =>
    obtain ⟨next, stepped, ranRest⟩ := run_cons.mp ran
    obtain ⟨answer, answered, related⟩ := simulates state abstract action next start stepped
    obtain ⟨last, ranAnswer, relatedLast⟩ := ih related ranRest
    exact ⟨last, run_cons.mpr ⟨answer, answered, ranAnswer⟩, relatedLast⟩

/-- **Exactness rule.** If a step of a good state ends in a good state exactly under the condition,
then all states of a run are good exactly if its steps meet the condition. -/
theorem always_iff_along {Inv Good : S → Prop} {state : S} {actions : List A}
    (keeps : ∀ state action next, Inv state → Good state → step state action = some next → Inv next)
    (exactly : ∀ state action next, Inv state → Good state → step state action = some next →
      (Good next ↔ condition state action)) (start : Inv state) (good : Good state) :
    (∀ taken rest middle, actions = taken ++ rest → run step state taken = some middle →
        Good middle) ↔
      Along step (fun state action => (step state action).isSome → condition state action) state
        actions := by
  -- Induction over the actions: that the first step is fair makes the next state good.
  induction actions generalizing state with
  | nil =>
    refine iff_of_true ?_ trivial
    intro taken rest middle split ran
    rw [(List.append_eq_nil_iff.mp split.symm).1] at ran
    cases ran
    exact good
  | cons action rest ih =>
    constructor
    · intro always
      have goodNext : ∀ next, step state action = some next → Good next := by
        intro next stepped
        exact always [action] rest next rfl (run_cons.mpr ⟨next, stepped, rfl⟩)
      refine ⟨?_, ?_⟩
      · intro enabled
        obtain ⟨next, stepped⟩ := isSome_iff_exists.mp enabled
        exact (exactly state action next start good stepped).mp (goodNext next stepped)
      · intro next stepped
        refine (ih (keeps state action next start good stepped) (goodNext next stepped)).mp ?_
        intro taken left middle split ran
        exact always (action :: taken) left middle (by rw [split, List.cons_append])
          (run_cons.mpr ⟨next, stepped, ran⟩)
    · rintro ⟨here, later⟩ taken left middle split ran
      cases taken with
      | nil =>
        cases ran
        exact good
      | cons _ taken =>
        obtain ⟨rfl, restSplit⟩ := List.cons.inj split
        obtain ⟨next, stepped, ran⟩ := run_cons.mp ran
        have goodNext := (exactly state action next start good stepped).mpr
          (here (by rw [stepped]; rfl))
        exact (ih (keeps state action next start good stepped) goodNext).mpr (later next stepped)
          taken left middle restSplit ran

end Runs

