import Mathlib.Algebra.Notation.Defs
import ReactNative.Foundation.Runs

/-! `fires` gives the times of what happens in one step, and `firings` those of a whole run in their
order. -/
namespace Runs

variable {S A T : Type} (step : S → A → Option S) (fires : S → A → S → List T)

def firings : S → List A → List T
  | _, [] => []
  | state, action :: rest =>
    match step state action with
    | none => []
    | some next => fires state action next ++ firings next rest

/-- The first time is not before `earliest`, and each later one comes at least a period after the
one before it. -/
def Spaced [Add T] [LE T] (period : T) : T → List T → Prop
  | _, [] => True
  | earliest, time :: rest => earliest ≤ time ∧ Spaced period (time + period) rest

instance decidableSpaced [Add T] [LE T] [DecidableLE T] (period : T) :
    ∀ (earliest : T) (times : List T), Decidable (Spaced period earliest times)
  | _, [] => .isTrue trivial
  | earliest, time :: rest =>
    have := decidableSpaced period (time + period) rest
    inferInstanceAs (Decidable (earliest ≤ time ∧ Spaced period (time + period) rest))

variable {step fires} {condition : S → A → Prop}

/-- **Spacing rule.** A step either fires nothing and keeps the earliest time, or fires once, not
before it, and puts it a period after that. -/
theorem firings_spaced [Add T] [LE T] {period : T} (NotBefore : T → S → Prop)
    (keeps : ∀ earliest state action next, NotBefore earliest state → condition state action →
      step state action = some next →
      (fires state action next = [] ∧ NotBefore earliest next) ∨
        ∃ time, fires state action next = [time] ∧ earliest ≤ time ∧ NotBefore (time + period) next)
    {earliest : T} {state : S} {actions : List A} (start : NotBefore earliest state)
    (along : Along step condition state actions) :
    Spaced period earliest (firings step fires state actions) := by
  induction actions generalizing earliest state with
  | nil => trivial
  | cons action _ ih =>
    rw [firings]
    split
    next => trivial
    next next stepped =>
      rcases keeps earliest state action next start along.1 stepped with
        ⟨quiet, later⟩ | ⟨time, fired, inTime, later⟩
      · rw [quiet]
        exact ih later (along.2 next stepped)
      · rw [fired]
        exact ⟨inTime, ih later (along.2 next stepped)⟩

end Runs

