import Mathlib.Data.Nat.Notation

/-! A loop takes turns until its condition fails, which is that there is no next turn, or until a
turn throws. A loop that is still running when the fuel is used up has no outcome, so that an
outcome is a proof of termination. -/
namespace Loops

variable {S E : Type} (turn : S → Option (Except E S))

def loop : ℕ → S → Option (Except E S)
  | 0, _ => none
  | fuel + 1, state =>
    match turn state with
    | none => some (.ok state)
    | some (.error error) => some (.error error)
    | some (.ok next) => loop fuel next

/-- **Countdown rule.** The invariant says how many turns are left at most; then the loop
ends, at a state that has it or with the error of a turn. -/
theorem loop_countdown (Inv : ℕ → S → Prop) (Fails : E → Prop)
    (stops : ∀ state, Inv 0 state → turn state = none)
    (keeps : ∀ left state next, Inv (left + 1) state → turn state = some (.ok next) → Inv left next)
    (fails : ∀ left state error, Inv left state → turn state = some (.error error) → Fails error)
    {left fuel : ℕ} {state : S} (start : Inv left state) (enough : left < fuel) :
    (∃ final rest, loop turn fuel state = some (.ok final) ∧ turn final = none ∧
      Inv rest final) ∨ ∃ error, loop turn fuel state = some (.error error) ∧ Fails error := by
  -- The fuel bounds the turns that are left, so the induction is on it.
  induction fuel generalizing left state with
  | zero => exact absurd enough (Nat.not_lt_zero left)
  | succ fuel ih =>
    rw [loop]
    cases taken : turn state with
    | none =>
      left
      exact ⟨state, left, rfl, taken, start⟩
    | some outcome =>
      cases outcome with
      | error error =>
        right
        exact ⟨error, rfl, fails left state error start taken⟩
      | ok next =>
        cases left with
        | zero =>
          rw [stops state start] at taken
          cases taken
        | succ left =>
          exact ih (keeps left state next start taken) (Nat.lt_of_succ_lt_succ enough)

/-- **Loop over a list.** If each turn succeeds and takes the invariant from the elements with its
own to those after it, the loop succeeds, with the invariant of no elements. -/
theorem foldlM_countdown {A : Type} (act : S → A → Option S) (Inv : List A → S → Prop)
    (keeps : ∀ element rest state, Inv (element :: rest) state →
      ∃ next, act state element = some next ∧ Inv rest next)
    {elements : List A} {state : S} (start : Inv elements state) :
    ∃ final, elements.foldlM act state = some final ∧ Inv [] final := by
  induction elements generalizing state with
  | nil => exact ⟨state, rfl, start⟩
  | cons element rest ih =>
    obtain ⟨next, acts, later⟩ := keeps element rest state start
    obtain ⟨final, loops, done⟩ := ih later
    refine ⟨final, ?_, done⟩
    rw [List.foldlM_cons, acts]
    exact loops

/-! ### Turns with an environment -/

inductive TurnEnd (S R : Type) where
  | continues (next : S)
  | ends (result : R)

section

variable {S R : Type} (turn : ℕ → S → TurnEnd S R)

/-- As many turns as there is fuel, the first of them with the index. -/
def runTurns : (fuel index : ℕ) → S → TurnEnd S R
  | 0, _, state => .continues state
  | fuel + 1, index, state =>
    match turn index state with
    | .continues next => runTurns fuel (index + 1) next
    | .ends result => .ends result

variable {turn} {index fuel : ℕ} {state : S}

theorem runTurns_succ_of_continues {next : S} (continues : turn index state = .continues next) :
    runTurns turn (fuel + 1) index state = runTurns turn fuel (index + 1) next := by
  rw [runTurns, continues]

variable {result : R}

theorem runTurns_succ_of_ends (ends : turn index state = .ends result) :
    runTurns turn (fuel + 1) index state = .ends result := by
  rw [runTurns, ends]

theorem runTurns_succ {reached : S} (ran : runTurns turn fuel index state = .continues reached) :
    runTurns turn (fuel + 1) index state = turn (index + fuel) reached := by
  induction fuel generalizing index state with
  | zero =>
    cases ran
    rw [runTurns, Nat.add_zero]
    cases turn index reached with
    | continues => rfl
    | ends result => rfl
  | succ fuel ih =>
    cases first : turn index state with
    | ends result =>
      rw [runTurns_succ_of_ends first] at ran
      cases ran
    | continues =>
      rw [runTurns_succ_of_continues first] at ran ⊢
      rw [ih ran, Nat.add_comm fuel 1, ← Nat.add_assoc]

theorem runTurns_unique {other : ℕ} {otherResult : R}
    (ends : runTurns turn fuel index state = .ends result)
    (otherEnds : runTurns turn other index state = .ends otherResult) : result = otherResult := by
  induction fuel generalizing other index state with
  | zero => cases ends
  | succ fuel ih =>
    cases other with
    | zero => cases otherEnds
    | succ other =>
      cases first : turn index state with
      | ends =>
        rw [runTurns_succ_of_ends first] at ends otherEnds
        cases ends
        cases otherEnds
        rfl
      | continues =>
        rw [runTurns_succ_of_continues first] at ends otherEnds
        exact ih ends otherEnds

theorem runTurns_ends_of_le {taken : ℕ}
    (ends : runTurns turn taken index state = .ends result) (le : taken ≤ fuel) :
    runTurns turn fuel index state = .ends result := by
  induction taken generalizing fuel index state with
  | zero => cases ends
  | succ taken ih =>
    obtain ⟨fuel, rfl⟩ := Nat.exists_eq_succ_of_ne_zero (Nat.ne_zero_of_lt le)
    cases first : turn index state with
    | ends =>
      rw [runTurns_succ_of_ends first] at ends ⊢
      exact ends
    | continues =>
      rw [runTurns_succ_of_continues first] at ends ⊢
      exact ih ends (Nat.le_of_succ_le_succ le)

/-- **Countdown rule.** If each turn of a state that is reached either ends the loop as it should or
takes the invariant to fewer turns left, the loop ends as it should. The invariant may say how many
turns have been taken. -/
theorem runTurns_countdown {start : S} (Inv : (taken left : ℕ) → S → Prop)
    (Goal : (taken : ℕ) → R → Prop)
    (keeps : ∀ taken left state, runTurns turn taken 0 start = .continues state →
      Inv taken left state →
      (∃ next later, turn taken state = .continues next ∧ later < left ∧
        Inv (taken + 1) later next) ∨
        ∃ result, turn taken state = .ends result ∧ Goal taken result)
    {left : ℕ} (holds : Inv 0 left start) :
    ∃ taken result, runTurns turn (taken + 1) 0 start = .ends result ∧ Goal taken result := by
  have ends : ∀ left taken state, runTurns turn taken 0 start = .continues state →
      Inv taken left state → ∃ taken result, runTurns turn (taken + 1) 0 start = .ends result ∧
        Goal taken result := by
    intro left
    induction left using Nat.strongRecOn with
    | ind left ih =>
      intro taken state reached inv
      have turned := runTurns_succ reached
      rw [Nat.zero_add] at turned
      rcases keeps taken left state reached inv with
        ⟨next, later, continues, fewer, invNext⟩ | ⟨result, ended, goal⟩
      · rw [continues] at turned
        exact ih later fewer (taken + 1) next turned invNext
      · rw [ended] at turned
        exact ⟨taken, result, turned, goal⟩
  exact ends left 0 start rfl holds

end

end Loops

