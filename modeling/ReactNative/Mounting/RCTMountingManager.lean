import Mathlib.Data.List.Induction

/-! `initiateTransaction:` pulls a transaction from a mounting coordinator and mounts it. -/
namespace ReactNative

open List

inductive CoordinatorEvent (Coordinator : Type) where
  | initiateTransaction (coordinator : Coordinator)
  | pullTransaction (coordinator : Coordinator)

variable (Coordinator : Type)

/-- A transaction that was pulled: its mutations, and the coordinators that `initiateTransaction:`
is called for while they are mounted. -/
structure PulledTransaction where
  mutations : ℕ
  requests : List Coordinator

structure RCTMountingManager where
  transactionInFlight : Bool := false
  followUpTransactionRequired : Bool := false
  history : List (CoordinatorEvent Coordinator) := []

/-- A call that is not made while another one is in flight, with what is pulled in it one time
after the other. Nothing is pulled after the end of the list. -/
structure OutermostCall where
  coordinator : Coordinator
  transactions : List (Option (PulledTransaction Coordinator))

namespace RCTMountingManager

variable {Coordinator : Type} (manager : RCTMountingManager Coordinator)

def record (event : CoordinatorEvent Coordinator) : RCTMountingManager Coordinator :=
  { manager with history := manager.history ++ [event] }

variable (coordinator : Coordinator)

/-- `initiateTransaction:` while a transaction is in flight. -/
def requireFollowUp : RCTMountingManager Coordinator :=
  { manager.record (.initiateTransaction coordinator) with followUpTransactionRequired := true }

/-- It returns early if nothing was pulled, or no mutations. -/
def performTransaction
    (transaction : Option (PulledTransaction Coordinator)) : RCTMountingManager Coordinator :=
  let manager := manager.record (.pullTransaction coordinator)
  match transaction with
  | none => manager
  | some pulled =>
    if pulled.mutations = 0 then manager else pulled.requests.foldl requireFollowUp manager

def turn (transaction : Option (PulledTransaction Coordinator)) : RCTMountingManager Coordinator :=
  let manager := { manager with followUpTransactionRequired := false, transactionInFlight := true }
  { manager.performTransaction coordinator transaction with transactionInFlight := false }

def performTransactions (coordinator : Coordinator) :
    List (Option (PulledTransaction Coordinator)) → RCTMountingManager Coordinator →
      RCTMountingManager Coordinator
  | [], manager => manager.turn coordinator none
  | transaction :: rest, manager =>
    let manager := manager.turn coordinator transaction
    if manager.followUpTransactionRequired then performTransactions coordinator rest manager
    else manager

def initiateTransaction (manager : RCTMountingManager Coordinator) (coordinator : Coordinator)
    (transactions : List (Option (PulledTransaction Coordinator))) :
    RCTMountingManager Coordinator :=
  if manager.transactionInFlight then manager.requireFollowUp coordinator
  else performTransactions coordinator transactions
    (manager.record (.initiateTransaction coordinator))

def run (calls : List (OutermostCall Coordinator)) : RCTMountingManager Coordinator :=
  calls.foldl (fun manager call => manager.initiateTransaction call.coordinator call.transactions) {}

/-- Each coordinator that was passed to a call had a transaction pulled from it afterwards. -/
def Served (history : List (CoordinatorEvent Coordinator)) : Prop :=
  ∀ before coordinator after, history = before ++ .initiateTransaction coordinator :: after →
    .pullTransaction coordinator ∈ after

end RCTMountingManager

/-- The calls that are made while the transaction is mounted. -/
def requestsOf {Coordinator : Type} : Option (PulledTransaction Coordinator) → List Coordinator
  | none => []
  | some pulled => if pulled.mutations = 0 then [] else pulled.requests

/-- The transactions that an outermost call performs: as long as the last one asked for another. -/
def performed {Coordinator : Type} :
    List (Option (PulledTransaction Coordinator)) → List (Option (PulledTransaction Coordinator))
  | [] => []
  | transaction :: rest =>
    transaction :: if requestsOf transaction = [] then [] else performed rest

/-- While a surface is mounted, transactions are asked for this surface only. -/
def OutermostCall.SameSurface {Coordinator : Type} (call : OutermostCall Coordinator) : Prop :=
  ∀ transaction ∈ performed call.transactions, ∀ requested ∈ requestsOf transaction,
    requested = call.coordinator

namespace RCTMountingManager

variable {Coordinator : Type} {manager : RCTMountingManager Coordinator} {coordinator : Coordinator}

/-! ### What a call leaves in the history -/

def turns (coordinator : Coordinator) :
    List (Option (PulledTransaction Coordinator)) → List (CoordinatorEvent Coordinator)
  | [] => [.pullTransaction coordinator]
  | transaction :: rest =>
    .pullTransaction coordinator :: ((requestsOf transaction).map .initiateTransaction ++
      if requestsOf transaction = [] then [] else turns coordinator rest)

theorem foldl_requireFollowUp (requests : List Coordinator)
    (manager : RCTMountingManager Coordinator) :
    requests.foldl requireFollowUp manager =
      { manager with
        followUpTransactionRequired := manager.followUpTransactionRequired || !requests.isEmpty
        history := manager.history ++ requests.map .initiateTransaction } := by
  induction requests generalizing manager with
  | nil => simp
  | cons _ _ ih =>
    rw [foldl_cons, ih]
    simp [requireFollowUp, record]

section

variable (manager : RCTMountingManager Coordinator) (coordinator : Coordinator)
  (transaction : Option (PulledTransaction Coordinator))

theorem performTransaction_eq :
    manager.performTransaction coordinator transaction =
      (requestsOf transaction).foldl requireFollowUp
        (manager.record (.pullTransaction coordinator)) := by
  cases transaction with
  | none => rfl
  | some =>
    rw [performTransaction, requestsOf]
    split
    next => rfl
    next => rfl

theorem turn_eq :
    manager.turn coordinator transaction =
      { transactionInFlight := false
        followUpTransactionRequired := !(requestsOf transaction).isEmpty
        history := manager.history ++ .pullTransaction coordinator ::
          (requestsOf transaction).map .initiateTransaction } := by
  rw [turn, performTransaction_eq, foldl_requireFollowUp]
  simp [record]

end

theorem performTransactions_spec (coordinator : Coordinator)
    (transactions : List (Option (PulledTransaction Coordinator)))
    (manager : RCTMountingManager Coordinator) :
    (performTransactions coordinator transactions manager).transactionInFlight = false ∧
      (performTransactions coordinator transactions manager).history =
        manager.history ++ turns coordinator transactions := by
  induction transactions generalizing manager with
  | nil =>
    exact ⟨rfl, rfl⟩
  | cons transaction _ ih =>
    rw [performTransactions, turn_eq, turns]
    split
    next requested =>
      obtain ⟨landed, history⟩ := ih
        { transactionInFlight := false
          followUpTransactionRequired := !(requestsOf transaction).isEmpty
          history := manager.history ++ .pullTransaction coordinator ::
            (requestsOf transaction).map .initiateTransaction }
      refine ⟨landed, history.trans ?_⟩
      have some : requestsOf transaction ≠ [] := by simpa using requested
      rw [if_neg some, append_assoc, cons_append]
    next none =>
      have none : requestsOf transaction = [] := by simpa using none
      rw [none]
      exact ⟨rfl, rfl⟩

theorem initiateTransaction_spec (landed : manager.transactionInFlight = false)
    (coordinator : Coordinator) (transactions : List (Option (PulledTransaction Coordinator))) :
    (manager.initiateTransaction coordinator transactions).transactionInFlight = false ∧
      (manager.initiateTransaction coordinator transactions).history = manager.history ++
        .initiateTransaction coordinator :: turns coordinator transactions := by
  rw [initiateTransaction, landed]
  obtain ⟨landedAfter, history⟩ := performTransactions_spec coordinator transactions
    (manager.record (.initiateTransaction coordinator))
  refine ⟨landedAfter, history.trans ?_⟩
  rw [record, append_assoc, singleton_append]

/-! ### Histories in which all are served -/

theorem served_nil : Served ([] : List (CoordinatorEvent Coordinator)) := by
  intro before other after split
  exact absurd split.symm (append_ne_nil_of_right_ne_nil _ (cons_ne_nil _ _))

variable {history : List (CoordinatorEvent Coordinator)}

theorem served_cons_initiate : Served (.initiateTransaction coordinator :: history) ↔
      .pullTransaction coordinator ∈ history ∧ Served history := by
  constructor
  · intro served
    refine ⟨served [] coordinator history rfl, ?_⟩
    intro before other after split
    exact served (_ :: before) other after (by rw [split, cons_append])
  · rintro ⟨pulled, served⟩ before other after split
    cases before with
    | nil =>
      cases split
      exact pulled
    | cons _ before =>
      exact served before other after (List.cons.inj split).2

theorem served_cons_pull : Served (.pullTransaction coordinator :: history) ↔ Served history := by
  constructor
  · intro served before other after split
    exact served (_ :: before) other after (by rw [split, cons_append])
  · intro served before other after split
    cases before with
    | nil => cases split
    | cons _ before =>
      exact served before other after (List.cons.inj split).2

theorem Served.append {first second : List (CoordinatorEvent Coordinator)} (served : Served first)
    (servedLater : Served second) : Served (first ++ second) := by
  induction first with
  | nil => exact servedLater
  | cons event _ ih =>
    cases event with
    | initiateTransaction coordinator =>
      obtain ⟨pulled, servedRest⟩ := served_cons_initiate.mp served
      exact served_cons_initiate.mpr ⟨mem_append_left _ pulled, ih servedRest⟩
    | pullTransaction coordinator =>
      exact served_cons_pull.mpr (ih (served_cons_pull.mp served))

theorem pull_mem_turns (coordinator : Coordinator)
    (transactions : List (Option (PulledTransaction Coordinator))) :
    .pullTransaction coordinator ∈ turns coordinator transactions := by
  cases transactions with
  | nil => exact mem_singleton.mpr rfl
  | cons => exact mem_cons_self

variable {transactions : List (Option (PulledTransaction Coordinator))}

theorem eq_of_pull_mem_turns
    {other : Coordinator} (pulled : .pullTransaction other ∈ turns coordinator transactions) :
    other = coordinator := by
  induction transactions with
  | nil =>
    cases mem_singleton.mp pulled
    rfl
  | cons _ _ ih =>
    rcases mem_cons.mp pulled with same | later
    · cases same
      rfl
    · rcases mem_append.mp later with requested | later
      · obtain ⟨_, -, differs⟩ := mem_map.mp requested
        cases differs
      · split at later
        next => cases later
        next => exact ih later

theorem initiate_mem_turns
    {transaction : Option (PulledTransaction Coordinator)} {requested : Coordinator}
    (isPerformed : transaction ∈ performed transactions)
    (isRequested : requested ∈ requestsOf transaction) :
    .initiateTransaction requested ∈ turns coordinator transactions := by
  induction transactions with
  | nil => cases isPerformed
  | cons _ _ ih =>
    apply mem_cons_of_mem
    rw [mem_append]
    rcases mem_cons.mp isPerformed with rfl | later
    · exact Or.inl (mem_map_of_mem isRequested)
    · split at later
      next => cases later
      next asked =>
        rw [if_neg asked]
        exact Or.inr (ih later)

theorem served_requests {requests : List Coordinator}
    (same : ∀ requested ∈ requests, requested = coordinator)
    (pulled : .pullTransaction coordinator ∈ history) (served : Served history) :
    Served (requests.map .initiateTransaction ++ history) := by
  induction requests with
  | nil => exact served
  | cons request _ ih =>
    obtain rfl := same request mem_cons_self
    refine served_cons_initiate.mpr ⟨mem_append_right _ pulled, ih ?_⟩
    exact fun requested member => same requested (mem_cons_of_mem _ member)

theorem served_turns
    (same : ∀ transaction ∈ performed transactions, ∀ requested ∈ requestsOf transaction,
      requested = coordinator) : Served (turns coordinator transactions) := by
  induction transactions with
  | nil => exact served_cons_pull.mpr served_nil
  | cons transaction rest ih =>
    refine served_cons_pull.mpr ?_
    have here := same transaction mem_cons_self
    split
    next none =>
      rw [none]
      exact served_nil
    next asked =>
      refine served_requests here (pull_mem_turns coordinator rest) (ih ?_)
      intro later isPerformed
      refine same later ?_
      rw [performed, if_neg asked]
      exact mem_cons_of_mem _ isPerformed

/-! ### Runs -/

variable (calls : List (OutermostCall Coordinator)) (call : OutermostCall Coordinator)

theorem run_concat :
    run (calls ++ [call]) = (run calls).initiateTransaction call.coordinator call.transactions := by
  rw [run, foldl_append]
  rfl

theorem landed_run : (run calls).transactionInFlight = false := by
  induction calls using reverseRecOn with
  | nil => rfl
  | append_singleton calls call ih =>
    rw [run_concat]
    exact (initiateTransaction_spec ih call.coordinator call.transactions).1

theorem history_run_concat : (run (calls ++ [call])).history = (run calls).history ++
      .initiateTransaction call.coordinator :: turns call.coordinator call.transactions := by
  rw [run_concat]
  exact (initiateTransaction_spec (landed_run calls) call.coordinator call.transactions).2

theorem served_run {calls : List (OutermostCall Coordinator)}
    (same : ∀ call ∈ calls, call.SameSurface) : Served (run calls).history := by
  induction calls using reverseRecOn with
  | nil => exact served_nil
  | append_singleton calls call ih =>
    rw [history_run_concat]
    refine (ih fun other member => same other (mem_append_left _ member)).append ?_
    refine served_cons_initiate.mpr ⟨pull_mem_turns _ _, served_turns ?_⟩
    exact same call (mem_append_right _ mem_cons_self)

theorem sameSurface_of_served {calls : List (OutermostCall Coordinator)}
    {call : OutermostCall Coordinator} (served : Served (run (calls ++ [call])).history) :
    call.SameSurface := by
  intro transaction isPerformed requested isRequested
  have initiated : .initiateTransaction requested ∈ turns call.coordinator call.transactions :=
    initiate_mem_turns isPerformed isRequested
  obtain ⟨before, after, split⟩ := append_of_mem initiated
  rw [history_run_concat, split] at served
  have pulled := served ((run calls).history ++ .initiateTransaction call.coordinator :: before)
    requested after (by rw [append_assoc, cons_append])
  have pulledHere : .pullTransaction requested ∈ turns call.coordinator call.transactions := by
    rw [split]
    exact mem_append_right _ (mem_cons_of_mem _ pulled)
  exact eq_of_pull_mem_turns pulledHere

/-- **No transaction is forgotten, whenever an outermost call returns, if and only if** each of
these calls asks for transactions of its own surface only. -/
theorem served_iff (calls : List (OutermostCall Coordinator)) :
    (∀ count, Served (run (calls.take count)).history) ↔ ∀ call ∈ calls, call.SameSurface := by
  constructor
  · intro served call member
    obtain ⟨before, after, rfl⟩ := append_of_mem member
    have here := served (before.length + 1)
    rw [take_length_add_append, take_succ_cons, take_zero] at here
    exact sameSurface_of_served here
  · intro same count
    exact served_run fun call member => same call (mem_of_mem_take member)

theorem otherSurface_not_served :
    ¬ ∀ count, Served (run ([⟨1, [some ⟨1, [2]⟩]⟩].take count)).history := by
  intro served
  have servedHere : Served (run ([] ++ [⟨1, [some ⟨1, [2]⟩]⟩])).history := served 1
  have same := sameSurface_of_served servedHere
  have asked := same (some ⟨1, [2]⟩) mem_cons_self 2 mem_cons_self
  cases asked

end RCTMountingManager

end ReactNative

