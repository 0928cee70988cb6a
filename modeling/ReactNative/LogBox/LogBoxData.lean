import ReactNative.Foundation.Runs
import Mathlib.Algebra.Order.Ring.Int
import Mathlib.Data.List.Infix

/-! Logs arrive in immediates, and a fatal log only goes into the store when it is symbolicated or
when the wait for that is over. -/
namespace ReactNative.LogBox

open List

inductive LogLevel
  | warn
  | error
  | fatal
  | syntactic
  deriving DecidableEq

structure LogBoxLog where
  id : ℕ
  level : LogLevel
  category : List UInt16
  content : List UInt16
  deriving DecidableEq

inductive IgnorePattern
  | string (text : List UInt16)
  | regExp (id : ℕ) (source : List UInt16)
  deriving DecidableEq

/-- What waits for an immediate. The update waits there while `updateTimeout` is set. -/
inductive Immediate
  | append (log : LogBoxLog)
  | update
  deriving DecidableEq

structure LogBoxData where
  logs : List LogBoxLog := []
  ignorePatterns : List IgnorePattern := []
  selectedIndex : ℤ := -1
  isDisabled : Bool := false
  immediates : List Immediate := []
  /-- The fatal logs whose `addPendingLog` has not run. -/
  pending : List LogBoxLog := []
  /-- How often a log has been repeated, by its identity. -/
  repeated : ℕ → ℕ := fun _ => 0

structure NextState where
  logs : List LogBoxLog
  isDisabled : Bool
  selectedLogIndex : ℤ

/-- `add` of a set, which keeps the order of insertion. -/
def setAdd {α : Type} [DecidableEq α] (set : List α) (item : α) : List α :=
  if item ∈ set then set else set ++ [item]

variable {α : Type} {set : List α} {item : α}

@[simp]
theorem mem_setAdd [DecidableEq α] {other : α} :
    other ∈ setAdd set item ↔ other ∈ set ∨ other = item := by
  unfold setAdd
  split <;> simp_all

theorem length_setAdd {α : Type} [DecidableEq α] {set : List α} {item : α} :
    set.length ≤ (setAdd set item).length ∧ 0 < (setAdd set item).length := by
  unfold setAdd
  split
  next member => exact ⟨le_rfl, length_pos_of_mem member⟩
  next => simp

@[simp]
theorem any_setAdd [DecidableEq α] (p : α → Bool) :
    (setAdd set item).any p = (set.any p || p item) := by
  unfold setAdd
  split
  · cases found : p item <;> simp_all
    exact ⟨item, ‹_›, found⟩
  · simp

variable (test : List UInt16 → List UInt16 → Bool)

/-- A text matches where it is included. What a regular expression does is a parameter. -/
def IgnorePattern.matches (message : List UInt16) : IgnorePattern → Bool
  | .string text => decide (text <:+: message)
  | .regExp _ source => test source message

def isMessageIgnored (ignorePatterns : List IgnorePattern) (message : List UInt16) : Bool :=
  ignorePatterns.any (IgnorePattern.matches test message)

/-- Where the search from the end finds a syntax error. -/
def latestSyntax (logs : List LogBoxLog) : Option ℕ :=
  (logs.reverse.findIdx? fun log => log.level = .syntactic).map (logs.length - 1 - ·)

namespace LogBoxData

variable (data : LogBoxData)

def getNextState : NextState := ⟨data.logs, data.isDisabled, data.selectedIndex⟩

def setImmediate (immediate : Immediate) : LogBoxData :=
  { data with immediates := data.immediates ++ [immediate] }

def handleUpdate : LogBoxData :=
  if .update ∈ data.immediates then data else data.setImmediate .update

def setSelectedLog (proposedNewIndex : ℤ) : LogBoxData :=
  { data with
    selectedIndex := (latestSyntax data.logs).elim proposedNewIndex (fun index => index)
    }.handleUpdate

def add (log : LogBoxLog) : LogBoxData :=
  { data with logs := setAdd data.logs log }

/-- `addPendingLog`, which runs at most once for a log. -/
def addPendingLog (newLog : LogBoxLog) : LogBoxData :=
  let added := { data with pending := data.pending.erase newLog }.add newLog
  if data.selectedIndex ≤ 0 then added.setSelectedLog (added.logs.length - 1)
  else added.handleUpdate

def appendNewLog (newLog : LogBoxLog) : LogBoxData :=
  if isMessageIgnored test data.ignorePatterns newLog.content then data
  else
    match data.logs.getLast?.filter (·.category = newLog.category) with
    | some lastLog =>
      { data with repeated := Function.update data.repeated lastLog.id (data.repeated lastLog.id + 1)
        }.handleUpdate
    | none =>
      match newLog.level with
      | .fatal => { data with pending := data.pending ++ [newLog] }
      | .syntactic => (data.add newLog).setSelectedLog ((data.add newLog).logs.length - 1)
      | _ => (data.add newLog).handleUpdate

def clear : LogBoxData :=
  if 0 < data.logs.length then { data with logs := [] }.setSelectedLog (-1) else data

def keepOnly (keep : LogBoxLog → Bool) : LogBoxData :=
  if (data.logs.filter keep).length ≠ data.logs.length then
    { data with logs := data.logs.filter keep }.setSelectedLog (-1)
  else data

/-- The second update of the code finds the first one set. -/
def clearWarnings : LogBoxData := data.keepOnly fun log => log.level ≠ .warn

def clearErrors : LogBoxData := data.keepOnly fun log => log.level ≠ .error ∧ log.level ≠ .fatal

def dismiss (log : LogBoxLog) : LogBoxData :=
  if log ∈ data.logs then { data with logs := data.logs.erase log }.handleUpdate else data

/-- The entries that a regular expression is compared with are pairs: it is always new. -/
def newPatterns (patterns : List IgnorePattern) : List IgnorePattern :=
  patterns.filter fun
    | .regExp .. => true
    | .string text => .string text ∉ data.ignorePatterns

def addPattern (pattern : IgnorePattern) : LogBoxData :=
  { data with
    ignorePatterns := setAdd data.ignorePatterns pattern
    logs := data.logs.filter fun log =>
      !isMessageIgnored test (setAdd data.ignorePatterns pattern) log.content }

def addIgnorePatterns (patterns : List IgnorePattern) : LogBoxData :=
  if data.newPatterns patterns = [] then data
  else ((data.newPatterns patterns).foldl (addPattern test) data).handleUpdate

def setDisabled (value : Bool) : LogBoxData :=
  if value = data.isDisabled then data else { data with isDisabled := value }.handleUpdate

/-- The first half of `_handleDismiss`, with the state of the component. -/
def beforeDismiss (selectedLogIndex : ℤ) (logsArray : List LogBoxLog) : LogBoxData :=
  if (logsArray.length : ℤ) - 1 ≤ 0 then data.setSelectedLog (-1)
  else if (logsArray.length : ℤ) - 1 ≤ selectedLogIndex then
    data.setSelectedLog (selectedLogIndex - 1)
  else data

def selectedIn (selectedLogIndex : ℤ) (logsArray : List LogBoxLog) : Option LogBoxLog :=
  if selectedLogIndex < 0 then none else logsArray[selectedLogIndex.toNat]?

def handleDismiss (selectedLogIndex : ℤ) (logsArray : List LogBoxLog) : LogBoxData :=
  let data := data.beforeDismiss selectedLogIndex logsArray
  match selectedIn selectedLogIndex logsArray with
  | none => data
  | some log => data.dismiss log

/-- What happens to the store. A call of the component comes with the state it holds. -/
inductive Event
  | addLog (log : LogBoxLog)
  | runImmediate
  | optimisticTimeout (log : LogBoxLog)
  | symbolicated (log : LogBoxLog)
  | addIgnorePatterns (patterns : List IgnorePattern)
  | setSelectedLog (index : ℤ)
  | clear
  | clearWarnings
  | clearErrors
  | dismiss (log : LogBoxLog)
  | handleDismiss (selectedLogIndex : ℤ) (logsArray : List LogBoxLog)
  | setDisabled (value : Bool)
  | observe

/-- The selection denotes nothing or a log. -/
def Selects (index : ℤ) : Prop := index = -1 ∨ 0 ≤ index ∧ index < data.logs.length

instance (data : LogBoxData) (index : ℤ) : Decidable (data.Selects index) :=
  inferInstanceAs (Decidable (_ ∨ _))

/-- `addException` appends a log like `addLog`. A selection is made with an index in range. -/
def step : Event → Option LogBoxData
  | .addLog log => some (data.setImmediate (.append log))
  | .runImmediate =>
    match data.immediates with
    | [] => none
    | .append log :: rest => some ({ data with immediates := rest }.appendNewLog test log)
    | .update :: rest => some { data with immediates := rest }
  | .optimisticTimeout log => some (if log ∈ data.pending then data.addPendingLog log else data)
  | .symbolicated log =>
    some (if log ∈ data.pending then data.addPendingLog log else data.handleUpdate)
  | .addIgnorePatterns patterns => some (data.addIgnorePatterns test patterns)
  | .setSelectedLog index => if data.Selects index then some (data.setSelectedLog index) else none
  | .clear => some data.clear
  | .clearWarnings => some data.clearWarnings
  | .clearErrors => some data.clearErrors
  | .dismiss log => some (data.dismiss log)
  | .handleDismiss selectedLogIndex logsArray => some (data.handleDismiss selectedLogIndex logsArray)
  | .setDisabled value => some (data.setDisabled value)
  | .observe => some data

def handed : Event → Option NextState
  | .runImmediate => if data.immediates.head? = some .update then some data.getNextState else none
  | .observe => some data.getNextState
  | _ => none

/-! ## What the operations do to the logs and to the selection -/

variable {test} {data next : LogBoxData} {log : LogBoxLog} {event : Event}

@[simp]
theorem handleUpdate_fields : data.handleUpdate.logs = data.logs ∧
    data.handleUpdate.ignorePatterns = data.ignorePatterns ∧
    data.handleUpdate.selectedIndex = data.selectedIndex := by
  unfold handleUpdate
  split <;> simp [setImmediate]

@[simp]
theorem setSelectedLog_fields {index : ℤ} : (data.setSelectedLog index).logs = data.logs ∧
    (data.setSelectedLog index).ignorePatterns = data.ignorePatterns := by
  simp [setSelectedLog]

theorem latestSyntax_eq_some {logs : List LogBoxLog} {i : ℕ} (found : latestSyntax logs = some i) :
    ∃ inside : i < logs.length, logs[i].level = .syntactic ∧
      ∀ j, ∀ later : j < logs.length, i < j → logs[j].level ≠ .syntactic := by
  obtain ⟨k, first, rfl⟩ := Option.map_eq_some_iff.1 found
  obtain ⟨inside, here, before⟩ := findIdx?_eq_some_iff_getElem.1 first
  rw [length_reverse] at inside
  refine ⟨by omega, by simpa [getElem_reverse] using here, fun j later after => ?_⟩
  have := before (logs.length - 1 - j) (by omega)
  simpa [getElem_reverse, show logs.length - 1 - (logs.length - 1 - j) = j by omega] using this

/-! ## Ignored logs -/

def HidesIgnored (test : List UInt16 → List UInt16 → Bool) (data : LogBoxData) : Prop :=
  ∀ log ∈ data.logs, isMessageIgnored test data.ignorePatterns log.content = false

/-- A fatal log that is released does not match a pattern by then. -/
def ReleasesShown (test : List UInt16 → List UInt16 → Bool) (data : LogBoxData) : Event → Prop
  | .optimisticTimeout log | .symbolicated log => log ∈ data.pending →
    isMessageIgnored test data.ignorePatterns log.content = false
  | _ => True

def patternsAdded (events : List Event) : List IgnorePattern :=
  events.flatMap fun
    | .addIgnorePatterns patterns => patterns
    | _ => []

variable {patterns : List IgnorePattern} {pattern : IgnorePattern}

theorem mem_foldl_addPattern : pattern ∈ (patterns.foldl (addPattern test) data).ignorePatterns ↔
      pattern ∈ data.ignorePatterns ∨ pattern ∈ patterns := by
  induction patterns generalizing data with
  | nil => simp
  | cons _ _ ih => simp [ih, addPattern, or_assoc]

theorem foldl_addPattern_logs {first : IgnorePattern} {rest : List IgnorePattern} :
    ((first :: rest).foldl (addPattern test) data).logs = data.logs.filter fun log =>
      !isMessageIgnored test (data.ignorePatterns ++ first :: rest) log.content := by
  induction rest generalizing data first with
  | nil => simp [addPattern, isMessageIgnored]
  | cons _ rest ih =>
    rw [foldl_cons, ih, addPattern, filter_filter]
    simp only [isMessageIgnored, any_append, any_setAdd, any_cons]
    grind

section

variable (hides : data.HidesIgnored test)
include hides

theorem HidesIgnored.of_subset (patterns : next.ignorePatterns = data.ignorePatterns)
    (logs : next.logs ⊆ data.logs) :
    next.HidesIgnored test := fun log member => patterns ▸ hides log (logs member)

theorem addPendingLog_hides_iff :
    (data.addPendingLog log).HidesIgnored test ↔
      isMessageIgnored test data.ignorePatterns log.content = false := by
  have fields : (data.addPendingLog log).logs = setAdd data.logs log ∧
      (data.addPendingLog log).ignorePatterns = data.ignorePatterns := by
    unfold addPendingLog
    split <;> simp [add]
  rw [HidesIgnored, fields.1, fields.2]
  simp only [mem_setAdd, or_imp, forall_and, forall_eq]
  exact and_iff_right hides

theorem appendNewLog_hides : (data.appendNewLog test log).HidesIgnored test := by
  have added (shown : isMessageIgnored test data.ignorePatterns log.content = false) :
      (data.add log).HidesIgnored test := by
    simpa [HidesIgnored, add, or_imp, forall_and, shown] using hides
  unfold appendNewLog
  split
  · exact hides
  · split
    · exact hides.of_subset (by simp) (by simp)
    · have := added (by simp_all)
      split
      · exact hides
      · exact this.of_subset (by simp) (by simp)
      · exact this.of_subset (by simp) (by simp)

theorem keepOnly_hides {keep : LogBoxLog → Bool} : (data.keepOnly keep).HidesIgnored test := by
  unfold keepOnly
  split
  · exact hides.of_subset (by simp) (by simp)
  · exact hides

theorem dismiss_hides : (data.dismiss log).HidesIgnored test := by
  unfold dismiss
  split
  · exact hides.of_subset (by simp) (by simpa using erase_subset)
  · exact hides

theorem addIgnorePatterns_hides : (data.addIgnorePatterns test patterns).HidesIgnored test := by
  unfold addIgnorePatterns
  split
  · exact hides
  · obtain ⟨first, rest, new⟩ := exists_cons_of_ne_nil ‹_›
    intro log member
    rw [handleUpdate_fields.1, new, foldl_addPattern_logs, mem_filter] at member
    rw [handleUpdate_fields.2.1, isMessageIgnored, any_eq_false]
    intro pattern added
    rw [mem_foldl_addPattern, new, ← mem_append] at added
    simp only [Bool.not_eq_true'] at member
    exact any_eq_false.1 member.2 pattern added

theorem step_hides_iff (stepped : step test data event = some next) :
    next.HidesIgnored test ↔ data.ReleasesShown test event := by
  cases event with
  | optimisticTimeout log | symbolicated log =>
    cases stepped
    unfold ReleasesShown
    split
    · simp_all [addPendingLog_hides_iff]
    · exact iff_of_true (hides.of_subset (by simp) (by simp)) fun held => absurd held ‹_›
  | runImmediate =>
    refine iff_of_true ?_ trivial
    simp only [step] at stepped
    split at stepped <;> cases stepped
    · exact appendNewLog_hides hides
    · exact hides
  | addIgnorePatterns =>
    cases stepped
    exact iff_of_true (addIgnorePatterns_hides hides) trivial
  | setSelectedLog =>
    obtain ⟨_, ⟨⟩⟩ := Option.ite_none_right_eq_some.1 stepped
    exact iff_of_true (hides.of_subset (by simp) (by simp)) trivial
  | clear =>
    cases stepped
    refine iff_of_true ?_ trivial
    unfold clear
    split
    · exact hides.of_subset (by simp) (by simp)
    · exact hides
  | clearWarnings | clearErrors =>
    cases stepped
    exact iff_of_true (keepOnly_hides hides) trivial
  | dismiss =>
    cases stepped
    exact iff_of_true (dismiss_hides hides) trivial
  | handleDismiss index logsArray =>
    cases stepped
    refine iff_of_true ?_ trivial
    have before : (data.beforeDismiss index logsArray).HidesIgnored test := by
      unfold beforeDismiss
      split_ifs <;> exact hides.of_subset (by simp) (by simp)
    unfold handleDismiss
    split
    · exact before
    · exact dismiss_hides before
  | setDisabled =>
    cases stepped
    refine iff_of_true ?_ trivial
    unfold setDisabled
    split
    · exact hides
    · exact hides.of_subset (by simp) (by simp)
  | addLog | observe =>
    cases stepped
    exact iff_of_true hides trivial

end

theorem addIgnorePatterns_ignorePatterns :
    pattern ∈ (data.addIgnorePatterns test patterns).ignorePatterns ↔
      pattern ∈ data.ignorePatterns ∨ pattern ∈ patterns := by
  have new : pattern ∈ data.newPatterns patterns ∨ pattern ∈ data.ignorePatterns ↔
      pattern ∈ patterns ∨ pattern ∈ data.ignorePatterns := by
    cases pattern <;> simp [newPatterns]
    tauto
  unfold addIgnorePatterns
  split
  next none => simp_all [or_comm]
  next => simpa [mem_foldl_addPattern, or_comm] using new

theorem step_ignorePatterns (stepped : step test data event = some next) :
    pattern ∈ next.ignorePatterns ↔
      pattern ∈ data.ignorePatterns ∨ pattern ∈ patternsAdded [event] := by
  cases event
  case addIgnorePatterns patterns =>
    cases stepped
    simpa [patternsAdded] using addIgnorePatterns_ignorePatterns
  all_goals
    suffices next.ignorePatterns = data.ignorePatterns by simp [this, patternsAdded]
    simp only [step] at stepped
    grind [handleUpdate_fields, setSelectedLog_fields, clear, clearWarnings, clearErrors, keepOnly,
      dismiss, handleDismiss, beforeDismiss, setDisabled, setImmediate, appendNewLog,
      addPendingLog, add]

theorem run_ignorePatterns {events : List Event}
    (ran : Runs.run (step test) data events = some next) : pattern ∈ next.ignorePatterns ↔
      pattern ∈ data.ignorePatterns ∨ pattern ∈ patternsAdded events := by
  induction events generalizing data with
  | nil =>
    cases ran
    simp [patternsAdded]
  | cons _ _ ih =>
    obtain ⟨_, stepped, ran⟩ := Runs.run_cons.1 ran
    simp [ih ran, step_ignorePatterns stepped, patternsAdded, or_assoc]

theorem handed_eq {state : NextState} (given : data.handed event = some state) :
    state = data.getNextState := by
  unfold handed at given
  grind

/-- **Ignored logs are never shown** exactly in the runs that release no fatal log that matches a
pattern by then. -/
theorem ignored_hidden_iff (test : List UInt16 → List UInt16 → Bool) (events : List Event) :
    let released := Runs.Along (step test) (fun data event => (step test data event).isSome →
      data.ReleasesShown test event) {} events
    ((∀ taken rest data, events = taken ++ rest → Runs.run (step test) {} taken = some data →
        ∀ log ∈ data.logs, ∀ pattern ∈ patternsAdded taken,
          pattern.matches test log.content = false) ↔ released) ∧
      (released → ∀ taken event rest data state, events = taken ++ event :: rest →
        Runs.run (step test) {} taken = some data → data.handed event = some state →
        ∀ log ∈ state.logs, ∀ pattern ∈ patternsAdded taken,
          pattern.matches test log.content = false) := by
  have hidden {taken data} (ran : Runs.run (step test) {} taken = some data) :
      data.HidesIgnored test ↔ ∀ log ∈ data.logs, ∀ pattern ∈ patternsAdded taken,
        pattern.matches test log.content = false := by
    simp [HidesIgnored, isMessageIgnored, run_ignorePatterns ran]
  have exactly := @Runs.always_iff_along _ _ (step test) (ReleasesShown test) (fun _ => True)
    (HidesIgnored test) {} events (fun _ _ _ _ _ _ => trivial) (fun _ _ _ _ => step_hides_iff)
    trivial (by simp [HidesIgnored])
  refine ⟨Iff.trans ?_ exactly, fun released taken event rest data state split ran given => ?_⟩
  · exact forall₃_congr fun taken rest data => forall₂_congr fun _ ran => (hidden ran).symm
  · rw [handed_eq given]
    exact (hidden ran).1 (exactly.2 released taken _ data split ran)

/-! ## The selection -/

/-- The selection of the store denotes nothing or a log. -/
def Valid (data : LogBoxData) : Prop := data.Selects data.selectedIndex

/-- The selection before a log is dismissed in the component. The latest syntax error comes first. -/
def selectedBefore (data : LogBoxData) (selectedLogIndex : ℤ) (count : ℕ) : ℤ :=
  if count ≤ 1 then (latestSyntax data.logs).elim (-1) (fun index => index)
  else if (count : ℤ) - 1 ≤ selectedLogIndex then
    (latestSyntax data.logs).elim (selectedLogIndex - 1) (fun index => index)
  else data.selectedIndex

/-- What keeps the selection in range: `dismiss` and `addIgnorePatterns` leave a log behind it. -/
def KeepsSelection (test : List UInt16 → List UInt16 → Bool) (data : LogBoxData) : Event → Prop
  | .dismiss log => log ∈ data.logs → data.selectedIndex + 1 < data.logs.length
  | .addIgnorePatterns patterns => data.newPatterns patterns ≠ [] → data.selectedIndex <
    (data.logs.filter fun log => !isMessageIgnored test
      (data.ignorePatterns ++ data.newPatterns patterns) log.content).length
  | .handleDismiss selectedLogIndex logsArray =>
    let selected := data.selectedBefore selectedLogIndex logsArray.length
    data.Selects selected ∧ ∀ log ∈ selectedIn selectedLogIndex logsArray,
      log ∈ data.logs → selected + 1 < data.logs.length
  | _ => True

/-- The latest syntax error, if there is one, is selected. -/
def SelectsSyntax (data : LogBoxData) : Prop :=
  (∃ log ∈ data.logs, log.level = .syntactic) →
    ∃ (i : ℕ) (inside : i < data.logs.length), data.selectedIndex = i ∧
      data.logs[i].level = .syntactic ∧
      ∀ j, ∀ later : j < data.logs.length, i < j → data.logs[j].level ≠ .syntactic

theorem setSelectedLog_syntax (data : LogBoxData) (index : ℤ) :
    (data.setSelectedLog index).SelectsSyntax := by
  rintro ⟨log, member, level⟩
  cases found : latestSyntax data.logs with
  | none => simp_all [latestSyntax]
  | some => simpa [setSelectedLog, found] using latestSyntax_eq_some found

theorem setSelectedLog_valid {index : ℤ} (selects : data.Selects index) :
    (data.setSelectedLog index).Valid := by
  cases found : latestSyntax data.logs with
  | none => simpa [setSelectedLog, found, Valid, Selects] using selects
  | some =>
    have := (latestSyntax_eq_some found).1
    simp [setSelectedLog, found, Valid, Selects]
    omega

@[simp]
theorem handleUpdate_valid : data.handleUpdate.Valid ↔ data.Valid := by
  simp [Valid, Selects]

theorem dismiss_valid_iff : (data.dismiss log).Valid ↔
    data.Valid ∧ (log ∈ data.logs → data.selectedIndex + 1 < data.logs.length) := by
  unfold dismiss
  split
  next member =>
    have := length_pos_of_mem member
    simp only [Valid, Selects, handleUpdate_fields, length_erase_of_mem member, member,
      forall_const]
    omega
  next => simp_all

theorem add_valid (valid : data.Valid) : (data.add log).Valid ∧
    (data.add log).Selects ((data.add log).logs.length - 1) := by
  have := @length_setAdd _ _ data.logs log
  simp only [Valid, Selects, add] at *
  omega

theorem beforeDismiss_logs {index : ℤ} {logsArray : List LogBoxLog} :
    (data.beforeDismiss index logsArray).logs = data.logs := by
  unfold beforeDismiss
  grind [setSelectedLog_fields]

theorem beforeDismiss_selectedIndex {index : ℤ} {logsArray : List LogBoxLog} :
    (data.beforeDismiss index logsArray).selectedIndex =
      data.selectedBefore index logsArray.length := by
  rw [beforeDismiss, selectedBefore]
  by_cases few : logsArray.length ≤ 1
  · rw [if_pos (by omega), if_pos few]
    simp [setSelectedLog]
  · rw [if_neg (by omega), if_neg few]
    split
    · simp [setSelectedLog]
    · rfl

theorem foldl_addPattern_selectedIndex :
    (patterns.foldl (addPattern test) data).selectedIndex = data.selectedIndex := by
  induction patterns generalizing data with
  | nil => rfl
  | cons _ _ ih => simp [ih, addPattern]

theorem appendNewLog_valid (valid : data.Valid) : (data.appendNewLog test log).Valid := by
  obtain ⟨added, -⟩ := @add_valid data log valid
  unfold appendNewLog
  grind [handleUpdate_valid, setSelectedLog_valid, Valid, Selects]

theorem addPendingLog_valid (valid : data.Valid) : (data.addPendingLog log).Valid := by
  obtain ⟨added, last⟩ := @add_valid { data with pending := data.pending.erase log } log valid
  unfold addPendingLog
  grind [handleUpdate_valid, setSelectedLog_valid]

theorem keepOnly_valid {keep : LogBoxLog → Bool} (valid : data.Valid) :
    (data.keepOnly keep).Valid := by
  unfold keepOnly
  split
  · exact setSelectedLog_valid (.inl rfl)
  · exact valid

theorem step_valid_iff (valid : data.Valid) (stepped : step test data event = some next) :
    next.Valid ↔ data.KeepsSelection test event := by
  cases event with
  | dismiss =>
    cases stepped
    rw [dismiss_valid_iff, and_iff_right valid, KeepsSelection]
  | handleDismiss index logsArray =>
    cases stepped
    rw [handleDismiss, KeepsSelection]
    have before : (data.beforeDismiss index logsArray).Valid ↔
        data.Selects (data.selectedBefore index logsArray.length) := by
      simp [Valid, Selects, beforeDismiss_logs, beforeDismiss_selectedIndex]
    cases selectedIn index logsArray <;>
      simp [dismiss_valid_iff, before, beforeDismiss_logs, beforeDismiss_selectedIndex]
  | addIgnorePatterns =>
    cases stepped
    rw [addIgnorePatterns, KeepsSelection]
    split
    next same => simpa [same] using valid
    next new =>
      obtain ⟨first, rest, new⟩ := exists_cons_of_ne_nil new
      simp only [new, handleUpdate_fields, Valid, Selects, foldl_addPattern_logs,
        foldl_addPattern_selectedIndex] at valid ⊢
      grind
  | setSelectedLog =>
    obtain ⟨selects, ⟨⟩⟩ := Option.ite_none_right_eq_some.1 stepped
    exact iff_of_true (setSelectedLog_valid selects) trivial
  | runImmediate =>
    refine iff_of_true ?_ trivial
    simp only [step] at stepped
    split at stepped <;> cases stepped
    · exact appendNewLog_valid valid
    · exact valid
  | optimisticTimeout | symbolicated =>
    cases stepped
    refine iff_of_true ?_ trivial
    split
    · exact addPendingLog_valid valid
    · simpa using valid
  | clear =>
    cases stepped
    refine iff_of_true ?_ trivial
    unfold clear
    split
    · exact setSelectedLog_valid (.inl rfl)
    · exact valid
  | clearWarnings | clearErrors =>
    cases stepped
    exact iff_of_true (keepOnly_valid valid) trivial
  | setDisabled =>
    cases stepped
    refine iff_of_true ?_ trivial
    unfold setDisabled
    split
    · exact valid
    · exact handleUpdate_valid.2 valid
  | addLog | observe =>
    cases stepped
    exact iff_of_true valid trivial

/-- **The selection denotes a log** in all states of a run exactly if `dismiss` and
`addIgnorePatterns` always leave a log behind it, and `setSelectedLog` selects the latest syntax
error there is. -/
theorem selection_valid_iff (test : List UInt16 → List UInt16 → Bool) (events : List Event) :
    let kept := Runs.Along (step test) (fun data event => (step test data event).isSome →
      data.KeepsSelection test event) {} events
    ((∀ taken rest data, events = taken ++ rest → Runs.run (step test) {} taken = some data →
        data.Selects data.selectedIndex) ↔ kept) ∧
      (kept → ∀ taken event rest data state, events = taken ++ event :: rest →
        Runs.run (step test) {} taken = some data → data.handed event = some state →
        state.selectedLogIndex = -1 ∨
          0 ≤ state.selectedLogIndex ∧ state.selectedLogIndex < state.logs.length) ∧
      ∀ data index, (setSelectedLog data index).SelectsSyntax := by
  have exactly := @Runs.always_iff_along _ _ (step test) (KeepsSelection test) (fun _ => True)
    Valid {} events (fun _ _ _ _ _ _ => trivial) (fun _ _ _ _ => step_valid_iff) trivial (.inl rfl)
  refine ⟨exactly, fun kept taken event rest data state split ran given => ?_,
    setSelectedLog_syntax⟩
  rw [handed_eq given]
  exact exactly.2 kept taken _ data split ran

/-! ## A pattern that comes late -/

def crash : LogBoxLog := ⟨0, .fatal, [99], [97]⟩

theorem crash_shown : ∃ data, Runs.run (step fun _ _ => false) {}
      [.addLog crash, .runImmediate, .addIgnorePatterns [.string [97]], .symbolicated crash] =
        some data ∧ data.handed .observe = some ⟨[crash], false, 0⟩ ∧
      (IgnorePattern.string [97]).matches (fun _ _ => false) crash.content = true :=
  ⟨_, rfl, rfl, by decide⟩

theorem selection_blank : ∃ data, Runs.run (step fun _ _ => false) {}
      [.addLog { crash with level := .error }, .runImmediate, .setSelectedLog 0,
        .addIgnorePatterns [.string [97]]] = some data ∧
      data.handed .observe = some ⟨[], false, 0⟩ :=
  ⟨_, rfl, rfl⟩

end LogBoxData

end ReactNative.LogBox

