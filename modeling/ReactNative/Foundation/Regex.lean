import Mathlib.Data.List.Infix

/-! Regular expressions in which quantifiers stand behind single characters and groups neither nest
nor repeat. `exec` backtracks: it takes the leftmost match, with each run as long as possible. -/
namespace Regex

open List

variable {α : Type}

instance lawfulUnits : LawfulBEq (List UInt16) := inferInstance

/-! ### Classes of code units -/

def isDigit (char : UInt16) : Bool := 48 ≤ char ∧ char ≤ 57

def isSpace (char : UInt16) : Bool :=
  9 ≤ char ∧ char ≤ 13 ∨ 0x2000 ≤ char ∧ char ≤ 0x200a ∨
    char ∈ [0x20, 0xa0, 0x1680, 0x2028, 0x2029, 0x202f, 0x205f, 0x3000, 0xfeff]

def isInLine (char : UInt16) : Bool := char ∉ [0x0a, 0x0d, 0x2028, 0x2029]

def units (text : String) : List UInt16 := text.toList.map fun char => UInt16.ofNat char.toNat

/-! ### Expressions -/

structure Run (α : Type) where
  accepts : α → Bool
  least : ℕ := 1
  most : Option ℕ := some 1

structure Part (α : Type) where
  isGroup : Bool
  runs : List (Run α)

def literal [DecidableEq α] (word : List α) : List (Run α) :=
  word.map fun char => { accepts := (· = char) }

def Run.Matches (run : Run α) (text : List α) : Prop :=
  (∀ char ∈ text, run.accepts char) ∧ run.least ≤ text.length ∧ ∀ n ∈ run.most, text.length ≤ n

def Matches : List (Run α) → List α → Prop
  | [], text => text = []
  | run :: runs, text => ∃ first rest, text = first ++ rest ∧ run.Matches first ∧ Matches runs rest

/-! ### Backtracking -/

/-- How many characters the run can take, in the order in which that is tried. -/
def Run.lengths (run : Run α) (text : List α) : List ℕ :=
  let longest := (text.takeWhile run.accepts).length
  (range' run.least (run.most.elim longest (min longest) + 1 - run.least)).reverse

/-- The matches at the beginning of the text, with what is behind them. -/
def splits : List (Run α) → List α → List (List α × List α)
  | [], text => [([], text)]
  | run :: runs, text => (run.lengths text).flatMap fun n =>
      (splits runs (text.drop n)).map fun split => (text.take n ++ split.1, split.2)

def captures : List (Part α) → List α → List (List (List α) × List α)
  | [], text => [([], text)]
  | part :: parts, text => (splits part.runs text).flatMap fun split =>
      (captures parts split.2).map fun rest =>
        (if part.isGroup then split.1 :: rest.1 else rest.1, rest.2)

/-- `exec` of an expression without anchors. -/
def exec (parts : List (Part α)) (text : List α) : Option (List (List α)) :=
  text.tails.findSome? fun rest => (captures parts rest).head?.map (·.1)

/-- `exec` of an expression between `^` and `$`. -/
def execWhole (parts : List (Part α)) (text : List α) : Option (List (List α)) :=
  ((captures parts text).find? (·.2.isEmpty)).map (·.1)

def runsOf (parts : List (Part α)) : List (Run α) := parts.flatMap Part.runs

/-! ### Correctness -/

theorem le_length_takeWhile {p : α → Bool} {text : List α} {n : ℕ} :
    n ≤ (text.takeWhile p).length ↔ n ≤ text.length ∧ ∀ char ∈ text.take n, p char := by
  induction text generalizing n with
  | nil => simp
  | cons char text ih =>
    cases n with
    | zero => simp
    | succ n =>
      by_cases accepted : p char = true
      · simp [accepted, ih]
      · simp [accepted]

variable {text : List α}

theorem mem_lengths {run : Run α} {n : ℕ} :
    n ∈ run.lengths text ↔ n ≤ text.length ∧ run.Matches (text.take n) := by
  have longest := @le_length_takeWhile _ run.accepts text n
  unfold Run.lengths Run.Matches
  cases bound : run.most <;> simp <;> grind

variable {runs : List (Run α)} {rest : List α}

theorem mem_splits {first : List α} :
    (first, rest) ∈ splits runs text ↔ text = first ++ rest ∧ Matches runs first := by
  induction runs generalizing text first with
  | nil => simp [splits, Matches]; grind
  | cons _ runs ih =>
    simp only [splits, mem_flatMap, mem_map, Prod.exists, Prod.mk.injEq, mem_lengths]
    constructor
    · rintro ⟨n, ⟨-, accepted⟩, middle, _, found, rfl, rfl⟩
      obtain ⟨isText, matched⟩ := ih.1 found
      refine ⟨?_, _, _, rfl, accepted, matched⟩
      rw [append_assoc, ← isText, take_append_drop]
    · rintro ⟨rfl, start, middle, rfl, accepted, matched⟩
      refine ⟨start.length, ⟨by simp, by simpa using accepted⟩, middle, rest, ?_, by simp, rfl⟩
      exact ih.2 ⟨by simp, matched⟩

theorem matches_append {others : List (Run α)} : Matches (runs ++ others) text ↔
      ∃ first rest, text = first ++ rest ∧ Matches runs first ∧ Matches others rest := by
  induction runs generalizing text with
  | nil => simp [Matches]
  | cons _ runs ih =>
    simp only [cons_append, Matches, ih]
    constructor
    · rintro ⟨first, _, rfl, accepted, second, rest, rfl, matched, others⟩
      exact ⟨first ++ second, rest, by simp, ⟨first, second, rfl, accepted, matched⟩, others⟩
    · rintro ⟨_, rest, rfl, ⟨first, second, rfl, accepted, matched⟩, others⟩
      exact ⟨first, second ++ rest, by simp, accepted, second, rest, rfl, matched, others⟩

variable {parts : List (Part α)}

theorem mem_captures : (∃ groups, (groups, rest) ∈ captures parts text) ↔
      ∃ first, text = first ++ rest ∧ Matches (runsOf parts) first := by
  induction parts generalizing text with
  | nil => simp [captures, runsOf, Matches, eq_comm]
  | cons _ parts ih =>
    have later (text : List α) := @ih text
    simp only [captures, runsOf, flatMap_cons, matches_append, mem_flatMap, mem_map,
      Prod.exists, Prod.mk.injEq, mem_splits]
    constructor
    · rintro ⟨_, first, middle, ⟨rfl, matched⟩, groups, _, found, -, rfl⟩
      obtain ⟨second, rfl, others⟩ := (later middle).1 ⟨groups, found⟩
      exact ⟨first ++ second, by simp, first, second, rfl, matched, others⟩
    · rintro ⟨_, rfl, first, second, rfl, matched, others⟩
      obtain ⟨groups, found⟩ := (later (second ++ rest)).2 ⟨second, rfl, others⟩
      exact ⟨_, first, second ++ rest, ⟨by simp, matched⟩, groups, rest, found, rfl, rfl⟩

/-- **A match is found exactly if the language has a text that occurs.** -/
theorem exec_isSome_iff : (exec parts text).isSome ↔
      ∃ before word after, text = before ++ word ++ after ∧ Matches (runsOf parts) word := by
  rw [exec, findSome?_isSome_iff]
  simp only [Option.isSome_map, isSome_head?, mem_tails]
  constructor
  · rintro ⟨_, ⟨before, rfl⟩, found⟩
    obtain ⟨⟨groups, after⟩, found⟩ := exists_mem_of_ne_nil _ found
    obtain ⟨word, rfl, matched⟩ := mem_captures.1 ⟨groups, found⟩
    exact ⟨before, word, after, by simp, matched⟩
  · rintro ⟨before, word, after, rfl, matched⟩
    obtain ⟨groups, found⟩ := mem_captures.2 ⟨word, rfl, matched⟩
    exact ⟨word ++ after, ⟨before, by simp⟩, ne_nil_of_mem found⟩

theorem execWhole_isSome_iff : (execWhole parts text).isSome ↔ Matches (runsOf parts) text := by
  rw [execWhole, Option.isSome_map, find?_isSome]
  constructor
  · rintro ⟨⟨groups, rest⟩, found, isEnd⟩
    obtain ⟨_, rfl, matched⟩ := mem_captures.1 ⟨groups, found⟩
    obtain rfl : rest = [] := List.isEmpty_iff.1 isEnd
    simpa using matched
  · intro matched
    obtain ⟨groups, found⟩ := mem_captures.2 ⟨text, (text.append_nil).symm, matched⟩
    exact ⟨_, found, rfl⟩

theorem Matches.not_mem {char : α} (matched : Matches runs text)
    (refused : ∀ run ∈ runs, ¬ run.accepts char) : char ∉ text := by
  induction runs generalizing text with
  | nil => simp [show text = [] from matched]
  | cons run runs ih =>
    obtain ⟨_, _, rfl, accepted, others⟩ := matched
    rw [forall_mem_cons] at refused
    rw [mem_append, not_or]
    exact ⟨fun member => refused.1 (accepted.1 char member), ih others refused.2⟩

theorem matches_literal [DecidableEq α] {word : List α} :
    Matches (literal word) text ↔ text = word := by
  induction word generalizing text with
  | nil => rfl
  | cons char word ih =>
    simp only [literal, map_cons, Matches] at ih ⊢
    simp only [ih]
    constructor
    · rintro ⟨first, _, rfl, ⟨accepted, least, most⟩, rfl⟩
      obtain ⟨only, rfl⟩ : ∃ only, first = [only] :=
        length_eq_one_iff.1 (le_antisymm (most 1 rfl) least)
      simpa using accepted
    · rintro rfl
      exact ⟨[char], word, rfl, by simp [Run.Matches], rfl⟩

end Regex


