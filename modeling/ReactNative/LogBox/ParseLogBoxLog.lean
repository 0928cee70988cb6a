import ReactNative.Foundation.PatternSearch
import ReactNative.Foundation.Regex

/-! `parseLogBoxLog` takes the component stack out of the arguments and fills the others into the
format string. -/
namespace ReactNative.ParseLogBoxLog

open Regex PatternSearch List

abbrev Text := List UInt16

/-- An argument of `console.error`; `Value` has the values that are not strings. -/
inductive Arg (Value : Type)
  | string (text : Text)
  | other (value : Value)

structure Substitution where
  length : ℕ
  offset : ℕ

structure Message where
  content : Text
  substitutions : List Substitution

structure CodeFrame where
  content : Text
  fileName : Text
  column : ℤ
  row : ℕ

structure Interpolation where
  category : Text
  message : Message

structure LogBoxLog extends Interpolation where
  componentStack : List CodeFrame

def SUBSTITUTION : Text := 0xfeff :: units "%s"

/-- `text.split(pattern)`; there are no more parts than characters and one. -/
def split (pattern : Text) : ℕ → Text → List Text
  | 0, text => [text]
  | fuel + 1, text =>
    match indexOf pattern text 0 with
    | none => [text]
    | some i => text.take i :: split pattern fuel (text.drop (i + pattern.length))

def splitAt (pattern text : Text) : List Text := split pattern text.length text

section Interpolation

variable {Value : Type} (stringifySafe : Value → Text)

def Arg.toText : Arg Value → Text
  | .string text => text
  | .other value => stringifySafe value

def Interpolation.addPart (done : Interpolation) (part : Text) : Interpolation :=
  { category := done.category ++ part
    message := { done.message with content := done.message.content ++ part } }

def Interpolation.substitute (done : Interpolation) (category text : Text) : Interpolation :=
  { category := done.category ++ category
    message :=
      { content := done.message.content ++ text
        substitutions := done.message.substitutions ++
          [{ length := text.length, offset := done.message.content.length }] } }

def interpolate : List Text → List Text → Interpolation → Interpolation
  | [], _, done => done
  | [part], _, done => done.addPart part
  | part :: parts, substitution :: substitutions, done =>
    interpolate parts substitutions ((done.addPart part).substitute SUBSTITUTION substitution)
  | part :: parts, [], done =>
    interpolate parts [] ((done.addPart part).substitute (units "%s") (units "%s"))

def joined (texts : List Text) : Text := (units " ").intercalate texts

def parseInterpolation (args : List (Arg Value)) : Interpolation :=
  match args with
  | .string formatString :: remaining =>
    let formatStringParts := splitAt (units "%s") formatString
    let texts := remaining.map (Arg.toText stringifySafe)
    let substitutionCount := formatStringParts.length - 1
    let done := interpolate formatStringParts (texts.take substitutionCount) ⟨[], [], []⟩
    let remainingArgs := texts.drop substitutionCount
    { category := joined (done.category :: remainingArgs)
      message :=
        { done.message with content := joined (done.message.content :: remainingArgs) } }
  | _ =>
    let texts := args.map (Arg.toText stringifySafe)
    ⟨joined texts, joined texts, []⟩

def frame : List (Regex.Part UInt16) :=
  let line : Run UInt16 := { accepts := isInLine, least := 0, most := none }
  [⟨true, [line]⟩, ⟨false, literal (units " (at ")⟩, ⟨true, line :: literal (units ".js")⟩,
    ⟨false, literal (units ":")⟩, ⟨true, [{ accepts := isDigit, most := none }]⟩,
    ⟨false, literal (units ")")⟩]

def stackStart : Text := units "\n    in "

def parseComponentStack (message : Text) : List CodeFrame :=
  (splitAt stackStart message).filterMap fun line =>
    (exec frame line).map fun found =>
      { content := found.getD 0 []
        fileName := found.getD 1 []
        column := -1
        row := (found.getD 2 []).foldl (fun n char => 10 * n + (char.toNat - 48)) 0 }

def stackWord : List (Regex.Part UInt16) :=
  [⟨false, { accepts := isSpace, least := 4, most := some 4 } :: literal (units "in")⟩]

/-- The part of an argument that is in front of a component stack. -/
def withoutStack : Arg Value → List (Arg Value)
  | .other value => [.other value]
  | .string text =>
    match indexOf stackStart text 0 with
    | none => [.string text]
    | some messageEndIndex =>
      if messageEndIndex > 0 then [.string (text.take messageEndIndex)] else []

def stripElsewhere (args : List (Arg Value)) (stripped : List (Arg Value) × List CodeFrame) :
    List (Arg Value) × List CodeFrame :=
  args.foldl (fun stripped arg => (stripped.1 ++ withoutStack arg,
    match arg with
    | .other _ => stripped.2
    | .string text =>
      if (indexOf stackStart text 0).isSome then parseComponentStack text else stripped.2))
    stripped

/-- The message and the last argument of a warning such as `Some warning%s`, if the last argument
looks like a component stack. -/
def warning (args : List (Arg Value)) : Option (Text × Text) :=
  match args.head?, args.getLast? with
  | some (.string message), some (.string lastArg) =>
    if message.drop (message.length - 2) = units "%s" ∧ (exec stackWord lastArg).isSome then
      some (message, lastArg)
    else none
  | _, _ => none

def stripStack (args : List (Arg Value)) : List (Arg Value) × List CodeFrame :=
  let stripped :=
    match warning args with
    | some (message, lastArg) =>
      -- Item 0 is assigned also if the slice is empty.
      (.string (message.take (message.length - 2)) :: args.dropLast.tail,
        parseComponentStack lastArg)
    | none => ([], [])
  if stripped.2.isEmpty then stripElsewhere args stripped else stripped

def parseLogBoxLog (args : List (Arg Value)) : LogBoxLog :=
  { parseInterpolation stringifySafe (stripStack args).1 with
    componentStack := (stripStack args).2 }

end Interpolation

/-! ### What is recorded -/

theorem splitAt_spec (pattern text : Text) (nonempty : pattern ≠ []) :
    splitAt pattern text ≠ [] ∧ pattern.intercalate (splitAt pattern text) = text := by
  unfold splitAt
  generalize text.length = fuel
  induction fuel generalizing text with
  | zero => simp [split]
  | succ fuel ih =>
    unfold split
    cases found : indexOf pattern text 0 with
    | none => simp
    | some i =>
      obtain ⟨after, isText⟩ := ((indexOf_eq_some_iff nonempty).1 found).2.1
      have isAfter : text.drop (i + pattern.length) = after := by
        rw [← drop_drop, ← isText, drop_left]
      obtain ⟨parts, rejoined⟩ := ih after
      simp only [isAfter]
      refine ⟨by simp, ?_⟩
      rw [intercalate_cons_of_ne_nil parts, rejoined, append_assoc, isText, take_append_drop]

theorem joined_cons (text : Text) (texts : List Text) :
    joined (text :: texts) = text ++ texts.flatMap (units " " ++ ·) := by
  induction texts generalizing text with
  | nil => simp [joined]
  | cons _ texts ih =>
    rw [joined, intercalate_cons_cons, ← joined, ih, flatMap_cons]
    simp

def interleave : List Text → List Text → Text
  | part :: parts, filling :: fillings => part ++ (filling ++ interleave parts fillings)
  | parts, _ => parts.flatten

def placed : ℕ → List Text → List Text → List Substitution
  | start, part :: parts, filling :: fillings =>
    { length := filling.length, offset := start + part.length } ::
      placed (start + part.length + filling.length) parts fillings
  | _, _, _ => []

def fillings (parts texts : List Text) : List Text :=
  texts.take (parts.length - 1) ++ replicate (parts.length - 1 - texts.length) (units "%s")

theorem interpolate_message {parts texts : List Text} {done : Interpolation} :
    (interpolate parts texts done).message =
      { content := done.message.content ++ interleave parts (fillings parts texts)
        substitutions := done.message.substitutions ++
          placed done.message.content.length parts (fillings parts texts) } := by
  fun_induction interpolate parts texts done with
  | case1 => simp [interleave, placed]
  | case2 => simp [fillings, interleave, placed, Interpolation.addPart]
  | case3 part parts substitution substitutions done nonempty ih =>
    obtain ⟨next, parts, rfl⟩ := exists_cons_of_ne_nil nonempty
    rw [ih]
    simp [fillings, interleave, placed, Interpolation.addPart, Interpolation.substitute, Nat.add_assoc]
  | case4 part parts done nonempty ih =>
    obtain ⟨next, parts, rfl⟩ := exists_cons_of_ne_nil nonempty
    rw [ih]
    simp [fillings, interleave, placed, Interpolation.addPart, Interpolation.substitute,
      replicate_succ, Nat.add_assoc]

def replaceBy (text : Text) (content : Text) (substitution : Substitution) : Text :=
  content.take substitution.offset ++ text ++ content.drop (substitution.offset + substitution.length)

theorem replaceBy_append (text before part after : Text) :
    replaceBy text (before ++ (part ++ after)) ⟨part.length, before.length⟩ =
      before ++ (text ++ after) := by
  rw [replaceBy, take_left, ← drop_drop, drop_left, drop_left, append_assoc]

/-- The substitutions, in their order, are where the fillings are; with `%s` in their place the
content is the original text. -/
structure Message.Delimits (message : Message) (fillings : List Text) (original : Text) : Prop where
  texts : message.substitutions.map (fun substitution =>
    (message.content.drop substitution.offset).take substitution.length) = fillings
  within : ∀ substitution ∈ message.substitutions,
    substitution.offset + substitution.length ≤ message.content.length
  ordered : message.substitutions.Pairwise fun first second =>
    first.offset + first.length ≤ second.offset
  restored : message.substitutions.foldr (fun substitution content =>
    replaceBy (units "%s") content substitution) message.content = original

theorem le_of_mem_placed {start : ℕ} {parts fillings : List Text} {substitution : Substitution}
    (member : substitution ∈ placed start parts fillings) : start ≤ substitution.offset := by
  induction fillings generalizing start parts with
  | nil => cases parts <;> simp [placed] at member
  | cons _ fillings ih =>
    cases parts with
    | nil => simp [placed] at member
    | cons _ parts =>
      rcases mem_cons.1 member with rfl | later
      · exact Nat.le_add_right _ _
      · have := ih later
        omega

theorem delimits_placed {fillings : List Text} {parts : List Text} (before behind : Text)
    (fits : parts.length = fillings.length + 1) :
    ({ content := before ++ interleave parts fillings ++ behind
       substitutions := placed before.length parts fillings } : Message).Delimits fillings
      (before ++ (units "%s").intercalate parts ++ behind) := by
  induction fillings generalizing parts before with
  | nil =>
    obtain ⟨part, rfl⟩ := length_eq_one_iff.1 fits
    exact ⟨rfl, by simp [placed], by simp [placed], by simp [placed, interleave]⟩
  | cons filling fillings ih =>
    obtain ⟨part, parts, rfl⟩ := exists_cons_of_length_eq_add_one fits
    have later := @ih parts (before ++ part ++ filling) (by simpa using fits)
    have isContent : before ++ part ++ filling ++ interleave parts fillings ++ behind =
        before ++ interleave (part :: parts) (filling :: fillings) ++ behind := by
      simp [interleave]
    have isStart : (before ++ part ++ filling).length =
        before.length + part.length + filling.length := by simp [Nat.add_assoc]
    rw [isContent, isStart] at later
    have nonempty : parts ≠ [] := by
      rintro rfl
      simp at fits
    refine ⟨?_, ?_, ?_, ?_⟩
    · simp only [placed, map_cons]
      rw [later.texts, ← isContent, ← length_append, append_assoc, append_assoc,
        drop_left, take_left]
    · simp only [placed, forall_mem_cons]
      refine ⟨?_, later.within⟩
      rw [← isContent, ← isStart]
      simp only [length_append]
      omega
    · refine pairwise_cons.2 ⟨fun substitution member => ?_, later.ordered⟩
      exact le_of_mem_placed member
    · simp only [placed, foldr_cons]
      rw [later.restored, intercalate_cons_of_ne_nil nonempty]
      simpa using replaceBy_append (units "%s") (before ++ part) filling
        ((units "%s").intercalate parts ++ behind)

def fillingsOf {Value : Type} (stringifySafe : Value → Text) : List (Arg Value) → List Text
  | .string formatString :: remaining =>
    fillings (splitAt (units "%s") formatString) (remaining.map (Arg.toText stringifySafe))
  | _ => []

def originalOf {Value : Type} (stringifySafe : Value → Text) (args : List (Arg Value)) : Text :=
  let texts := args.map (Arg.toText stringifySafe)
  match args with
  | .string formatString :: _ =>
    joined (formatString :: texts.tail.drop ((splitAt (units "%s") formatString).length - 1))
  | _ => joined texts

theorem parseInterpolation_delimits {Value : Type} (stringifySafe : Value → Text)
    (args : List (Arg Value)) : (parseInterpolation stringifySafe args).message.Delimits
      (fillingsOf stringifySafe args) (originalOf stringifySafe args) := by
  match args with
  | [] | .other _ :: _ => exact ⟨rfl, by simp [parseInterpolation], .nil, rfl⟩
  | .string formatString :: remaining =>
    obtain ⟨nonempty, rejoined⟩ := splitAt_spec (units "%s") formatString (by decide)
    simp only [parseInterpolation, interpolate_message, joined_cons, fillingsOf, originalOf,
      map_cons, tail_cons]
    generalize splitAt (units "%s") formatString = parts at *
    generalize remaining.map (Arg.toText stringifySafe) = texts
    have fits : parts.length = (fillings parts texts).length + 1 := by
      have := length_pos_iff.2 nonempty
      simp only [fillings, length_append, length_take, length_replicate]
      omega
    have delimited := delimits_placed []
      ((texts.drop (parts.length - 1)).flatMap (units " " ++ ·)) fits
    have taken : fillings parts (texts.take (parts.length - 1)) = fillings parts texts := by
      simp only [fillings, take_take, Nat.min_self, length_take]
      congr 2
      omega
    rw [rejoined] at delimited
    rw [taken]
    exact delimited

/-! ### What is passed on -/

variable {Value : Type}

/-- The component stack is taken out of the arguments: a trailing `%s` with the last argument, or
the ends of arguments from where a stack begins. -/
def Strips (args passed : List (Arg Value)) : Prop :=
  (∃ text middle last, args = .string (text ++ units "%s") :: (middle ++ [.string last]) ∧
    (exec stackWord last).isSome ∧ passed = .string text :: middle) ∨
  passed = args.flatMap withoutStack

/-- A warning that seems to end in a stack has one that can be read. -/
def StackIsRead (args : List (Arg Value)) : Prop :=
  ∀ message last, warning args = some (message, last) →
    2 ≤ args.length ∧ (parseComponentStack last ≠ [] ∨ args.flatMap withoutStack = [])

theorem stripElsewhere_eq (args : List (Arg Value)) (stripped : List (Arg Value) × List CodeFrame) :
    (stripElsewhere args stripped).1 = stripped.1 ++ args.flatMap withoutStack := by
  unfold stripElsewhere
  induction args generalizing stripped with
  | nil => simp
  | cons _ args ih => rw [foldl_cons, ih, flatMap_cons, append_assoc]

theorem warning_eq_some {args : List (Arg Value)} {message last : Text}
    (isWarning : warning args = some (message, last)) :
    (∃ text rest, message = text ++ units "%s" ∧ args = .string message :: rest) ∧
      args.getLast? = some (.string last) ∧ (exec stackWord last).isSome := by
  unfold warning at isWarning
  split at isWarning
  case h_2 => cases isWarning
  case h_1 message last isHead isLast =>
    split at isWarning
    case isFalse => cases isWarning
    case isTrue seems =>
      cases isWarning
      obtain ⟨rest, isArgs⟩ := head?_eq_some_iff.1 isHead
      refine ⟨⟨message.take (message.length - 2), rest, ?_, isArgs⟩, isLast, seems.2⟩
      rw [← seems.1, take_append_drop]

theorem withoutStack_ne_cons (text : Text) (more : List (Arg Value)) :
    withoutStack (.string (text ++ units "%s")) ≠ .string text :: more := by
  intro same
  unfold withoutStack at same
  cases found : indexOf stackStart (text ++ units "%s") 0 with
  | none =>
    simp only [found, List.cons.injEq, Arg.string.injEq] at same
    simpa [units] using congrArg List.length same.1
  | some =>
    simp only [found] at same
    split_ifs at same
    have fits := ((indexOf_eq_some_iff (by decide)).1 found).2.1.add_length_le (by decide)
    have isText := congrArg List.length (Arg.string.inj (List.cons.inj same).1)
    rw [length_append, show (units "%s").length = 2 by decide,
      show stackStart.length = 8 by decide] at fits
    simp only [length_take, length_append, show (units "%s").length = 2 by decide] at isText
    omega

theorem strips_iff (args : List (Arg Value)) :
    Strips args (stripStack args).1 ↔ StackIsRead args := by
  cases isWarning : warning args with
  | none => simp [stripStack, StackIsRead, isWarning, stripElsewhere_eq, Strips]
  | some found =>
    obtain ⟨message, last⟩ := found
    have isRead : StackIsRead args ↔ 2 ≤ args.length ∧
        (parseComponentStack last ≠ [] ∨ args.flatMap withoutStack = []) := by
      simp [StackIsRead, isWarning]
    obtain ⟨⟨text, rest, rfl, rfl⟩, isLast, isStack⟩ := warning_eq_some isWarning
    have isText : (text ++ units "%s").take ((text ++ units "%s").length - 2) = text := by
      rw [length_append, show (units "%s").length = 2 by decide, Nat.add_sub_cancel, take_left]
    rw [isRead, stripStack, isWarning]
    simp only [isText]
    rcases eq_nil_or_concat rest with rfl | ⟨middle, lastArg, rfl⟩
    · -- The only argument is the message: its end is cut off and nothing else.
      refine iff_of_false ?_ fun read => absurd read.1 (by simp)
      rintro (⟨_, middle, _, isArgs, -⟩ | isPassed)
      · simpa using congrArg List.length isArgs
      · rw [flatMap_singleton] at isPassed
        split at isPassed
        case isTrue =>
          rw [stripElsewhere_eq] at isPassed
          exact withoutStack_ne_cons _ _ isPassed.symm
        case isFalse => exact withoutStack_ne_cons _ _ isPassed.symm
    · rw [concat_eq_append] at isLast ⊢
      obtain rfl : lastArg = .string last := by
        simpa [getLast?_cons] using isLast
      have isMiddle : (Arg.string (text ++ units "%s") :: (middle ++ [.string last])).dropLast.tail =
          middle := by simp [dropLast_cons_of_ne_nil]
      rw [isMiddle]
      split
      case isTrue unread =>
        rw [stripElsewhere_eq]
        constructor
        · rintro (⟨_, _, _, isArgs, -, isPassed⟩ | isPassed)
          · refine ⟨by simp, .inr (length_eq_zero_iff.1 ?_)⟩
            have := congrArg List.length isArgs
            have := congrArg List.length isPassed
            simp only [length_cons, length_append, length_nil] at *
            omega
          · have := congrArg List.length isPassed
            simp only [length_cons, length_append] at this
            omega
        · rintro ⟨-, isRead | none⟩
          · exact absurd (List.isEmpty_iff.1 unread) isRead
          · rw [none, append_nil]
            exact .inl ⟨text, middle, last, rfl, isStack, rfl⟩
      case isFalse isRead =>
        exact iff_of_true (.inl ⟨text, middle, last, rfl, isStack, rfl⟩)
          ⟨by simp, .inl (by simpa using isRead)⟩

/-- **Arguments are passed on once, and the substitutions delimited, exactly if a warning that seems
to end in a component stack has one that can be read.** -/
theorem parseLogBoxLog_keeps_args_iff (stringifySafe : Value → Text) (args : List (Arg Value)) :
    (Strips args (stripStack args).1 ∧ (parseLogBoxLog stringifySafe args).message.Delimits
        (fillingsOf stringifySafe (stripStack args).1)
        (originalOf stringifySafe (stripStack args).1)) ↔ StackIsRead args := by
  rw [← strips_iff]
  exact and_iff_left (parseInterpolation_delimits _ _)

theorem unread_stack_repeats_args : ¬ ∀ args : List (Arg ℕ), args ≠ [] →
    Strips args (stripStack args).1 ∧ (parseLogBoxLog (fun _ => []) args).message.Delimits
        (fillingsOf (fun _ => []) (stripStack args).1)
        (originalOf (fun _ => []) (stripStack args).1) := by
  intro keeps
  have strips := (keeps [.string (units "Warning%s"), .string (units "    in Foo")] (by simp)).1
  have := (strips_iff _).1 strips (units "Warning%s") (units "    in Foo") (by decide +kernel)
  exact absurd this (by decide +kernel)

end ReactNative.ParseLogBoxLog

