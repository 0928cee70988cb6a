import ReactNative.Foundation.PatternSearch

/-! The bytes of a multipart response, and what a search finds in them while they arrive. The
delimiters are assumed to occur only where the encoding puts them: between the parts. -/
namespace ReactNative

open PatternSearch List

abbrev Bytes := List UInt8

def crlf : Bytes := [13, 10]

def headersMarker : Bytes := crlf ++ crlf

def delimiter (boundary : Bytes) : Bytes := crlf ++ [45, 45] ++ boundary ++ crlf

def closeDelimiter (boundary : Bytes) : Bytes := crlf ++ [45, 45] ++ boundary ++ [45, 45] ++ crlf

structure HeaderLine where
  bytes : Bytes
  nonempty : bytes ≠ []
  oneLine : ∀ i, ¬ OccursAt crlf bytes i

structure Part where
  headerLines : List HeaderLine
  body : Bytes

namespace Part

def headerBlock : List HeaderLine → Bytes
  | [] => []
  | [line] => line.bytes
  | line :: rest => line.bytes ++ crlf ++ headerBlock rest

def headers (part : Part) : Bytes := headerBlock part.headerLines

def chunk (part : Part) : Bytes := part.headers ++ headersMarker ++ part.body

end Part

section

variable (boundary epilogue : Bytes)

def encodeParts : List Part → Bytes
  | [] => closeDelimiter boundary ++ epilogue
  | part :: rest => delimiter boundary ++ part.chunk ++ encodeParts rest

def delimiterPositions : ℕ → List Part → List ℕ
  | _, [] => []
  | start, part :: rest => start ::
      delimiterPositions (start + (delimiter boundary).length + part.chunk.length) rest

def closePosition : ℕ → List Part → ℕ
  | start, [] => start
  | start, part :: rest =>
    closePosition (start + (delimiter boundary).length + part.chunk.length) rest

end

/-- A response in which the delimiters are only where the encoding puts them. -/
structure MultipartResponse where
  boundary : Bytes
  preamble : Bytes
  parts : List Part
  epilogue : Bytes
  nonempty : parts ≠ []
  delimitersOnly : ∀ i,
    OccursAt (delimiter boundary) (preamble ++ encodeParts boundary epilogue parts) i →
      i ∈ delimiterPositions boundary preamble.length parts
  closeOnly : ∀ i,
    OccursAt (closeDelimiter boundary) (preamble ++ encodeParts boundary epilogue parts) i →
      i = closePosition boundary preamble.length parts

variable (response : MultipartResponse)

def MultipartResponse.stream : Bytes :=
  response.preamble ++ encodeParts response.boundary response.epilogue response.parts

/-- Where the response may be cut. -/
def MultipartResponse.closeEnd : ℕ :=
  closePosition response.boundary response.preamble.length response.parts +
    (closeDelimiter response.boundary).length

/-- The first delimiter that the buffer has, or the close delimiter if it has none, and whether it
is the close delimiter. -/
def findDelimiter (boundary content : Bytes) (searchStart : ℕ) : Option (ℕ × Bool) :=
  match indexOf (delimiter boundary) content searchStart with
  | some i => some (i, false)
  | none => (indexOf (closeDelimiter boundary) content searchStart).map (·, true)

/-! ### Headers -/

abbrev Headers := List Char → Option (List Char)

def contentLengthKey : List Char := "Content-Length".toList

/-- The headers, if there are any, the body, and whether it is the last chunk. -/
abbrev ChunkCompletion := Option Headers × Bytes × Bool

/-- The chunks of the parts, as they should be completed. -/
def completions (parseHeaders : Bytes → Headers) : List Part → List ChunkCompletion
  | [] => []
  | part :: rest => (some (parseHeaders part.headers), part.body, rest.isEmpty) ::
      completions parseHeaders rest

def splitLines : List Char → List (List Char)
  | [] => [[]]
  | '\r' :: '\n' :: rest => [] :: splitLines rest
  | char :: rest =>
    match splitLines rest with
    | [] => [[char]]
    | line :: lines => (char :: line) :: lines

def trim (blank : Char → Bool) (text : List Char) : List Char :=
  ((text.dropWhile blank).reverse.dropWhile blank).reverse

/-- A line without a colon is no header; a later header replaces an earlier one. -/
def parseHeaderLine (trimKey trimValue : List Char → List Char) (headers : Headers)
    (line : List Char) : Headers :=
  match line.dropWhile (· ≠ ':') with
  | [] => headers
  | _ :: value =>
    Function.update headers (trimKey (line.takeWhile (· ≠ ':'))) (some (trimValue value))

/-! ### The end of the headers -/

variable {text : Bytes} {i : ℕ}

theorem occursAt_crlf_iff : OccursAt crlf text i ↔ text[i]? = some 13 ∧ text[i + 1]? = some 10 := by
  rw [crlf, ← singleton_append, occursAt_append_iff, occursAt_singleton_iff,
    occursAt_singleton_iff, length_singleton]

theorem occursAt_crlf_line {line : HeaderLine} {rest : Bytes}
    (occurs : OccursAt crlf (line.bytes ++ crlf ++ rest) i) :
    i = line.bytes.length ∨ ∃ j, i = line.bytes.length + 2 + j ∧ OccursAt crlf rest j := by
  rw [occursAt_crlf_iff, append_assoc] at occurs
  obtain ⟨first, second⟩ := occurs
  rcases Nat.lt_trichotomy i line.bytes.length with inside | here | after
  · exfalso
    rw [getElem?_append_left inside] at first
    by_cases last : i + 1 < line.bytes.length
    · rw [getElem?_append_left last] at second
      exact line.oneLine i (occursAt_crlf_iff.mpr ⟨first, second⟩)
    · have isLast : i + 1 - line.bytes.length = 0 := by omega
      rw [getElem?_append_right (by omega), isLast] at second
      cases second
  · exact Or.inl here
  · right
    rw [getElem?_append_right (by omega)] at first second
    obtain ⟨j, rfl⟩ : ∃ j, i = line.bytes.length + 1 + j := ⟨i - line.bytes.length - 1, by omega⟩
    have isIndex : line.bytes.length + 1 + j - line.bytes.length = j + 1 := by omega
    have isNext : line.bytes.length + 1 + j + 1 - line.bytes.length = j + 2 := by omega
    rw [isIndex] at first
    rw [isNext] at second
    cases j with
    | zero => cases first
    | succ j =>
      refine ⟨j, by omega, occursAt_crlf_iff.mpr ⟨?_, ?_⟩⟩
      · simpa [crlf] using first
      · simpa [crlf] using second

theorem occursAt_headersMarker_iff :
    OccursAt headersMarker text i ↔ OccursAt crlf text i ∧ OccursAt crlf text (i + 2) :=
  occursAt_append_iff

theorem not_occursAt_zero (line : HeaderLine) (others : List HeaderLine) (rest : Bytes) :
    ¬ OccursAt crlf (Part.headerBlock (line :: others) ++ headersMarker ++ rest) 0 := by
  intro occurs
  have positive := length_pos_iff.mpr line.nonempty
  obtain ⟨after, isText⟩ : ∃ after, Part.headerBlock (line :: others) ++ headersMarker ++ rest =
      line.bytes ++ crlf ++ after := by
    cases others with
    | nil => exact ⟨crlf ++ rest, by simp only [Part.headerBlock, headersMarker, append_assoc]⟩
    | cons _ others => exact ⟨_, by simp only [Part.headerBlock, append_assoc]; rfl⟩
  rw [isText] at occurs
  rcases occursAt_crlf_line occurs with here | ⟨later, here, -⟩
  · omega
  · omega

theorem indexOf_headersMarker (lines : List HeaderLine) (rest : Bytes) :
    indexOf headersMarker (Part.headerBlock lines ++ headersMarker ++ rest) 0 =
      some (Part.headerBlock lines).length := by
  rw [indexOf_eq_some_iff (by decide)]
  refine ⟨Nat.zero_le _, ?_, fun j _ before => ?_⟩
  · rw [append_assoc]
    exact occursAt_append _ _
  · rw [occursAt_headersMarker_iff]
    rintro ⟨first, second⟩
    -- Induction over the lines: a marker needs an empty line, and no header line is empty.
    induction lines generalizing j with
    | nil => cases before
    | cons line others ih =>
      cases others with
      | nil =>
        rw [Part.headerBlock] at first before
        rw [headersMarker, ← append_assoc, append_assoc] at first
        rcases occursAt_crlf_line first with here | ⟨later, here, -⟩
        · omega
        · omega
      | cons next others =>
        have split : Part.headerBlock (line :: next :: others) ++ headersMarker ++ rest =
            line.bytes ++ crlf ++ (Part.headerBlock (next :: others) ++ headersMarker ++ rest) := by
          simp only [Part.headerBlock, append_assoc]
        rw [split] at first second
        rcases occursAt_crlf_line first with rfl | ⟨later, rfl, firstLater⟩
        · -- The next line would be empty.
          rcases occursAt_crlf_line second with here | ⟨later, here, atStart⟩
          · omega
          · obtain rfl : later = 0 := by omega
            exact not_occursAt_zero next others _ atStart
        · rcases occursAt_crlf_line second with here | ⟨other, here, secondLater⟩
          · omega
          · obtain rfl : other = later + 2 := by omega
            refine ih later (Nat.zero_le _) ?_ firstLater secondLater
            simp only [Part.headerBlock, crlf, length_append, length_cons, length_nil] at before
            omega

/-! ### Places -/

variable (boundary : Bytes)

theorem delimiter_ne_nil : delimiter boundary ≠ [] := by
  simp [delimiter, crlf]

theorem closeDelimiter_ne_nil : closeDelimiter boundary ≠ [] := by
  simp [closeDelimiter, crlf]

theorem length_closeDelimiter :
    (closeDelimiter boundary).length = (delimiter boundary).length + 2 := by
  simp only [closeDelimiter, delimiter, length_append, length_cons, length_nil]
  omega

theorem le_of_mem_delimiterPositions {boundary : Bytes} {start : ℕ} {parts : List Part}
    (member : i ∈ delimiterPositions boundary start parts) : start ≤ i := by
  induction parts generalizing start with
  | nil => cases member
  | cons _ _ ih =>
    rcases mem_cons.mp member with rfl | later
    · exact Nat.le_refl i
    · have := ih later
      omega

theorem le_closePosition (start : ℕ) (parts : List Part) :
    start ≤ closePosition boundary start parts := by
  induction parts generalizing start with
  | nil => exact Nat.le_refl start
  | cons part _ ih =>
    have := ih (start + (delimiter boundary).length + part.chunk.length)
    rw [closePosition]
    omega

namespace MultipartResponse

variable (response : MultipartResponse)

def placeBytes (place : Option Part) : Bytes := place.elim response.preamble Part.chunk

structure Phase (before : Bytes) (place : Option Part) (rest : List Part) : Prop where
  whole : response.stream = before ++ response.placeBytes place ++
    encodeParts response.boundary response.epilogue rest
  delimiters : ∀ i, before.length ≤ i → OccursAt (delimiter response.boundary) response.stream i →
      i ∈ delimiterPositions response.boundary (before.length + (response.placeBytes place).length)
        rest
  close : ∀ i, OccursAt (closeDelimiter response.boundary) response.stream i →
    i = closePosition response.boundary (before.length + (response.placeBytes place).length) rest
  closeEnd : response.closeEnd =
    closePosition response.boundary (before.length + (response.placeBytes place).length) rest +
      (closeDelimiter response.boundary).length

def nextLength (rest : List Part) : ℕ :=
  if rest.isEmpty then (closeDelimiter response.boundary).length
  else (delimiter response.boundary).length

variable {response} {before : Bytes} {place : Option Part} {rest : List Part}

theorem phase_start : response.Phase [] none response.parts where
  whole := rfl
  delimiters i _ occurs := by
    rw [length_nil, Nat.zero_add]
    exact response.delimitersOnly i occurs
  close i occurs := by
    rw [length_nil, Nat.zero_add]
    exact response.closeOnly i occurs
  closeEnd := by
    rw [length_nil, Nat.zero_add]
    rfl

theorem Phase.next {part : Part} (phase : response.Phase before place (part :: rest)) :
    response.Phase (before ++ response.placeBytes place ++ delimiter response.boundary) (some part)
      rest := by
  have length : (before ++ response.placeBytes place ++ delimiter response.boundary).length +
      (response.placeBytes (some part)).length = before.length + (response.placeBytes place).length +
        (delimiter response.boundary).length + part.chunk.length := by
    simp only [length_append, placeBytes, Option.elim_some]
  constructor
  · rw [phase.whole, encodeParts]
    simp only [append_assoc, placeBytes, Option.elim_some]
  · intro i after occurs
    have positive := length_pos_iff.mpr (delimiter_ne_nil response.boundary)
    simp only [length_append] at after
    rcases mem_cons.mp (phase.delimiters i (by omega) occurs) with here | later
    · omega
    · rw [length]
      exact later
  · intro i occurs
    rw [length]
    exact phase.close i occurs
  · rw [length]
    exact phase.closeEnd

theorem Phase.occursAt_next (phase : response.Phase before place rest) :
    OccursAt (if rest.isEmpty then closeDelimiter response.boundary
      else delimiter response.boundary) response.stream
      (before.length + (response.placeBytes place).length) := by
  rw [phase.whole, ← length_append]
  cases rest with
  | nil => exact occursAt_append _ _
  | cons _ rest =>
    rw [encodeParts, append_assoc (delimiter response.boundary)]
    exact occursAt_append _ _

theorem nextLength_pos : 0 < response.nextLength rest := by
  rw [nextLength]
  split
  next => exact length_pos_iff.mpr (closeDelimiter_ne_nil _)
  next => exact length_pos_iff.mpr (delimiter_ne_nil _)

/-- **The next delimiter is found as soon as all of it has been received**, and nothing else
before. -/
theorem Phase.findDelimiter (phase : response.Phase before place rest) {received seen : ℕ}
    (unseen : seen < before.length + (response.placeBytes place).length +
      response.nextLength rest) :
    findDelimiter response.boundary (response.stream.take received)
        (max (seen - (closeDelimiter response.boundary).length) before.length) =
      if before.length + (response.placeBytes place).length + response.nextLength rest ≤ received
      then some (before.length + (response.placeBytes place).length, rest.isEmpty) else none := by
  have next := phase.occursAt_next
  rw [ReactNative.findDelimiter]
  -- At the end the close delimiter comes next, and no plain delimiter any more.
  cases rest with
  | nil =>
    have isNext : response.nextLength [] = (closeDelimiter response.boundary).length := rfl
    rw [indexOf_take_eq_none (delimiter_ne_nil _)]
    · dsimp only
      split
      next within =>
        rw [indexOf_take_eq_some (closeDelimiter_ne_nil _) next (by omega) within]
        · rfl
        · exact fun j _ occurs => Nat.le_of_eq (phase.close j occurs).symm
      next beyond =>
        rw [indexOf_take_eq_none (closeDelimiter_ne_nil _)]
        · rfl
        · intro j _ occurs
          rw [phase.close j occurs, closePosition]
          omega
    · intro j after occurs
      cases phase.delimiters j (Nat.le_trans (Nat.le_max_right _ _) after) occurs
  | cons part rest =>
    have isNext : response.nextLength (part :: rest) = (delimiter response.boundary).length := rfl
    have longer := length_closeDelimiter response.boundary
    -- Before a part the first delimiter ahead is the one of the part.
    have first : ∀ j, max (seen - (closeDelimiter response.boundary).length) before.length ≤ j →
        OccursAt (delimiter response.boundary) response.stream j →
          before.length + (response.placeBytes place).length ≤ j := fun j after occurs =>
      le_of_mem_delimiterPositions
        (phase.delimiters j (Nat.le_trans (Nat.le_max_right _ _) after) occurs)
    rw [isNext] at unseen ⊢
    by_cases within : before.length + (response.placeBytes place).length +
        (delimiter response.boundary).length ≤ received
    · rw [if_pos within, indexOf_take_eq_some (delimiter_ne_nil _) next (by omega) within first]
      rfl
    · rw [if_neg within, indexOf_take_eq_none (delimiter_ne_nil _),
        indexOf_take_eq_none (closeDelimiter_ne_nil _)]
      · rfl
      -- A close delimiter is further on in any case.
      · intro j _ occurs
        have here := phase.close j occurs
        have later := le_closePosition response.boundary (before.length +
          (response.placeBytes place).length + (delimiter response.boundary).length +
            part.chunk.length) rest
        rw [closePosition] at here
        omega
      · intro j after occurs
        have later := first j after occurs
        omega

theorem closePosition_encodeParts (boundary epilogue : Bytes) (start : ℕ) (parts : List Part) :
    closePosition boundary start parts + (closeDelimiter boundary).length + epilogue.length =
      start + (encodeParts boundary epilogue parts).length := by
  induction parts generalizing start with
  | nil =>
    rw [closePosition, encodeParts, length_append]
    omega
  | cons _ _ ih =>
    rw [closePosition, ih, encodeParts, length_append, length_append]
    omega

theorem closeEnd_le (response : MultipartResponse) : response.closeEnd ≤ response.stream.length := by
  have encoded := closePosition_encodeParts response.boundary response.epilogue
    response.preamble.length response.parts
  rw [closeEnd, stream, length_append]
  omega

theorem Phase.next_le_closeEnd (phase : response.Phase before place rest) :
    before.length + (response.placeBytes place).length + response.nextLength rest ≤
      response.closeEnd := by
  rw [phase.closeEnd, nextLength]
  cases rest with
  | nil => exact Nat.le_refl _
  | cons part rest =>
    have later := le_closePosition response.boundary (before.length +
      (response.placeBytes place).length + (delimiter response.boundary).length +
        part.chunk.length) rest
    rw [closePosition, isEmpty_cons, if_neg Bool.false_ne_true]
    omega

end MultipartResponse

/-! ### Chunks -/

theorem completions_eq_iff {parse otherParse : Bytes → Headers} {parts : List Part} :
    completions parse parts = completions otherParse parts ↔
      ∀ part ∈ parts, parse part.headers = otherParse part.headers := by
  induction parts with
  | nil => simp [completions]
  | cons part _ ih => simp [completions, ih]

theorem findDelimiter_drop (boundary text : Bytes) (skipped searchStart : ℕ) :
    findDelimiter boundary (text.drop skipped) searchStart =
      (findDelimiter boundary text (skipped + searchStart)).map fun found =>
        (found.1 - skipped, found.2) := by
  rw [findDelimiter, findDelimiter, indexOf_drop (delimiter_ne_nil boundary)]
  cases indexOf (delimiter boundary) text (skipped + searchStart) with
  | some => rfl
  | none =>
    rw [indexOf_drop (closeDelimiter_ne_nil boundary), Option.map_none]
    rw [Option.map_map, Option.map_map]
    rfl

variable (part : Part)

theorem Part.indexOf_chunk : indexOf headersMarker part.chunk 0 = some part.headers.length :=
  indexOf_headersMarker part.headerLines part.body

theorem Part.take_chunk : part.chunk.take part.headers.length = part.headers := by
  rw [Part.chunk, append_assoc, take_left]

theorem Part.drop_chunk :
    part.chunk.drop (part.headers.length + headersMarker.length) = part.body := by
  rw [Part.chunk, ← length_append, drop_left]

end ReactNative

