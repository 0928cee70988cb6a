import Mathlib.Algebra.Order.Ring.Int
import ReactNative.Network.MultipartChunks

/-! `readAllParts` keeps all that it has read, so that its offsets are those of the stream. Headers
that it finds while it waits for more are kept for the chunk. -/
namespace ReactNative

open PatternSearch Loops

namespace RCTMultipartStreamReader

structure State where
  stream : Bytes
  content : Bytes := []
  chunkStart : ℕ := 0
  bytesSeen : ℕ := 0
  currentHeaders : Option Headers := none
  currentHeadersLength : ℕ := 0
  completed : List ChunkCompletion := []
  progressed : List (Headers × ℤ × ℤ) := []

/-- How much the stream would give in a turn, and whether it is time for a progress event. -/
structure StreamRead where
  read : ℕ
  timePassed : Bool

def bufferLen : ℕ := 4 * 1024

variable (decode : Bytes → Option (List Char)) (integerValue : List Char → ℤ)
  (progressCallback : Bool) (boundary : Bytes)

/-- `whitespaceAndNewlineCharacterSet`. -/
def isWhitespaceOrNewline (char : Char) : Bool :=
  (0x9 ≤ char.val && char.val ≤ 0xD) || char.val ∈ [0x20, 0x85, 0xA0, 0x1680, 0x2028, 0x2029,
    0x202F, 0x205F, 0x3000] || (0x2000 ≤ char.val && char.val ≤ 0x200A)

/-- A text that is not encoded well has no headers. -/
def parseHeaders (data : Bytes) : Headers :=
  ((decode data).elim [] splitLines).foldl (parseHeaderLine id (trim isWhitespaceOrNewline))
    fun _ => none

def emitChunk (data : Bytes) (headers : Option Headers) (done : Bool) (state : State) : State :=
  match indexOf headersMarker data 0 with
  | none => { state with completed := state.completed ++ [(none, data, done)] }
  | some location =>
    { state with
      completed := state.completed ++
        [(some (headers.getD (parseHeaders decode (data.take location))),
          data.drop (location + headersMarker.length), done)] }

/-- The lengths are unsigned. -/
def emitProgress (contentLength : ℤ) (isFinal timePassed : Bool) (state : State) : State :=
  match state.currentHeaders with
  | none => state
  | some headers =>
    let headersContentLength := (headers contentLengthKey).elim 0 integerValue
    if progressCallback && (timePassed || isFinal) then
      { state with
        progressed := state.progressed ++ [(headers, headersContentLength, contentLength % 2 ^ 64)] }
    else state

def State.searchStart (state : State) : ℕ :=
  max (state.bytesSeen - (closeDelimiter boundary).length) state.chunkStart

def beforeRead (choices : StreamRead) (state : State) : State :=
  match state.currentHeaders with
  | none =>
    match indexOf headersMarker state.content (state.searchStart boundary) with
    | none => state
    | some location =>
      let headersData := (state.content.drop state.chunkStart).take (location - state.chunkStart)
      { state with
        currentHeadersLength := headersData.length
        currentHeaders := some (parseHeaders decode headersData) }
  | some _ =>
    emitProgress integerValue progressCallback
      (state.content.length - state.currentHeadersLength) false choices.timePassed state

def State.read (state : State) (choice : ℕ) : State :=
  let count := readLength bufferLen choice state.stream
  { state with
    content := state.content ++ state.stream.take count, stream := state.stream.drop count }

/-- The chunk that ends at a delimiter; nothing is emitted for the preamble. -/
def endChunk (chunkEnd : ℕ) (isCloseDelimiter : Bool) (choices : StreamRead) (state : State) :
    State :=
  if 0 < state.chunkStart then
    let chunk := (state.content.drop state.chunkStart).take (chunkEnd - state.chunkStart)
    let progressed := emitProgress integerValue progressCallback
      (chunk.length - state.currentHeadersLength) true choices.timePassed state
    { emitChunk decode chunk state.currentHeaders isCloseDelimiter progressed with
      currentHeaders := none, currentHeadersLength := 0 }
  else state

def turn (choices : StreamRead) (state : State) : TurnEnd State (Bool × State) :=
  match findDelimiter boundary state.content (state.searchStart boundary) with
  | none =>
    let reading := { beforeRead decode integerValue progressCallback boundary choices state with
      bytesSeen := state.content.length }
    if readLength bufferLen choices.read reading.stream ≤ 0 then .ends (false, reading)
    else .continues (reading.read choices.read)
  | some (chunkEnd, isCloseDelimiter) =>
    let ended := { endChunk decode integerValue progressCallback chunkEnd isCloseDelimiter choices
      state with bytesSeen := chunkEnd }
    if isCloseDelimiter then .ends (true, ended)
    else .continues { ended with chunkStart := chunkEnd + (delimiter boundary).length }

def readAllParts (choices : ℕ → StreamRead) (stream : Bytes) (fuel : ℕ) :
    TurnEnd State (Bool × State) :=
  runTurns (fun index => turn decode integerValue progressCallback boundary (choices index)) fuel 0
    { stream }

end RCTMultipartStreamReader

end ReactNative

