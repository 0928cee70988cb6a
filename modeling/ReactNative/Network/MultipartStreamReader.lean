import ReactNative.Foundation.Loops
import ReactNative.Network.Multipart

/-! `readAllParts` reads from a source that gives, for each read, at least one byte and no more than
requested, unless it is at its end. The buffer is cut off at each delimiter, so that all offsets are
relative to the last one. -/
namespace ReactNative

open PatternSearch Loops

/-- What happens in a turn: how much the source would give in the read of the header detection and
in the other one, and whether it is time for a progress event. -/
structure ReadChoices where
  headerRead : ℕ
  read : ℕ
  timePassed : Bool

/-- How many bytes a read gets: some of those requested, if there are any. -/
def readLength (requested choice : ℕ) (source : Bytes) : ℕ :=
  min (min requested source.length) (max 1 choice)

namespace MultipartStreamReader

structure State where
  source : Bytes
  content : Bytes := []
  chunkStart : ℕ := 0
  bytesSeen : ℕ := 0
  currentHeaders : Option Headers := none
  currentHeadersLength : ℕ := 0
  completed : List ChunkCompletion := []
  progressed : List (Headers × ℤ × ℤ) := []

def bufferLen : ℕ := 4 * 1024

variable (readUtf8 : Bytes → List Char) (parseLong : List Char → Option ℤ) (boundary : Bytes)

def javaTrim : List Char → List Char := trim (· ≤ ' ')

def parseHeaders (data : Bytes) : Headers :=
  (splitLines (readUtf8 data)).foldl (parseHeaderLine javaTrim javaTrim) fun _ => none

def State.read (state : State) (requested choice : ℕ) : State :=
  let count := readLength requested choice state.source
  { state with
    content := state.content ++ state.source.take count, source := state.source.drop count }

def emitChunk (chunk : Bytes) (done : Bool) (state : State) : State :=
  match indexOf headersMarker chunk 0 with
  | none => { state with completed := state.completed ++ [(none, chunk, done)] }
  | some indexOfMarker =>
    { state with
      completed := state.completed ++ [(some (parseHeaders readUtf8 (chunk.take indexOfMarker)),
          chunk.drop (indexOfMarker + headersMarker.length), done)] }

/-- Nothing if the content length is no number, which is an exception. -/
def emitProgress (contentLength : ℤ) (isFinal timePassed : Bool) (state : State) : Option State :=
  match state.currentHeaders with
  | none => some state
  | some headers =>
    if timePassed || isFinal then
      match headers contentLengthKey with
      | none => some { state with progressed := state.progressed ++ [(headers, contentLength, 0)] }
      | some text => (parseLong text).map fun headersContentLength =>
          { state with
            progressed := state.progressed ++ [(headers, contentLength, headersContentLength)] }
    else some state

def State.searchStart (state : State) : ℕ :=
  max (state.bytesSeen - (closeDelimiter boundary).length) state.chunkStart

def beforeRead (choices : ReadChoices) (state : State) : Option State :=
  match state.currentHeaders with
  | none =>
    match indexOf headersMarker state.content (state.searchStart boundary) with
    | none => some { state with bytesSeen := state.content.length }
    | some indexOfHeaders =>
      let reading := state.read indexOfHeaders choices.headerRead
      let headers := (reading.content.drop (state.searchStart boundary)).take
        (indexOfHeaders - state.searchStart boundary)
      some { reading with
        bytesSeen := state.content.length
        currentHeadersLength := headers.length + headersMarker.length
        currentHeaders := some (parseHeaders readUtf8 headers) }
  | some _ =>
    emitProgress parseLong (state.content.length - state.currentHeadersLength) false
      choices.timePassed { state with bytesSeen := state.content.length }

/-- The chunk that ends at a delimiter; nothing is emitted for the preamble. -/
def endChunk (chunkEnd : ℕ) (isCloseDelimiter : Bool) (choices : ReadChoices) (state : State) :
    Option State :=
  if 0 < state.chunkStart then
    let chunk := (state.content.drop state.chunkStart).take (chunkEnd - state.chunkStart)
    (emitProgress parseLong (chunk.length - state.currentHeadersLength) true choices.timePassed
        { state with content := state.content.drop chunkEnd }).map fun state =>
      { emitChunk readUtf8 chunk isCloseDelimiter state with
        currentHeaders := none, currentHeadersLength := 0 }
  else some { state with content := state.content.drop chunkEnd }

/-- One turn of the loop. The result is what is returned, or nothing for an exception, with the
state. -/
def turn (choices : ReadChoices) (state : State) : TurnEnd State (Option Bool × State) :=
  match findDelimiter boundary state.content (state.searchStart boundary) with
  | none =>
    match beforeRead readUtf8 parseLong boundary choices state with
    | none => .ends (none, state)
    | some reading =>
      if readLength bufferLen choices.read reading.source ≤ 0 then .ends (some false, reading)
      else .continues (reading.read bufferLen choices.read)
  | some (chunkEnd, isCloseDelimiter) =>
    match endChunk readUtf8 parseLong chunkEnd isCloseDelimiter choices state with
    | none => .ends (none, state)
    | some ended =>
      if isCloseDelimiter then .ends (some true, ended)
      else
        .continues { ended with
          bytesSeen := (delimiter boundary).length, chunkStart := (delimiter boundary).length }

def readAllParts (choices : ℕ → ReadChoices) (source : Bytes) (fuel : ℕ) :
    TurnEnd State (Option Bool × State) :=
  runTurns (fun index => turn readUtf8 parseLong boundary (choices index)) fuel 0 { source }

end MultipartStreamReader

end ReactNative

