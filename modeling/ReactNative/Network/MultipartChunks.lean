import ReactNative.Network.MultipartStreamReader

/-! However the bytes arrive, the buffer of the reader is a part of the stream (`Receives`), so that
each turn ends the place that it is in or receives more. -/
namespace ReactNative

open PatternSearch Loops MultipartResponse List Option

namespace MultipartStreamReader

variable (readUtf8 : Bytes → List Char) (parseLong : List Char → Option ℤ) (boundary : Bytes)

/-- The header detection takes the rest of the source. -/
def EmptiesSource (choices : ReadChoices) (state : State) : Prop :=
  findDelimiter boundary state.content (state.searchStart boundary) = none ∧
    state.currentHeaders = none ∧
    ∃ indexOfHeaders, indexOf headersMarker state.content (state.searchStart boundary) =
        some indexOfHeaders ∧
      (state.read indexOfHeaders choices.headerRead).source = []

/-- There is progress to report, with a content length that is no number. -/
def BadProgress (choices : ReadChoices) (state : State) : Prop :=
  ∃ headers text, state.currentHeaders = some headers ∧
    headers contentLengthKey = some text ∧ parseLong text = none ∧
    if (findDelimiter boundary state.content (state.searchStart boundary)).isSome then
      0 < state.chunkStart
    else choices.timePassed = true

variable {readUtf8 parseLong boundary} {choices : ReadChoices} {state : State}

/-! ### Turns that fail -/

variable {contentLength : ℤ} {isFinal timePassed : Bool}

theorem emitProgress_eq_none_iff :
    emitProgress parseLong contentLength isFinal timePassed state = none ↔
      ∃ headers text, state.currentHeaders = some headers ∧
        headers contentLengthKey = some text ∧ parseLong text = none ∧
        (timePassed || isFinal) = true := by
  rw [emitProgress]
  cases state.currentHeaders with
  | none => simp
  | some headers =>
    cases timePassed || isFinal with
    | false => simp
    | true =>
      cases isText : headers contentLengthKey with
      | none => simp [isText]
      | some text => simp [isText]

theorem emitProgress_eq_some {emitted : State}
    (emits : emitProgress parseLong contentLength isFinal timePassed state = some emitted) :
    ∃ progressed, emitted = { state with progressed := progressed } := by
  rw [emitProgress] at emits
  split at emits
  next =>
    cases emits
    exact ⟨state.progressed, rfl⟩
  next headers isHeaders =>
    split at emits
    next =>
      split at emits
      next =>
        cases emits
        exact ⟨_, rfl⟩
      next text _ =>
        obtain ⟨-, -, rfl⟩ := map_eq_some_iff.mp emits
        exact ⟨_, rfl⟩
    next =>
      cases emits
      exact ⟨state.progressed, rfl⟩

theorem beforeRead_eq_none_iff : beforeRead readUtf8 parseLong boundary choices state = none ↔
      ∃ headers text, state.currentHeaders = some headers ∧
        headers contentLengthKey = some text ∧ parseLong text = none ∧
        choices.timePassed = true := by
  rw [beforeRead]
  split
  next none =>
    rw [none]
    split
    next => simp
    next => simp
  next headers some =>
    rw [emitProgress_eq_none_iff, some, Bool.or_false]

theorem endChunk_eq_none_iff {chunkEnd : ℕ} {isCloseDelimiter : Bool} :
    endChunk readUtf8 parseLong chunkEnd isCloseDelimiter choices state = none ↔
      ∃ headers text, state.currentHeaders = some headers ∧
        headers contentLengthKey = some text ∧ parseLong text = none ∧ 0 < state.chunkStart := by
  rw [endChunk]
  split
  next isPart => simp [map_eq_none_iff, emitProgress_eq_none_iff, isPart]
  next preamble => simp [preamble]

theorem turn_of_badProgress (bad : BadProgress parseLong boundary choices state) :
    ∃ final, turn readUtf8 parseLong boundary choices state = .ends (none, final) := by
  obtain ⟨headers, text, isHeaders, isText, noNumber, reports⟩ := bad
  refine ⟨state, ?_⟩
  rw [turn]
  split at reports
  next found =>
    obtain ⟨⟨chunkEnd, isClose⟩, isFound⟩ := isSome_iff_exists.mp found
    have throws : endChunk readUtf8 parseLong chunkEnd isClose choices state = none :=
      endChunk_eq_none_iff.mpr ⟨headers, text, isHeaders, isText, noNumber, reports⟩
    simp [isFound, throws]
  next missing =>
    have isMissing : findDelimiter boundary state.content (state.searchStart boundary) = none := by
      simpa using missing
    have throws : beforeRead readUtf8 parseLong boundary choices state = none :=
      beforeRead_eq_none_iff.mpr ⟨headers, text, isHeaders, isText, noNumber, reports⟩
    simp [isMissing, throws]

theorem turn_of_emptiesSource (empties : EmptiesSource boundary choices state) :
    ∃ final, turn readUtf8 parseLong boundary choices state = .ends (some false, final) := by
  obtain ⟨missing, noHeaders, _, found, empty⟩ := empties
  rw [turn, missing]
  dsimp only
  rw [beforeRead, noHeaders]
  dsimp only
  rw [found]
  dsimp only
  rw [empty, if_pos (by simp [readLength])]
  exact ⟨_, rfl⟩

/-! ### What has been received -/

structure Receives (parseHeaders : Bytes → Headers) (response : MultipartResponse) (cut : ℕ)
    (before : Bytes) (place : Option Part) (rest : List Part) (skipped received : ℕ)
    (state : State) : Prop where
  phase : response.Phase before place rest
  received_le : received ≤ (response.stream.take cut).length
  source : state.source = (response.stream.take cut).drop received
  content : state.content = (response.stream.take received).drop skipped
  skipped_le : skipped ≤ received
  chunkStart : skipped + state.chunkStart = before.length
  isPart : 0 < state.chunkStart ↔ place.isSome
  unseen : skipped + state.bytesSeen <
    before.length + (response.placeBytes place).length + response.nextLength rest
  inPreamble : place = none → rest ≠ []
  completed : state.completed ++ completions parseHeaders (place.toList ++ rest) =
    completions parseHeaders response.parts

variable {response : MultipartResponse} {cut : ℕ} {before : Bytes} {place : Option Part}
  {rest : List Part} {skipped received : ℕ} {parse : Bytes → Headers}

theorem Receives.length_content
    (receives : Receives parse response cut before place rest skipped received state) :
    skipped + state.content.length = received := by
  have fits := receives.received_le
  have skippedLe := receives.skipped_le
  rw [receives.content, length_drop, length_take]
  rw [length_take] at fits
  omega

section

variable (receives : Receives parse response cut before place rest skipped received state)
include receives

theorem Receives.findDelimiter :
    findDelimiter response.boundary state.content (state.searchStart response.boundary) =
      if before.length + (response.placeBytes place).length + response.nextLength rest ≤ received
      then some (before.length + (response.placeBytes place).length - skipped, rest.isEmpty)
      else none := by
  have start : skipped + state.searchStart response.boundary =
      max (skipped + state.bytesSeen - (closeDelimiter response.boundary).length)
        before.length := by
    have isStart := receives.chunkStart
    rw [State.searchStart]
    omega
  rw [receives.content, findDelimiter_drop, start, receives.phase.findDelimiter receives.unseen]
  split
  next => rfl
  next => rfl

omit receives in
theorem readLength_le (requested choice : ℕ) (source : Bytes) :
    readLength requested choice source ≤ source.length := by
  rw [readLength]
  omega

omit receives in
theorem readLength_eq_zero_iff {choice : ℕ} {source : Bytes} :
    readLength bufferLen choice source = 0 ↔ source = [] := by
  rw [← length_eq_zero_iff, readLength, bufferLen]
  omega

omit receives in
theorem take_readLength {stream source : Bytes} {cut received : ℕ}
    (fits : received ≤ (stream.take cut).length) (isSource : source = (stream.take cut).drop received)
    (requested choice : ℕ) :
    received + readLength requested choice source ≤ (stream.take cut).length ∧
      source.take (readLength requested choice source) =
        (stream.drop received).take (readLength requested choice source) := by
  have count := readLength_le requested choice source
  rw [isSource, length_drop, ← isSource] at count
  refine ⟨by omega, ?_⟩
  rw [length_take] at fits count
  have within : readLength requested choice source ≤ cut - received := by omega
  generalize readLength requested choice source = count at within
  rw [isSource, drop_take, take_take, Nat.min_eq_left within]

theorem Receives.read (requested choice : ℕ) :
    Receives parse response cut before place rest skipped
      (received + readLength requested choice state.source) (state.read requested choice) := by
  obtain ⟨fits, taken⟩ :=
    take_readLength receives.received_le receives.source requested choice
  refine { receives with received_le := fits, source := ?_, content := ?_, skipped_le := ?_ }
  · rw [State.read, receives.source, drop_drop]
  · rw [State.read, receives.content, take_add, drop_append_of_le_length, taken]
    have below := receives.received_le
    have := receives.skipped_le
    rw [length_take] at below ⊢
    omega
  · exact Nat.le_trans receives.skipped_le (Nat.le_add_right _ _)

theorem Receives.beforeRead
    (unfinished : received < before.length + (response.placeBytes place).length +
      response.nextLength rest)
    (noThrow : beforeRead readUtf8 parseLong boundary choices state ≠ none) :
    ∃ reading receivedMore, beforeRead readUtf8 parseLong boundary choices state = some reading ∧
      received ≤ receivedMore ∧
      Receives parse response cut before place rest skipped receivedMore reading ∧
      (reading.source = [] → state.source = [] ∨ state.currentHeaders = none ∧
        ∃ indexOfHeaders, indexOf headersMarker state.content (state.searchStart boundary) =
          some indexOfHeaders ∧ (state.read indexOfHeaders choices.headerRead).source = []) := by
  have seen : skipped + state.content.length < before.length +
      (response.placeBytes place).length + response.nextLength rest := by
    rw [receives.length_content]
    exact unfinished
  obtain ⟨reading, isReading⟩ := ne_none_iff_exists'.mp noThrow
  refine ⟨reading, ?_⟩
  rw [isReading]
  rw [MultipartStreamReader.beforeRead] at isReading
  split at isReading
  next noHeaders =>
    split at isReading
    next =>
      cases isReading
      exact ⟨received, rfl, Nat.le_refl _, { receives with unseen := seen }, Or.inl⟩
    next indexOfHeaders found =>
      cases isReading
      refine ⟨_, rfl, Nat.le_add_right _ _,
        { receives.read indexOfHeaders choices.headerRead with unseen := seen }, ?_⟩
      exact fun empty => Or.inr ⟨noHeaders, indexOfHeaders, found, empty⟩
  next headers _ =>
    obtain ⟨-, rfl⟩ := emitProgress_eq_some isReading
    exact ⟨received, rfl, Nat.le_refl _, { receives with unseen := seen }, Or.inl⟩

end

/-! ### Turns -/

theorem emitChunk_chunk (part : Part) (done : Bool) :
    emitChunk readUtf8 part.chunk done state = { state with
      completed := state.completed ++
        [(some (parseHeaders readUtf8 part.headers), part.body, done)] } := by
  rw [emitChunk, part.indexOf_chunk]
  dsimp only
  rw [part.take_chunk, part.drop_chunk]

section

variable
  (receives : Receives (parseHeaders readUtf8) response cut before place rest skipped received state)
include receives

section

variable
  (finished : before.length + (response.placeBytes place).length + response.nextLength rest ≤ received)
include finished

theorem Receives.endChunk (noThrow : endChunk readUtf8 parseLong
      (before.length + (response.placeBytes place).length - skipped) rest.isEmpty choices state ≠
        none) :
    ∃ ended, endChunk readUtf8 parseLong
        (before.length + (response.placeBytes place).length - skipped) rest.isEmpty choices state =
          some ended ∧
      ended.source = state.source ∧
      ended.content = (response.stream.take received).drop
        (before.length + (response.placeBytes place).length) ∧
      ended.completed ++ completions (parseHeaders readUtf8) rest =
        completions (parseHeaders readUtf8) response.parts := by
  have isStart := receives.chunkStart
  -- What stays in the buffer starts at the delimiter.
  have content : state.content.drop (before.length + (response.placeBytes place).length - skipped) =
      (response.stream.take received).drop
        (before.length + (response.placeBytes place).length) := by
    rw [receives.content, drop_drop]
    congr 1
    omega
  obtain ⟨ended, isEnded⟩ := ne_none_iff_exists'.mp noThrow
  refine ⟨ended, isEnded, ?_⟩
  rw [MultipartStreamReader.endChunk] at isEnded
  cases place with
  | none =>
    -- The preamble is dropped.
    have preamble : ¬ 0 < state.chunkStart := by simp [receives.isPart]
    rw [if_neg preamble] at isEnded
    cases isEnded
    exact ⟨rfl, content, receives.completed⟩
  | some part =>
    rw [if_pos (receives.isPart.mpr rfl)] at isEnded
    obtain ⟨emitted, emits, rfl⟩ := map_eq_some_iff.mp isEnded
    obtain ⟨-, rfl⟩ := emitProgress_eq_some emits
    -- The buffer has all of the part, from `chunkStart` to the delimiter.
    have chunk : (state.content.drop state.chunkStart).take
        (before.length + (response.placeBytes (some part)).length - skipped - state.chunkStart) =
          part.chunk := by
      have length : before.length + (response.placeBytes (some part)).length - skipped -
          state.chunkStart = part.chunk.length := by
        simp only [placeBytes, elim_some]
        omega
      have within : part.chunk.length ≤ received - before.length := by
        simp only [placeBytes, elim_some] at finished
        omega
      rw [length, receives.content, drop_drop, isStart, receives.phase.whole, drop_take,
        append_assoc, drop_left, take_take, Nat.min_eq_left within]
      exact take_left
    rw [chunk, emitChunk_chunk]
    refine ⟨rfl, content, ?_⟩
    dsimp only
    rw [← receives.completed, append_assoc]
    rfl

/-- **A turn that has the next delimiter** goes on with the next part, or returns. -/
theorem Receives.turn_finished (good : ¬ BadProgress parseLong response.boundary choices state) :
    (∃ part later next, rest = part :: later ∧
      turn readUtf8 parseLong response.boundary choices state = .continues next ∧
      Receives (parseHeaders readUtf8) response cut
        (before ++ response.placeBytes place ++ delimiter response.boundary) (some part) later
        (before.length + (response.placeBytes place).length) received next) ∨
    ∃ final, rest = [] ∧
      turn readUtf8 parseLong response.boundary choices state = .ends (some true, final) ∧
      final.completed = completions (parseHeaders readUtf8) response.parts := by
  have found := receives.findDelimiter
  rw [if_pos finished] at found
  -- That a turn throws is ruled out: its progress would be bad.
  have noThrow : MultipartStreamReader.endChunk readUtf8 parseLong
      (before.length + (response.placeBytes place).length - skipped) rest.isEmpty choices state ≠
        none := by
    rw [Ne, endChunk_eq_none_iff]
    rintro ⟨headers, text, isHeaders, isText, noNumber, isPart⟩
    refine good ⟨headers, text, isHeaders, isText, noNumber, ?_⟩
    rw [found]
    exact isPart
  obtain ⟨ended, isEnded, source, content, completed⟩ := receives.endChunk finished noThrow
  rw [turn, found]
  dsimp only
  rw [isEnded]
  dsimp only
  cases rest with
  | nil =>
    right
    refine ⟨ended, rfl, rfl, ?_⟩
    rw [completions, append_nil] at completed
    exact completed
  | cons part later =>
    left
    have positive := length_pos_iff.mpr (delimiter_ne_nil response.boundary)
    refine ⟨part, later, _, rfl, rfl, ?_⟩
    -- The fields in the order of `Receives`, for the part after the delimiter.
    constructor
    · exact receives.phase.next
    · exact receives.received_le
    · exact source.trans receives.source
    · exact content
    · exact Nat.le_trans (Nat.le_add_right _ _) finished
    · simp only [length_append]
    · exact iff_of_true positive rfl
    · have nextPos : 0 < response.nextLength later := nextLength_pos
      simp only [length_append]
      omega
    · simp
    · exact completed

end

/-- **A turn that does not have it** receives more, or the reader gives up. -/
theorem Receives.turn_unfinished
    (unfinished : received < before.length + (response.placeBytes place).length +
      response.nextLength rest) (good : ¬ BadProgress parseLong response.boundary choices state) :
    (∃ receivedMore next, received < receivedMore ∧
      turn readUtf8 parseLong response.boundary choices state = .continues next ∧
      Receives (parseHeaders readUtf8) response cut before place rest skipped receivedMore next) ∨
    (∃ final, turn readUtf8 parseLong response.boundary choices state = .ends (some false, final)) ∧
      (state.source = [] ∨ EmptiesSource response.boundary choices state) := by
  have missing := receives.findDelimiter
  rw [if_neg (Nat.not_le_of_lt unfinished)] at missing
  have noThrow : MultipartStreamReader.beforeRead readUtf8 parseLong response.boundary choices
      state ≠ none := by
    rw [Ne, beforeRead_eq_none_iff]
    rintro ⟨headers, text, isHeaders, isText, noNumber, timePassed⟩
    refine good ⟨headers, text, isHeaders, isText, noNumber, ?_⟩
    rw [missing]
    exact timePassed
  obtain ⟨reading, receivedMore, isReading, more, receivesMore, empties⟩ :=
    receives.beforeRead unfinished noThrow
  rw [turn, missing]
  dsimp only
  rw [isReading]
  dsimp only
  -- An empty read ends the loop; anything read brings the place closer to its end.
  split
  next nothing =>
    rw [Nat.le_zero, readLength_eq_zero_iff] at nothing
    refine Or.inr ⟨⟨reading, rfl⟩, (empties nothing).imp_right fun emptied => ?_⟩
    exact ⟨missing, emptied⟩
  next some =>
    refine Or.inl ⟨_, _, ?_, rfl, receivesMore.read bufferLen choices.read⟩
    omega

end

/-! ### The loop -/

theorem receives_start (source : Bytes) (isSource : source = response.stream.take cut) :
    Receives (parseHeaders readUtf8) response cut [] none response.parts 0 0 { source } where
  phase := phase_start
  received_le := Nat.zero_le _
  source := isSource
  content := by rw [take_zero, drop_nil]
  skipped_le := Nat.le_refl 0
  chunkStart := rfl
  isPart := by simp
  unseen := by
    have nextPos : 0 < response.nextLength response.parts := nextLength_pos
    change 0 + 0 < 0 + (response.placeBytes none).length + response.nextLength response.parts
    omega
  inPreamble _ := response.nonempty
  completed := rfl

variable (readUtf8 parseLong)

def Reached (response : MultipartResponse) (cut : ℕ) (choices : ℕ → ReadChoices) (index : ℕ)
    (state : State) : Prop :=
  readAllParts readUtf8 parseLong response.boundary choices (response.stream.take cut) index =
    .continues state

variable {readUtf8 parseLong} {environment : ℕ → ReadChoices}

theorem readAllParts_ends
    (good : ∀ index state, Reached readUtf8 parseLong response cut environment index state →
      ¬ BadProgress parseLong response.boundary (environment index) state) :
    ∃ taken result, readAllParts readUtf8 parseLong response.boundary environment
        (response.stream.take cut) (taken + 1) = .ends result ∧
      (response.closeEnd ≤ cut ∧ result.1 = some true ∧
          result.2.completed = completions (parseHeaders readUtf8) response.parts ∨
        result.1 = some false ∧ (cut < response.closeEnd ∨ ∃ index state,
          Reached readUtf8 parseLong response cut environment index state ∧
            EmptiesSource response.boundary (environment index) state)) := by
  -- Each turn uses up received bytes, or a part: this is what counts down.
  refine runTurns_countdown
    (fun _ left state => ∃ before place rest skipped received,
      Receives (parseHeaders readUtf8) response cut before place rest skipped received state ∧
        left = (response.stream.take cut).length - received + rest.length)
    (fun _ (result : Option Bool × State) => response.closeEnd ≤ cut ∧ result.1 = some true ∧
        result.2.completed = completions (parseHeaders readUtf8) response.parts ∨
      result.1 = some false ∧ (cut < response.closeEnd ∨ ∃ index state,
        Reached readUtf8 parseLong response cut environment index state ∧
          EmptiesSource response.boundary (environment index) state)) ?_
    ⟨[], none, response.parts, 0, 0, receives_start _ rfl, rfl⟩
  rintro index left state reached ⟨before, place, rest, skipped, received, receives, rfl⟩
  have fits := receives.received_le
  have closes := receives.phase.next_le_closeEnd
  have goodHere := good index state reached
  have cutLength : (response.stream.take cut).length = min cut response.stream.length := length_take
  by_cases finished : before.length + (response.placeBytes place).length +
      response.nextLength rest ≤ received
  -- The delimiter is there, and is followed by a part or by nothing.
  · rcases receives.turn_finished finished goodHere with
      ⟨part, later, next, rfl, continues, receivesNext⟩ | ⟨final, rfl, ends, completed⟩
    · refine Or.inl ⟨next, _, continues, ?_, _, _, _, _, _, receivesNext, rfl⟩
      rw [length_cons]
      omega
    · refine Or.inr ⟨_, ends, Or.inl ⟨?_, rfl, completed⟩⟩
      have isEnd := receives.phase.closeEnd
      rw [closePosition] at isEnd
      rw [nextLength, isEmpty_nil, if_pos rfl] at finished
      omega
  -- It is not there: the turn reads on, or the source has ended.
  · rw [Nat.not_le] at finished
    rcases receives.turn_unfinished finished goodHere with
      ⟨receivedMore, next, more, continues, receivesNext⟩ | ⟨⟨final, ends⟩, why⟩
    · have fitsNext := receivesNext.received_le
      refine Or.inl ⟨next, _, continues, ?_, _, _, _, _, _, receivesNext, rfl⟩
      omega
    · refine Or.inr ⟨_, ends, Or.inr ⟨rfl, ?_⟩⟩
      rcases why with empty | empties
      · left
        have received : state.source.length = 0 := by rw [empty]; rfl
        rw [receives.source, length_drop] at received
        have within := response.closeEnd_le
        omega
      · exact Or.inr ⟨index, state, reached, empties⟩

variable {index fuel : ℕ}

theorem result_of_turn {result other : Option Bool × State}
    (reached : Reached readUtf8 parseLong response cut environment index state)
    (ends : turn readUtf8 parseLong response.boundary (environment index) state = .ends result)
    (returns : readAllParts readUtf8 parseLong response.boundary environment
      (response.stream.take cut) fuel = .ends other) : result = other := by
  have ended := runTurns_succ reached
  rw [Nat.zero_add, ends] at ended
  exact runTurns_unique ended returns

theorem not_badProgress_of_returns {returned : Bool} {final : State}
    (returns : readAllParts readUtf8 parseLong response.boundary environment
      (response.stream.take cut) fuel = .ends (some returned, final))
    (reached : Reached readUtf8 parseLong response cut environment index state) :
    ¬ BadProgress parseLong response.boundary (environment index) state := by
  intro bad
  obtain ⟨_, ends⟩ := turn_of_badProgress bad
  cases result_of_turn reached ends returns

theorem not_emptiesSource_of_returns {final : State}
    (returns : readAllParts readUtf8 parseLong response.boundary environment
      (response.stream.take cut) fuel = .ends (some true, final))
    (reached : Reached readUtf8 parseLong response cut environment index state) :
    ¬ EmptiesSource response.boundary (environment index) state := by
  intro empties
  obtain ⟨_, ends⟩ := turn_of_emptiesSource empties
  cases result_of_turn reached ends returns

theorem completes_iff (complete : response.closeEnd ≤ cut) :
    (∃ fuel final, readAllParts readUtf8 parseLong response.boundary environment
        (response.stream.take cut) fuel = .ends (some true, final) ∧
        final.completed = completions (parseHeaders readUtf8) response.parts) ↔
      ∀ index state, Reached readUtf8 parseLong response cut environment index state →
        ¬ EmptiesSource response.boundary (environment index) state ∧
          ¬ BadProgress parseLong response.boundary (environment index) state := by
  constructor
  · rintro ⟨fuel, final, returns, -⟩ index state reached
    exact ⟨not_emptiesSource_of_returns returns reached, not_badProgress_of_returns returns reached⟩
  · intro good
    obtain ⟨taken, ⟨returned, final⟩, ends, why⟩ :=
      readAllParts_ends fun index state reached => (good index state reached).2
    rcases why with ⟨-, rfl, completed⟩ | ⟨-, cuts | ⟨index, state, reached, empties⟩⟩
    · exact ⟨taken + 1, final, ends, completed⟩
    · omega
    · exact absurd empties (good index state reached).1

theorem completed_of_returns {final : State} (complete : response.closeEnd ≤ cut)
    (returns : readAllParts readUtf8 parseLong response.boundary environment
      (response.stream.take cut) fuel = .ends (some true, final)) :
    final.completed = completions (parseHeaders readUtf8) response.parts := by
  obtain ⟨_, _, ends, completed⟩ := (completes_iff complete).mpr
    fun index state reached => ⟨not_emptiesSource_of_returns returns reached,
      not_badProgress_of_returns returns reached⟩
  cases runTurns_unique ends returns
  exact completed

theorem refuses_iff (cuts : cut < response.closeEnd) :
    (∃ fuel final, readAllParts readUtf8 parseLong response.boundary environment
        (response.stream.take cut) fuel = .ends (some false, final)) ↔
      ∀ index state, Reached readUtf8 parseLong response cut environment index state →
        ¬ BadProgress parseLong response.boundary (environment index) state := by
  constructor
  · rintro ⟨fuel, final, returns⟩ index state reached
    exact not_badProgress_of_returns returns reached
  · intro good
    obtain ⟨taken, ⟨returned, final⟩, ends, why⟩ := readAllParts_ends good
    rcases why with ⟨complete, -⟩ | ⟨rfl, -⟩
    · omega
    · exact ⟨taken + 1, final, ends⟩

variable (readUtf8 parseLong) in
/-- **The reader completes the parts of a response exactly if** no header detection takes the rest
of the source and no progress is bad; a response that is cut is refused unless progress is bad. -/
theorem readAllParts_iff (response : MultipartResponse) (environment : ℕ → ReadChoices) (cut : ℕ) :
    (response.closeEnd ≤ cut →
      ((∃ fuel final, readAllParts readUtf8 parseLong response.boundary environment
          (response.stream.take cut) fuel = .ends (some true, final) ∧
          final.completed = completions (parseHeaders readUtf8) response.parts) ↔
        ∀ index state, Reached readUtf8 parseLong response cut environment index state →
          ¬ EmptiesSource response.boundary (environment index) state ∧
            ¬ BadProgress parseLong response.boundary (environment index) state)) ∧
    (cut < response.closeEnd →
      ((∃ fuel final, readAllParts readUtf8 parseLong response.boundary environment
          (response.stream.take cut) fuel = .ends (some false, final)) ↔
        ∀ index state, Reached readUtf8 parseLong response cut environment index state →
          ¬ BadProgress parseLong response.boundary (environment index) state)) :=
  ⟨completes_iff, refuses_iff⟩

def oneHeader : MultipartResponse where
  boundary := [98]
  preamble := []
  parts := [⟨[⟨[65, 58, 49], by decide, forall_occursAt (by decide) (by decide)⟩], [120]⟩]
  epilogue := []
  nonempty := cons_ne_nil _ _
  delimitersOnly := forall_occursAt (by decide) (by decide)
  closeOnly := forall_occursAt (by decide) (by decide)

theorem headerRead_not_complete :
    ¬ ∃ fuel final, readAllParts (fun _ => []) (fun _ => none) oneHeader.boundary
        (fun _ => ⟨10, 14, false⟩) (oneHeader.stream.take oneHeader.stream.length) fuel =
          .ends (some true, final) ∧
      final.completed = completions (parseHeaders fun _ => []) oneHeader.parts := by
  rintro ⟨fuel, final, returns, -⟩
  obtain ⟨other, ends⟩ : ∃ other, readAllParts (fun _ => []) (fun _ => none) oneHeader.boundary
      (fun _ => ⟨10, 14, false⟩) (oneHeader.stream.take oneHeader.stream.length) 3 =
        .ends (some false, other) := ⟨_, rfl⟩
  cases runTurns_unique ends returns

end MultipartStreamReader

end ReactNative

