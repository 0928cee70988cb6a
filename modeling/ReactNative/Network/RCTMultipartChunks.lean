import ReactNative.Network.RCTMultipartStreamReader

/-! The buffer is always what has been received of the stream (`Holds`). -/
namespace ReactNative

open PatternSearch Loops MultipartResponse MultipartStreamReader List Option

def completionsFrom (parseHeaders : Bytes → Headers) (headers : Headers) :
    List Part → List ChunkCompletion
  | [] => []
  | part :: rest => (some headers, part.body, rest.isEmpty) :: completions parseHeaders rest

def MultipartResponse.firstPart (response : MultipartResponse) : Part :=
  response.parts.head response.nonempty

namespace MultipartResponse

variable {response : MultipartResponse} {before : Bytes} {place : Option Part} {rest : List Part}

theorem Phase.headersMarker {part : Part} (phase : response.Phase before (some part) rest) :
    OccursAt headersMarker response.stream (before.length + part.headers.length) ∧
      ∀ j, before.length ≤ j → OccursAt headersMarker response.stream j →
        before.length + part.headers.length ≤ j := by
  have fromPart : response.stream.drop before.length = Part.headerBlock part.headerLines ++
      ReactNative.headersMarker ++
        (part.body ++ encodeParts response.boundary response.epilogue rest) := by
    rw [phase.whole, append_assoc, drop_left]
    simp only [placeBytes, elim_some, Part.chunk, Part.headers, append_assoc]
  have isFirst := indexOf_headersMarker part.headerLines
    (part.body ++ encodeParts response.boundary response.epilogue rest)
  rw [← fromPart, indexOf_eq_some_iff (by decide)] at isFirst
  obtain ⟨-, occurs, first⟩ := isFirst
  rw [occursAt_drop_iff] at occurs
  refine ⟨occurs, fun j after occursAt => ?_⟩
  by_contra earlier
  rw [Nat.not_le] at earlier
  have shifted : before.length + (j - before.length) = j := Nat.add_sub_cancel' after
  refine first (j - before.length) (Nat.zero_le _) ?_ ?_
  · rw [Part.headers] at earlier
    omega
  · rw [occursAt_drop_iff, shifted]
    exact occursAt

end MultipartResponse

namespace RCTMultipartStreamReader

variable (decode : Bytes → Option (List Char)) (integerValue : List Char → ℤ)
  (progressCallback : Bool)

variable (response : MultipartResponse)

/-- The preamble gives headers to the first part that are not its own. -/
def StrayHeaders (state : State) : Prop :=
  state.chunkStart = 0 ∧
    findDelimiter response.boundary state.content (state.searchStart response.boundary) = none ∧
    state.currentHeaders = none ∧
    ∃ location, indexOf headersMarker state.content (state.searchStart response.boundary) =
        some location ∧
      parseHeaders decode (state.content.take location) ≠
        parseHeaders decode response.firstPart.headers

/-- The buffer has what has been received, and the part that is next gets the headers. -/
structure Holds (cut : ℕ) (target : List ChunkCompletion)
    (headers : Headers) (before : Bytes) (place : Option Part) (rest : List Part) (received : ℕ)
    (state : State) : Prop where
  phase : response.Phase before place rest
  received_le : received ≤ (response.stream.take cut).length
  stream : state.stream = (response.stream.take cut).drop received
  content : state.content = response.stream.take received
  chunkStart : state.chunkStart = before.length
  isPart : 0 < before.length ↔ place.isSome
  unseen : state.bytesSeen <
    before.length + (response.placeBytes place).length + response.nextLength rest
  inPreamble : place = none → rest = response.parts ∧ state.completed = []
  completed : state.completed ++ completionsFrom (parseHeaders decode) headers
    (place.toList ++ rest) = target
  found : ∀ current, state.currentHeaders = some current → current = headers
  notFound : state.currentHeaders = none → ∀ part later, place.toList ++ rest = part :: later →
    headers = parseHeaders decode part.headers
  noMarker : state.currentHeaders = none → place.isSome → ∀ j, before.length ≤ j →
    OccursAt headersMarker response.stream j → state.bytesSeen < j + headersMarker.length

variable {decode integerValue progressCallback} {choices : StreamRead} {state : State}
  {response : MultipartResponse} {cut : ℕ} {target : List ChunkCompletion} {headers : Headers}
  {before : Bytes} {place : Option Part} {rest : List Part} {received : ℕ}

/-! ### Frames -/

theorem emitProgress_eq (contentLength : ℤ) (isFinal timePassed : Bool) (state : State) :
    ∃ progressed, emitProgress integerValue progressCallback contentLength isFinal timePassed state =
      { state with progressed := progressed } := by
  rw [emitProgress]
  split
  next => exact ⟨state.progressed, rfl⟩
  next =>
    dsimp only
    split
    next => exact ⟨_, rfl⟩
    next => exact ⟨state.progressed, rfl⟩

section

variable (holds : Holds decode response cut target headers before place rest received state)
include holds

theorem Holds.length_content : state.content.length = received := by
  have fits := holds.received_le
  rw [holds.content, length_take]
  rw [length_take] at fits
  omega

theorem Holds.searchStart_eq :
    state.searchStart response.boundary =
      max (state.bytesSeen - (closeDelimiter response.boundary).length) before.length := by
  rw [State.searchStart, holds.chunkStart]

theorem Holds.findDelimiter :
    findDelimiter response.boundary state.content (state.searchStart response.boundary) =
      if before.length + (response.placeBytes place).length + response.nextLength rest ≤ received
      then some (before.length + (response.placeBytes place).length, rest.isEmpty) else none := by
  rw [holds.content, holds.searchStart_eq]
  exact holds.phase.findDelimiter holds.unseen

end

section

variable {part : Part}
  (holds : Holds decode response cut target headers before (some part) rest received state)
  (noHeaders : state.currentHeaders = none)
include holds noHeaders

theorem Holds.location_eq {location : ℕ}
    (isFound : indexOf headersMarker state.content (state.searchStart response.boundary) =
      some location) : location = before.length + part.headers.length := by
  obtain ⟨occurs, first⟩ := holds.phase.headersMarker
  have unseen := holds.noMarker noHeaders rfl _ (Nat.le_add_right _ _) occurs
  have longer : headersMarker.length ≤ (closeDelimiter response.boundary).length := by
    simp [headersMarker, closeDelimiter, crlf]
  rw [holds.content, holds.searchStart_eq, indexOf_eq_some_iff (by decide),
    occursAt_take_iff (by decide)] at isFound
  obtain ⟨after, ⟨occursAt, within⟩, earliest⟩ := isFound
  have notBefore := first location (Nat.le_trans (Nat.le_max_right _ _) after) occursAt
  refine Nat.le_antisymm ?_ notBefore
  by_contra later
  rw [Nat.not_le] at later
  refine earliest _ (by omega) later ?_
  rw [occursAt_take_iff (by decide)]
  exact ⟨occurs, by omega⟩

theorem Holds.noMarker_of_none
    (missing : indexOf headersMarker state.content (state.searchStart response.boundary) = none)
    {j : ℕ} (after : before.length ≤ j) (occurs : OccursAt headersMarker response.stream j) :
    received < j + headersMarker.length := by
  have unseen := holds.noMarker noHeaders rfl j after occurs
  have longer : headersMarker.length ≤ (closeDelimiter response.boundary).length := by
    simp [headersMarker, closeDelimiter, crlf]
  rw [holds.content, holds.searchStart_eq, indexOf_eq_none_iff (by decide)] at missing
  by_contra within
  rw [Nat.not_lt] at within
  refine missing j (by omega) ?_
  rw [occursAt_take_iff (by decide)]
  exact ⟨occurs, within⟩

end

theorem Holds.headers_eq {location : ℕ}
    (holds : Holds decode response cut target headers before place rest received state)
    (own : ¬ StrayHeaders decode response state)
    (unfinished : received < before.length + (response.placeBytes place).length +
      response.nextLength rest) (noHeaders : state.currentHeaders = none)
    (isFound : indexOf headersMarker state.content (state.searchStart response.boundary) =
      some location) :
    parseHeaders decode ((state.content.drop state.chunkStart).take (location - state.chunkStart)) =
      headers := by
  cases place with
  -- Before the first part a marker would give its headers too early; that is to be stray.
  | none =>
    have atStart : state.chunkStart = 0 := by
      have := holds.isPart
      rw [holds.chunkStart]
      simpa using this
    have isFirst : headers = parseHeaders decode response.firstPart.headers := by
      obtain ⟨part, later, isParts⟩ := exists_cons_of_ne_nil response.nonempty
      have here := holds.notFound noHeaders part later (by
        rw [(holds.inPreamble rfl).1, isParts]
        rfl)
      rw [here, firstPart]
      simp only [isParts, head_cons]
    have missing := holds.findDelimiter
    rw [if_neg (Nat.not_le_of_lt unfinished)] at missing
    rw [atStart, drop_zero, Nat.sub_zero, isFirst]
    by_contra differs
    exact own ⟨atStart, missing, noHeaders, location, isFound, differs⟩
  -- In a part the marker is the one behind its headers.
  | some part =>
    have isLocation := holds.location_eq noHeaders isFound
    have isHeaders : (state.content.drop state.chunkStart).take (location - state.chunkStart) =
        part.headers := by
      rw [isLocation, holds.chunkStart, holds.content, Nat.add_sub_cancel_left, drop_take, take_take, holds.phase.whole,
        append_assoc, drop_left]
      have within : part.headers.length ≤ received - before.length := by
        rw [holds.content, indexOf_eq_some_iff (by decide), occursAt_take_iff (by decide)] at isFound
        have received := isFound.2.1.2
        omega
      rw [Nat.min_eq_left within]
      simp only [placeBytes, elim_some, Part.chunk, append_assoc]
      exact take_left
    rw [isHeaders]
    exact (holds.notFound noHeaders part rest rfl).symm

variable (integerValue progressCallback choices) in
theorem Holds.beforeRead
    (holds : Holds decode response cut target headers before place rest received state)
    (own : ¬ StrayHeaders decode response state)
    (unfinished : received < before.length + (response.placeBytes place).length +
      response.nextLength rest) :
    Holds decode response cut target headers before place rest received
      { beforeRead decode integerValue progressCallback response.boundary choices state with
        bytesSeen := state.content.length } := by
  -- Once this turn is over, everything in the buffer was seen.
  have seen : state.content.length < before.length + (response.placeBytes place).length +
      response.nextLength rest := by
    rw [holds.length_content]
    exact unfinished
  rw [RCTMultipartStreamReader.beforeRead]
  split
  next noHeaders =>
    split
    next missing =>
      -- No marker yet: none will be found in the bytes seen.
      refine { holds with unseen := seen, noMarker := ?_ }
      intro _ isPart j after occurs
      cases place with
      | none => cases isPart
      | some part =>
        dsimp only
        rw [holds.length_content]
        exact holds.noMarker_of_none noHeaders missing after occurs
    next location isFound =>
      -- The headers found are those of the part.
      refine { holds with unseen := seen, found := ?_, notFound := ?_, noMarker := ?_ }
      · rintro _ ⟨⟩
        exact holds.headers_eq own unfinished noHeaders isFound
      · nofun
      · nofun
  next current isCurrent =>
    obtain ⟨progressed, isState⟩ : ∃ progressed, emitProgress integerValue progressCallback
        (state.content.length - state.currentHeadersLength) false choices.timePassed state =
          { state with progressed := progressed } := emitProgress_eq _ _ _ state
    rw [isState]
    refine { holds with unseen := seen, noMarker := ?_ }
    intro noHeaders
    cases isCurrent.symm.trans noHeaders

variable (integerValue progressCallback choices) in
theorem Holds.stray
    (holds : Holds decode response cut target headers before place rest received state)
    (stray : StrayHeaders decode response state)
    (unfinished : received < before.length + (response.placeBytes place).length +
      response.nextLength rest) :
    ∃ strayHeaders, strayHeaders ≠ parseHeaders decode response.firstPart.headers ∧
      Holds decode response cut
        (completionsFrom (parseHeaders decode) strayHeaders response.parts) strayHeaders before
        place rest received
        { RCTMultipartStreamReader.beforeRead decode integerValue progressCallback
            response.boundary choices state with bytesSeen := state.content.length } := by
  obtain ⟨atStart, -, noHeaders, location, isFound, differs⟩ := stray
  have seen : state.content.length < before.length + (response.placeBytes place).length +
      response.nextLength rest := by
    rw [holds.length_content]
    exact unfinished
  -- Only the preamble starts at the start of the stream.
  have isPlace : place = none := by
    have isStart := holds.chunkStart
    have isPart := holds.isPart
    cases place with
    | none => rfl
    | some part =>
      have positive := isPart.mpr rfl
      omega
  obtain ⟨isRest, nothing⟩ := holds.inPreamble isPlace
  refine ⟨_, differs, ?_⟩
  rw [RCTMultipartStreamReader.beforeRead, noHeaders]
  dsimp only
  rw [isFound]
  dsimp only
  rw [atStart, drop_zero, Nat.sub_zero]
  -- From here on the first part is completed with the stray headers.
  refine { holds with
    unseen := seen, completed := ?_, found := ?_, notFound := ?_, noMarker := ?_,
    chunkStart := ?_ }
  · exact atStart.symm.trans holds.chunkStart
  · dsimp only
    rw [nothing, isPlace, isRest]
    rfl
  · rintro _ ⟨⟩
    rfl
  · nofun
  · nofun

theorem Holds.read
    (holds : Holds decode response cut target headers before place rest received state)
    (choice : ℕ) :
    Holds decode response cut target headers before place rest
      (received + readLength bufferLen choice state.stream) (state.read choice) := by
  obtain ⟨fits, taken⟩ := take_readLength holds.received_le holds.stream bufferLen choice
  refine { holds with received_le := fits, stream := ?_, content := ?_ }
  · rw [State.read, holds.stream, drop_drop]
  · rw [State.read, holds.content, taken, take_add]

/-! ### Turns -/

theorem emitChunk_chunk (part : Part) (current : Option Headers) (done : Bool) :
    emitChunk decode part.chunk current done state = { state with
      completed := state.completed ++
        [(some (current.getD (parseHeaders decode part.headers)), part.body, done)] } := by
  rw [emitChunk, part.indexOf_chunk]
  dsimp only
  rw [part.take_chunk, part.drop_chunk]

section

variable (holds : Holds decode response cut target headers before place rest received state)
  (finished : before.length + (response.placeBytes place).length + response.nextLength rest ≤ received)
include holds finished

theorem Holds.endChunk :
    ∃ ended laterHeaders, endChunk decode integerValue progressCallback
        (before.length + (response.placeBytes place).length) rest.isEmpty choices state = ended ∧
      ended.stream = state.stream ∧ ended.content = state.content ∧
      ended.completed ++ completionsFrom (parseHeaders decode) laterHeaders rest = target ∧
      (∀ current, ended.currentHeaders = some current → current = laterHeaders) ∧
      (ended.currentHeaders = none → ∀ part later, rest = part :: later →
        laterHeaders = parseHeaders decode part.headers) := by
  rw [RCTMultipartStreamReader.endChunk, holds.chunkStart]
  cases place with
  | none =>
    have preamble : ¬ 0 < before.length := by simp [holds.isPart]
    rw [if_neg preamble]
    exact ⟨state, headers, rfl, rfl, rfl, holds.completed, holds.found, holds.notFound⟩
  | some part =>
    rw [if_pos (holds.isPart.mpr rfl)]
    -- The buffer has all of the part, up to the delimiter.
    have chunk : (state.content.drop before.length).take
        (before.length + (response.placeBytes (some part)).length - before.length) =
          part.chunk := by
      have within : part.chunk.length ≤ received - before.length := by
        simp only [placeBytes, elim_some] at finished
        omega
      rw [Nat.add_sub_cancel_left, holds.content, holds.phase.whole, drop_take,
        append_assoc, drop_left, take_take]
      simp only [placeBytes, elim_some]
      rw [Nat.min_eq_left within]
      exact take_left
    -- The headers of the part: those found before, or those found now.
    have own : state.currentHeaders.getD (parseHeaders decode part.headers) = headers := by
      cases isCurrent : state.currentHeaders with
      | none => exact (holds.notFound isCurrent part rest rfl).symm
      | some current => exact holds.found current isCurrent
    dsimp only
    rw [chunk]
    obtain ⟨progressed, isState⟩ : ∃ progressed, emitProgress integerValue progressCallback
        (part.chunk.length - state.currentHeadersLength) true choices.timePassed state =
          { state with progressed := progressed } := emitProgress_eq _ _ _ state
    rw [isState, emitChunk_chunk, own]
    have completed : state.completed ++ ([(some headers, part.body, rest.isEmpty)] ++
        completions (parseHeaders decode) rest) = target := holds.completed
    rw [← append_assoc] at completed
    cases rest with
    | nil =>
      exact ⟨_, headers, rfl, rfl, rfl, completed, by simp, by simp⟩
    | cons next later =>
      refine ⟨_, parseHeaders decode next.headers, rfl, rfl, rfl, completed, by simp, ?_⟩
      rintro _ _ _ ⟨⟩
      rfl

/-- **A turn that has the next delimiter** goes on with the next part, or returns. -/
theorem Holds.turn_finished :
    (∃ part later next laterHeaders, rest = part :: later ∧
      turn decode integerValue progressCallback response.boundary choices state = .continues next ∧
      Holds decode response cut target laterHeaders
        (before ++ response.placeBytes place ++ delimiter response.boundary) (some part) later
        received next) ∨
    ∃ final, rest = [] ∧ turn decode integerValue progressCallback response.boundary choices state =
        .ends (true, final) ∧ final.completed = target := by
  obtain ⟨ended, laterHeaders, isEnded, stream, content, completed, found, notFound⟩ :=
    holds.endChunk finished
  have isFound := holds.findDelimiter
  rw [if_pos finished] at isFound
  rw [turn, isFound]
  dsimp only
  rw [isEnded]
  cases rest with
  | nil =>
    right
    refine ⟨_, rfl, rfl, ?_⟩
    rw [completionsFrom, append_nil] at completed
    exact completed
  | cons part later =>
    left
    have positive := length_pos_iff.mpr (delimiter_ne_nil response.boundary)
    have nextPos : 0 < response.nextLength later := nextLength_pos
    have length : (before ++ response.placeBytes place ++ delimiter response.boundary).length =
        before.length + (response.placeBytes place).length +
          (delimiter response.boundary).length := by
      simp only [length_append]
    refine ⟨part, later, _, laterHeaders, rfl, rfl, ?_⟩
    -- The fields in the order of `Holds`, for the part after the delimiter.
    constructor
    · exact holds.phase.next
    · exact holds.received_le
    · exact stream.trans holds.stream
    · exact content.trans holds.content
    · exact length.symm
    · exact iff_of_true (by omega) rfl
    · dsimp only
      omega
    · nofun
    · exact completed
    · exact found
    · intro noHeaders other others isNext
      obtain ⟨rfl, rfl⟩ := List.cons.inj isNext
      exact notFound noHeaders part later rfl
    · intro _ _ j after _
      dsimp only
      omega

end

/-- **A turn that does not have it** receives more, or the stream has ended. The headers that it
finds may be others than those that were expected. -/
theorem Holds.turn_unfinished {targetMore : List ChunkCompletion} {headersMore : Headers}
    (holds : Holds decode response cut target headers before place rest received state)
    (unfinished : received < before.length + (response.placeBytes place).length +
      response.nextLength rest)
    (reads : Holds decode response cut targetMore headersMore before place rest received
      { RCTMultipartStreamReader.beforeRead decode integerValue progressCallback response.boundary
          choices state with bytesSeen := state.content.length }) :
    (∃ receivedMore next, received < receivedMore ∧
      turn decode integerValue progressCallback response.boundary choices state = .continues next ∧
      Holds decode response cut targetMore headersMore before place rest receivedMore next) ∨
    ∃ final, turn decode integerValue progressCallback response.boundary choices state =
        .ends (false, final) ∧ received = (response.stream.take cut).length := by
  have missing := holds.findDelimiter
  rw [if_neg (Nat.not_le_of_lt unfinished)] at missing
  rw [turn, missing]
  dsimp only
  split
  next nothing =>
    refine Or.inr ⟨_, rfl, ?_⟩
    rw [Nat.le_zero, bufferLen, ← MultipartStreamReader.bufferLen,
      readLength_eq_zero_iff] at nothing
    have isStream := reads.stream
    have fits := holds.received_le
    dsimp only at isStream
    rw [nothing] at isStream
    have ended := drop_eq_nil_iff.mp isStream.symm
    omega
  next some =>
    refine Or.inl ⟨_, _, ?_, rfl, reads.read choices.read⟩
    dsimp only
    omega

/-! ### The loop -/

theorem completionsFrom_firstPart (response : MultipartResponse) (parse : Bytes → Headers) :
    completionsFrom parse (parse response.firstPart.headers) response.parts =
      completions parse response.parts := by
  obtain ⟨_, _, isParts⟩ := exists_cons_of_ne_nil response.nonempty
  simp only [firstPart, isParts, head_cons]
  rfl

theorem completionsFrom_ne (response : MultipartResponse) {parse : Bytes → Headers}
    (differs : headers ≠ parse response.firstPart.headers) :
    completionsFrom parse headers response.parts ≠ completions parse response.parts := by
  intro same
  rw [← completionsFrom_firstPart] at same
  obtain ⟨_, _, isParts⟩ := exists_cons_of_ne_nil response.nonempty
  rw [isParts] at same
  simp only [completionsFrom, List.cons.injEq, Prod.mk.injEq, some.injEq] at same
  exact differs same.1.1

theorem holds_start (stream : Bytes) (isStream : stream = response.stream.take cut) :
    Holds decode response cut (completions (parseHeaders decode) response.parts)
      (parseHeaders decode response.firstPart.headers) [] none response.parts 0 { stream } where
  phase := phase_start
  received_le := Nat.zero_le _
  stream := isStream
  content := rfl
  chunkStart := rfl
  isPart := by simp
  unseen := by
    have nextPos : 0 < response.nextLength response.parts := nextLength_pos
    change 0 < 0 + (response.placeBytes none).length + response.nextLength response.parts
    omega
  inPreamble _ := ⟨rfl, rfl⟩
  completed := completionsFrom_firstPart response _
  found _ impossible := by cases impossible
  notFound _ part later isParts := by
    have isFirst : response.parts = part :: later := isParts
    simp only [firstPart, isFirst, head_cons]
  noMarker _ impossible := by cases impossible

variable (decode integerValue progressCallback)

def Reached (response : MultipartResponse) (cut : ℕ) (choices : ℕ → StreamRead) (index : ℕ)
    (state : State) : Prop :=
  readAllParts decode integerValue progressCallback response.boundary choices
    (response.stream.take cut) index = .continues state

def StrayBefore (response : MultipartResponse) (cut : ℕ) (choices : ℕ → StreamRead) (taken : ℕ) :
    Prop :=
  ∃ index < taken, ∃ state,
    Reached decode integerValue progressCallback response cut choices index state ∧
      StrayHeaders decode response state

variable {decode integerValue progressCallback} {environment : ℕ → StreamRead}

theorem strayBefore_succ {taken : ℕ}
    (reached : Reached decode integerValue progressCallback response cut environment taken state) :
    StrayBefore decode integerValue progressCallback response cut environment (taken + 1) ↔
      StrayBefore decode integerValue progressCallback response cut environment taken ∨
        StrayHeaders decode response state := by
  constructor
  · rintro ⟨index, before, other, otherReached, stray⟩
    rcases Nat.lt_succ_iff_lt_or_eq.mp before with earlier | rfl
    · exact Or.inl ⟨index, earlier, other, otherReached, stray⟩
    · cases otherReached.symm.trans reached
      exact Or.inr stray
  · rintro (⟨index, before, other, otherReached, stray⟩ | stray)
    · exact ⟨index, Nat.lt_succ_of_lt before, other, otherReached, stray⟩
    · exact ⟨taken, Nat.lt_succ_self taken, state, reached, stray⟩

variable (decode integerValue progressCallback response cut environment) in
/-- How the loop ends: with the own headers of the first part unless some were stray. -/
theorem readAllParts_ends :
    ∃ taken result, readAllParts decode integerValue progressCallback response.boundary
        environment (response.stream.take cut) (taken + 1) = .ends result ∧
      (response.closeEnd ≤ cut ∧ result.1 = true ∧
          (StrayBefore decode integerValue progressCallback response cut environment (taken + 1) ↔
            result.2.completed ≠ completions (parseHeaders decode) response.parts) ∨
        result.1 = false ∧ cut < response.closeEnd) := by
  -- The target is what will be completed: it differs once headers were stray.
  refine runTurns_countdown
    (fun taken left state => ∃ target headers before place rest received,
      Holds decode response cut target headers before place rest received state ∧
        left = (response.stream.take cut).length - received + rest.length ∧
        (StrayBefore decode integerValue progressCallback response cut environment taken ↔
          target ≠ completions (parseHeaders decode) response.parts))
    (fun taken (result : Bool × State) => response.closeEnd ≤ cut ∧ result.1 = true ∧
        (StrayBefore decode integerValue progressCallback response cut environment (taken + 1) ↔
          result.2.completed ≠ completions (parseHeaders decode) response.parts) ∨
      result.1 = false ∧ cut < response.closeEnd) ?_
    ⟨_, _, [], none, response.parts, 0, holds_start _ rfl, rfl, ?_⟩
  · rintro taken left state reached
      ⟨target, headers, before, place, rest, received, holds, rfl, strayIff⟩
    have fits := holds.received_le
    have closes := holds.phase.next_le_closeEnd
    have cutLength : (response.stream.take cut).length = min cut response.stream.length :=
      length_take
    have strayNext := strayBefore_succ reached
    by_cases finished : before.length + (response.placeBytes place).length +
        response.nextLength rest ≤ received
    -- With the delimiter found, no headers are read, and so none are stray.
    · have own : ¬ StrayHeaders decode response state := by
        rintro ⟨-, missing, -⟩
        rw [holds.findDelimiter, if_pos finished] at missing
        cases missing
      rw [or_iff_left own, strayIff] at strayNext
      rcases holds.turn_finished finished with
        ⟨part, later, next, laterHeaders, rfl, continues, holdsNext⟩ | ⟨final, rfl, ends, completed⟩
      · refine Or.inl ⟨next, _, continues, ?_, _, _, _, _, _, _, holdsNext, rfl, strayNext⟩
        rw [length_cons]
        omega
      · refine Or.inr ⟨_, ends, Or.inl ⟨?_, rfl, ?_⟩⟩
        · have isEnd := holds.phase.closeEnd
          rw [closePosition] at isEnd
          rw [nextLength, isEmpty_nil, if_pos rfl] at finished
          omega
        · rw [completed]
          exact strayNext
    · rw [Nat.not_le] at finished
      -- Without it, this turn may make the headers stray, and then the target changes.
      obtain ⟨targetMore, headersMore, reads, strayMore⟩ : ∃ targetMore headersMore,
          Holds decode response cut targetMore headersMore before place rest received
            { beforeRead decode integerValue progressCallback response.boundary (environment taken)
                state with bytesSeen := state.content.length } ∧
          (StrayBefore decode integerValue progressCallback response cut environment
              (taken + 1) ↔
            targetMore ≠ completions (parseHeaders decode) response.parts) := by
        by_cases stray : StrayHeaders decode response state
        · obtain ⟨strayHeaders, differs, reads⟩ :=
            holds.stray integerValue progressCallback (environment taken) stray finished
          refine ⟨_, _, reads, iff_of_true (strayNext.mpr (Or.inr stray)) ?_⟩
          exact completionsFrom_ne response differs
        · rw [or_iff_left stray, strayIff] at strayNext
          exact ⟨target, headers,
            holds.beforeRead integerValue progressCallback (environment taken) stray finished,
            strayNext⟩
      rcases holds.turn_unfinished finished reads with
        ⟨receivedMore, next, more, continues, holdsNext⟩ | ⟨final, ends, isReceived⟩
      · have fitsNext := holdsNext.received_le
        refine Or.inl ⟨next, _, continues, ?_, _, _, _, _, _, _, holdsNext, rfl, strayMore⟩
        omega
      · have within := response.closeEnd_le
        exact Or.inr ⟨_, ends, Or.inr ⟨rfl, by omega⟩⟩
  · refine iff_of_false ?_ (not_not_intro rfl)
    rintro ⟨index, before, -⟩
    cases before

theorem completes_iff (complete : response.closeEnd ≤ cut) :
    (∃ fuel final, readAllParts decode integerValue progressCallback response.boundary environment
        (response.stream.take cut) fuel = .ends (true, final) ∧
        final.completed = completions (parseHeaders decode) response.parts) ↔
      ∀ index state,
        Reached decode integerValue progressCallback response cut environment index state →
          ¬ StrayHeaders decode response state := by
  obtain ⟨taken, ⟨returned, final⟩, ends, why⟩ :=
    readAllParts_ends decode integerValue progressCallback response cut environment
  rcases why with ⟨-, isTrue, strayIff⟩ | ⟨-, cuts⟩
  · constructor
    · rintro ⟨fuel, other, otherEnds, completed⟩ index state reached stray
      cases runTurns_unique ends otherEnds
      refine strayIff.mp ⟨index, ?_, state, reached, stray⟩ completed
      by_contra later
      rw [Nat.not_lt] at later
      cases (runTurns_ends_of_le ends later).symm.trans reached
    · intro own
      refine ⟨taken + 1, final, ?_, ?_⟩
      · rw [ends]
        exact congrArg (fun returned => TurnEnd.ends (returned, final)) isTrue
      · by_contra differs
        obtain ⟨index, -, state, reached, stray⟩ := strayIff.mpr differs
        exact own index state reached stray
  · omega

variable (decode integerValue progressCallback) in
/-- **The reader completes the parts as the one of Android does exactly if** the preamble gives no
headers to the first part, the one of Android does not fail, and both parse the headers of each part
alike; a response that is cut is always refused. -/
theorem completesAlike_iff (readUtf8 : Bytes → List Char) (parseLong : List Char → Option ℤ)
    (response : MultipartResponse) (environment : ℕ → StreamRead)
    (androidEnvironment : ℕ → ReadChoices) (cut : ℕ) :
    (response.closeEnd ≤ cut →
      ((∃ fuel final, readAllParts decode integerValue progressCallback response.boundary
          environment (response.stream.take cut) fuel = .ends (true, final) ∧
          final.completed = completions (parseHeaders decode) response.parts ∧
          ∃ androidFuel androidFinal, MultipartStreamReader.readAllParts readUtf8 parseLong
              response.boundary androidEnvironment (response.stream.take cut) androidFuel =
                .ends (some true, androidFinal) ∧
            androidFinal.completed = final.completed) ↔
        (∀ index state,
          Reached decode integerValue progressCallback response cut environment index state →
            ¬ StrayHeaders decode response state) ∧
        (∀ index state, MultipartStreamReader.Reached readUtf8 parseLong response cut
            androidEnvironment index state →
          ¬ EmptiesSource response.boundary (androidEnvironment index)
              state ∧
            ¬ BadProgress parseLong response.boundary
              (androidEnvironment index) state) ∧
        ∀ part ∈ response.parts, parseHeaders decode part.headers =
          MultipartStreamReader.parseHeaders readUtf8 part.headers)) ∧
    (cut < response.closeEnd →
      (∃ fuel final, readAllParts decode integerValue progressCallback response.boundary
          environment (response.stream.take cut) fuel = .ends (false, final)) ∧
      ((∃ androidFuel androidFinal, MultipartStreamReader.readAllParts readUtf8 parseLong
          response.boundary androidEnvironment (response.stream.take cut) androidFuel =
            .ends (some false, androidFinal)) ↔
        ∀ index state, MultipartStreamReader.Reached readUtf8 parseLong response cut
            androidEnvironment index state →
          ¬ BadProgress parseLong response.boundary
            (androidEnvironment index) state)) := by
  constructor
  · intro complete
    -- Each reader alone completes the parts exactly if nothing of its own goes wrong.
    rw [← completes_iff complete, ← MultipartStreamReader.completes_iff complete]
    constructor
    · rintro ⟨fuel, final, ends, completed, androidFuel, androidFinal, androidEnds, same⟩
      have androidCompleted := completed_of_returns complete androidEnds
      refine ⟨⟨fuel, final, ends, completed⟩, ⟨androidFuel, androidFinal, androidEnds,
        androidCompleted⟩, completions_eq_iff.mp ?_⟩
      rw [← completed, ← same, androidCompleted]
    · rintro ⟨⟨fuel, final, ends, completed⟩,
        ⟨androidFuel, androidFinal, androidEnds, androidCompleted⟩, alike⟩
      refine ⟨fuel, final, ends, completed, androidFuel, androidFinal, androidEnds, ?_⟩
      rw [androidCompleted, completed, completions_eq_iff.mpr alike]
  -- A cut response is refused by this reader always, by the other unless it fails.
  · intro cuts
    refine ⟨?_, refuses_iff cuts⟩
    obtain ⟨taken, ⟨returned, final⟩, ends, ⟨complete, -⟩ | ⟨rfl, -⟩⟩ :=
      readAllParts_ends decode integerValue progressCallback response cut environment
    · omega
    · exact ⟨taken + 1, final, ends⟩

def headerInPreamble : MultipartResponse where
  boundary := [98]
  preamble := [65, 58, 49, 13, 10, 13, 10]
  parts := [⟨[⟨[66, 58, 50], by decide, forall_occursAt (by decide) (by decide)⟩], [120]⟩]
  epilogue := []
  nonempty := cons_ne_nil _ _
  delimitersOnly := forall_occursAt (by decide) (by decide)
  closeOnly := forall_occursAt (by decide) (by decide)

def ascii (data : Bytes) : Option (List Char) := some (data.map fun byte => Char.ofNat byte.toNat)

theorem headerInPreamble_not_own :
    ¬ ∃ fuel final, readAllParts ascii (fun _ => 0) true headerInPreamble.boundary
        (fun index => ⟨if index = 0 then 7 else 4096, false⟩)
        (headerInPreamble.stream.take headerInPreamble.stream.length) fuel = .ends (true, final) ∧
      final.completed = completions (parseHeaders ascii) headerInPreamble.parts := by
  rintro ⟨fuel, final, ends, completed⟩
  obtain ⟨other, otherEnds, otherHeaders⟩ : ∃ other, readAllParts ascii (fun _ => 0) true
      headerInPreamble.boundary (fun index => ⟨if index = 0 then 7 else 4096, false⟩)
      (headerInPreamble.stream.take headerInPreamble.stream.length) 4 = .ends (true, other) ∧
      other.completed.map (fun chunk => chunk.1.map fun headers => headers "B".toList) =
        [some none] := ⟨_, rfl, by decide⟩
  cases runTurns_unique otherEnds ends
  rw [completed] at otherHeaders
  revert otherHeaders
  decide

end RCTMultipartStreamReader

end ReactNative

