import ReactNative.Storage.AsyncStorageReads

/-! Calls of `multiGet` wait for a flush and share one native call. In between the stored values may
change, and native reads and answers the batches in any order. -/
namespace ReactNative

open List

namespace AsyncStorage

/-- What native was asked for by a flush, with the number of calls of `multiGet` by then. -/
structure Batch where
  keys : List JSString
  requests : List GetRequest
  issued : ℕ
  /-- What native has read, and the stored values at that time. -/
  read : Option (List (JSString × Option JSString) × (JSString → Option JSString)) := none

structure Answered where
  promise : ℕ
  settlement : Settlement (List (JSString × ReadValue))
  issued : ℕ
  values : JSString → Option JSString

variable (calls : List (List JSString))

/-- What is asked for in the batch is what its calls want, and what was read is right. -/
structure Batch.Fits (batch : Batch) : Prop where
  requests : ∀ request ∈ batch.requests, request.promise < batch.issued ∧
    calls[request.promise]? = some request.keys ∧ request.keys ⊆ batch.keys
  nodup : batch.keys.Nodup
  read : ∀ entries values, batch.read = some (entries, values) →
    (entries.map Prod.fst).Perm batch.keys ∧ ∀ entry ∈ entries, entry.2 = values entry.1

/-- The call has the values of its batch, which was flushed later, exactly if it did not ask for
`__proto__`. -/
def Answered.Right (answered : Answered) : Prop :=
  answered.promise < answered.issued ∧ ∃ keys, calls[answered.promise]? = some keys ∧
    (answered.settlement = .resolved (keys.map fun key => (key, .ofStored (answered.values key))) ↔
      protoKey ∉ keys)

structure Batching where
  js : AsyncStorage := initial
  /-- The keys of each call of `multiGet`. -/
  calls : List (List JSString) := []
  stored : JSString → Option JSString := fun _ => none
  batches : List Batch := []
  answered : List Answered := []

namespace Batching

inductive Event
  | multiGet (keys : List JSString) (hasCallback : Bool)
  | runImmediate
  | flushGetRequests
  | store (key : JSString) (value : Option JSString)
  | read (batch : ℕ) (entries : List (JSString × Option JSString))
  | answer (batch : ℕ)

def flushed (state : Batching) (flushed : Flushed) : Batching :=
  { state with
    js := flushed.self
    batches := state.batches ++ [⟨flushed.keys, flushed.requests, state.js.promises, none⟩] }

variable (state : Batching)

/-- Native reads the current value or null of each key that it was asked for. -/
def step : Event → Option Batching
  | .multiGet keys hasCallback =>
    some { state with js := state.js.multiGet keys hasCallback, calls := state.calls ++ [keys] }
  | .runImmediate => if state.js.immediate then some (state.flushed state.js.runImmediate) else none
  | .flushGetRequests => some (state.flushed state.js.flushGetRequests)
  | .store key value => some { state with stored := Function.update state.stored key value }
  | .read batch entries =>
    state.batches[batch]?.bind fun asked =>
      if asked.read = none ∧ (entries.map Prod.fst).Perm asked.keys ∧
          ∀ entry ∈ entries, entry.2 = state.stored entry.1 then
        some { state with
          batches := state.batches.set batch { asked with read := some (entries, state.stored) } }
      else none
  | .answer batch =>
    state.batches[batch]?.bind fun asked => asked.read.map fun (entries, values) =>
      { state with
        batches := state.batches.eraseIdx batch
        answered := state.answered ++ (answerRequests asked.requests ⟨.null, some entries⟩).map
          fun (promise, calledBack) => ⟨promise, calledBack.settlement, asked.issued, values⟩ }

def waiting : List ℕ :=
  state.batches.flatMap (fun batch => batch.requests.map (·.promise)) ++
    state.js.getRequests.map (·.promise)

structure Sound : Prop where
  once : (state.answered.map (·.promise) ++ state.waiting).Perm (range state.js.promises)
  calls : state.calls.length = state.js.promises
  nodup : state.js.getKeys.Nodup
  immediate : state.js.getRequests ≠ [] → state.js.immediate = true
  requests : ∀ request ∈ state.js.getRequests, state.calls[request.promise]? = some request.keys ∧
    request.keys ⊆ state.js.getKeys
  batches : ∀ batch ∈ state.batches, batch.Fits state.calls
  answered : ∀ answered ∈ state.answered, answered.Right state.calls

theorem foldl_addKey {keys getKeys : List JSString} (nodup : getKeys.Nodup) :
    (keys.foldl addKey getKeys).Nodup ∧
      ∀ key, key ∈ keys.foldl addKey getKeys ↔ key ∈ getKeys ∨ key ∈ keys := by
  induction keys generalizing getKeys with
  | nil => simpa using nodup
  | cons first _ ih =>
    have added : (addKey getKeys first).Nodup ∧
        ∀ key, key ∈ addKey getKeys first ↔ key ∈ getKeys ∨ key = first := by
      unfold addKey
      grind
    obtain ⟨later, members⟩ := ih added.1
    exact ⟨later, fun key => by simp [members, added.2, or_assoc]⟩

variable {entries : List (JSString × Option JSString)}

theorem get_fill_iff {key : JSString} {value : Option JSString}
    (nodup : (entries.map Prod.fst).Nodup) (read : (key, value) ∈ entries) :
    (fill (some entries)).get key = .ofStored value ↔ key ≠ protoKey := by
  have single : entries.filter (·.1 = key) = [(key, value)] := by
    induction entries with
    | nil => cases read
    | cons first rest ih =>
      rw [map_cons, nodup_cons] at nodup
      rcases mem_cons.1 read with rfl | later
      · have others : rest.filter (·.1 = key) = [] := by
          rw [filter_eq_nil_iff]
          grind
        simp [others]
      · have other : first.1 ≠ key := fun same => nodup.1 (same ▸ mem_map_of_mem later)
        simpa [other] using ih nodup.2 later
  rw [PlainObject.get_eq_iff, own_fill, PlainObject.takenValues, Option.getD_some, single]
  split <;> cases value <;> simp_all

variable {state next : Batching} {calls : List (List JSString)}

theorem fits_mono {batch : Batch} (fits : batch.Fits calls) (keys : List JSString) :
    batch.Fits (calls ++ [keys]) :=
  ⟨fun request member => by have := fits.requests request member; grind, fits.nodup, fits.read⟩

theorem right_mono {answered : Answered} (right : answered.Right calls)
    (keys : List JSString) : answered.Right (calls ++ [keys]) := by
  obtain ⟨before, asked, found, exactly⟩ := right
  exact ⟨before, asked, by grind, exactly⟩

theorem Sound.flush (sound : state.Sound) (immediate : Bool) : Sound (state.flushed
    ({ state.js with immediate }).flushGetRequests) where
  once := by simpa [flushed, flushGetRequests, waiting] using sound.once
  calls := sound.calls
  nodup := nodup_nil
  immediate none := absurd rfl none
  requests _ member := absurd member not_mem_nil
  batches batch member := by
    rcases mem_append.1 member with old | new
    · exact sound.batches batch old
    · rw [mem_singleton.1 new]
      exact ⟨fun request asked => ⟨state.js.fresh request asked, sound.requests request asked⟩,
        sound.nodup, nofun⟩
  answered := sound.answered

theorem answered_right {batch : Batch} (fits : batch.Fits calls)
    {values : JSString → Option JSString} (read : batch.read = some (entries, values))
    {request : GetRequest} (asked : request ∈ batch.requests) :
    Answered.Right calls ⟨request.promise,
      .resolved (request.keys.map fun key => (key, (fill (some entries)).get key)),
      batch.issued, values⟩ := by
  obtain ⟨before, call, wanted⟩ := fits.requests request asked
  obtain ⟨complete, current⟩ := fits.read entries values read
  refine ⟨before, request.keys, call, ?_⟩
  have each {key} (member : key ∈ request.keys) :
      (fill (some entries)).get key = .ofStored (values key) ↔ key ≠ protoKey := by
    obtain ⟨entry, found, rfl⟩ := mem_map.1 (complete.mem_iff.2 (wanted member))
    exact get_fill_iff (complete.nodup_iff.2 fits.nodup) (current entry found ▸ found)
  simp only [Settlement.resolved.injEq, map_inj_left, Prod.mk.injEq, true_and]
  exact ⟨fun same proto => (each proto).1 (same _ proto) rfl,
    fun free key member => (each member).2 fun isProto => free (isProto ▸ member)⟩

theorem Sound.step {event : Event} (sound : state.Sound) (stepped : step state event = some next) :
    next.Sound := by
  cases event with
  | multiGet keys =>
    cases stepped
    obtain ⟨nodup, members⟩ := @foldl_addKey keys _ sound.nodup
    refine ⟨?_, by simp [multiGet, sound.calls], nodup, fun _ => rfl, ?_,
      fun batch member => fits_mono (sound.batches batch member) keys,
      fun answered member => right_mono (sound.answered answered member) keys⟩
    · simpa [multiGet, waiting, range_succ] using sound.once.append_right [state.js.promises]
    · intro request member
      have := sound.calls
      rcases mem_append.1 member with old | new
      · have := sound.requests request old
        simp only [multiGet, subset_def, members]
        grind
      · simp only [multiGet, subset_def, members]
        grind
  | runImmediate =>
    simp only [Batching.step, Option.ite_none_right_eq_some, Option.some.injEq] at stepped
    exact stepped.2 ▸ sound.flush false
  | flushGetRequests =>
    cases stepped
    exact sound.flush state.js.immediate
  | store =>
    cases stepped
    exact ⟨sound.once, sound.calls, sound.nodup, sound.immediate, sound.requests, sound.batches,
      sound.answered⟩
  | read batch entries =>
    obtain ⟨asked, found, read⟩ := Option.bind_eq_some_iff.1 stepped
    simp only [Option.ite_none_right_eq_some, Option.some.injEq] at read
    obtain ⟨⟨-, complete, current⟩, rfl⟩ := read
    obtain ⟨inside, rfl⟩ := List.getElem?_eq_some_iff.1 found
    have fits := sound.batches _ (getElem_mem inside)
    refine ⟨?_, sound.calls, sound.nodup, sound.immediate, sound.requests, ?_, sound.answered⟩
    · have same : (state.batches.map fun batch => batch.requests.map (·.promise)).set batch
          (state.batches[batch].requests.map (·.promise)) =
            state.batches.map fun batch => batch.requests.map (·.promise) := by
        apply ext_getElem <;> grind
      simpa [waiting, flatMap_def, map_set, same] using sound.once
    · intro other member
      rcases mem_or_eq_of_mem_set member with old | rfl
      · exact sound.batches other old
      · exact ⟨fits.requests, fits.nodup, fun _ _ same => by cases same; exact ⟨complete, current⟩⟩
  | answer batch =>
    obtain ⟨asked, found, answer⟩ := Option.bind_eq_some_iff.1 stepped
    obtain ⟨⟨entries, values⟩, read, rfl⟩ := Option.map_eq_some_iff.1 answer
    obtain ⟨inside, rfl⟩ := List.getElem?_eq_some_iff.1 found
    have fits := sound.batches _ (getElem_mem inside)
    refine ⟨?_, sound.calls, sound.nodup, sound.immediate, sound.requests,
      fun other member => sound.batches other (mem_of_mem_eraseIdx member), ?_⟩
    · have moved := (getElem_cons_eraseIdx_perm inside).flatMap_right
        fun batch => batch.requests.map (·.promise)
      refine List.Perm.trans ?_ sound.once
      simp only [waiting, answerRequests, map_append, List.map_map, append_assoc]
      refine List.Perm.append_left _ ?_
      rw [← append_assoc]
      exact List.Perm.append_right _ moved
    · intro answered member
      rcases mem_append.1 member with old | new
      · exact sound.answered answered old
      · simp only [answerRequests, List.map_map, mem_map] at new
        obtain ⟨request, asked, rfl⟩ := new
        exact answered_right fits read asked

/-- **Batched reads**: in every run each call resolves exactly once, out of the first flush after
it, and what it resolves with is what was read then exactly if it does not ask for `__proto__`. A
flush is due as long as calls wait for one. -/
theorem run_sound (events : List Event) (final : Batching)
    (ran : Runs.run step {} events = some final) : final.Sound :=
  Runs.run_induction (fun _ _ _ sound _ stepped => sound.step stepped)
    ⟨by simp [waiting, initial], rfl, nodup_nil, fun none => absurd rfl none, by simp [initial],
      by simp, by simp⟩
    (Runs.along_of_forall (fun _ _ => trivial) _) ran

theorem run_sound_read : ∃ final, Runs.run step {} [.multiGet [[107]] false, .runImmediate,
    .read 0 [([107], none)], .answer 0] = some final ∧ final.Sound :=
  ⟨_, rfl, run_sound [.multiGet [[107]] false, .runImmediate, .read 0 [([107], none)], .answer 0] _
    rfl⟩

theorem run_proto : ∃ final, Runs.run step {} [.store protoKey (some [118]),
      .multiGet [protoKey] false, .runImmediate, .read 0 [(protoKey, some [118])], .answer 0] =
        some final ∧
      final.answered.map (·.settlement) = [.resolved [(protoKey, .inherited protoKey)]] ∧
      final.stored protoKey = some [118] :=
  ⟨_, rfl, rfl, rfl⟩

end Batching

end AsyncStorage

end ReactNative

