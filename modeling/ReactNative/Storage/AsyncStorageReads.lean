import ReactNative.Storage.AsyncStorage

/-! `getItem` takes what is in front of the answer, if it is truthy, and rejects if there are
errors. `multiGet` takes what the answer says last of the key and never rejects. -/
namespace ReactNative

open List AsyncStorageModule

/-! ### The object -/

namespace PlainObject

/-- The values that the object takes for a key: for `__proto__` those after the first null, which
takes the prototype away. -/
def takenValues (key : JSString) (entries : List (JSString × Option JSString)) :
    List (Option JSString) :=
  let values := (entries.filter (·.1 = key)).map Prod.snd
  if key = protoKey then (values.dropWhile Option.isSome).tail else values

def putAll (object : PlainObject) (entries : List (JSString × Option JSString)) : PlainObject :=
  entries.foldl (fun object entry => object.put entry.1 entry.2) object

variable {object : PlainObject} {key : JSString} {entries : List (JSString × Option JSString)}

theorem own_put_of_ne {putKey : JSString} (value : Option JSString) (differs : putKey ≠ key) :
    (object.put putKey value).own key = object.own key := by
  unfold put
  split
  · split <;> rfl
  · exact Function.update_of_ne differs.symm _ _

theorem own_putAll (free : key ≠ protoKey ∨ object.hasPrototype = false) :
    (object.putAll entries).own key =
      (((entries.filter (·.1 = key)).map Prod.snd).getLast?).or (object.own key) := by
  induction entries generalizing object with
  | nil => rfl
  | cons entry rest ih =>
    obtain ⟨putKey, value⟩ := entry
    have stillFree : key ≠ protoKey ∨ (object.put putKey value).hasPrototype = false := by
      refine free.imp_right fun without => ?_
      simp [put, without]
    refine (ih stillFree).trans ?_
    by_cases same : putKey = key
    · subst same
      have passes : ¬ (putKey = protoKey ∧ object.hasPrototype = true) := by
        rintro ⟨isProto, withPrototype⟩
        simp [isProto, withPrototype] at free
      have taken : (object.put putKey value).own putKey = some value := by
        unfold put
        rw [if_neg passes]
        exact Function.update_self _ _ _
      rw [taken]
      simp only [decide_true, filter_cons_of_pos, map_cons, getLast?_cons]
      cases ((rest.filter (·.1 = putKey)).map Prod.snd).getLast? <;> rfl
    · rw [own_put_of_ne value same]
      simp [same]

theorem own_proto_putAll (withPrototype : object.hasPrototype = true)
    (missing : object.own protoKey = none) :
    (object.putAll entries).own protoKey = (takenValues protoKey entries).getLast? := by
  induction entries generalizing object with
  | nil => exact missing
  | cons entry _ ih =>
    obtain ⟨putKey, value⟩ := entry
    rw [putAll, foldl_cons]
    by_cases same : putKey = protoKey
    · subst same
      cases value with
      | none =>
        have gone : (object.put protoKey none).hasPrototype = false := by
          simp [put, withPrototype]
        refine (own_putAll (.inr gone)).trans ?_
        simp [put, withPrototype, missing, takenValues]
      | some value =>
        have ignored : object.put protoKey (some value) = object := by simp [put, withPrototype]
        rw [ignored]
        refine (ih withPrototype missing).trans ?_
        simp [takenValues]
    · have kept : (object.put putKey value).hasPrototype = true := by
        simp [put, same, withPrototype]
      refine (ih kept ((own_put_of_ne value same).trans missing)).trans ?_
      simp [takenValues, same]

theorem get_eq_iff (value : Option JSString) :
    object.get key = .ofStored value ↔ object.own key = some value := by
  unfold get
  cases object.own key with
  | none => cases value <;> (dsimp only; split <;> simp [ReadValue.ofStored])
  | some taken => cases value <;> cases taken <;> simp [ReadValue.ofStored]

end PlainObject

namespace AsyncStorage

variable {key : JSString} {answer : NativeAnswer}

theorem own_fill (result : Option (List (JSString × Option JSString))) (key : JSString) :
    (fill result).own key = (PlainObject.takenValues key (result.getD [])).getLast? := by
  by_cases isProto : key = protoKey
  · subst isProto
    exact PlainObject.own_proto_putAll rfl rfl
  · refine (PlainObject.own_putAll (.inl isProto)).trans ?_
    simp [PlainObject.takenValues, isProto]

/-! ### The settlements -/

theorem multiGetSettlement_eq (self : AsyncStorage) (keys : List JSString) (hasCallback : Bool)
    (answer : NativeAnswer) :
    self.multiGetSettlement keys hasCallback answer =
      some (.resolved (keys.map fun key => (key, (fill answer.result).get key))) := by
  have earlier : (answerRequests self.getRequests answer).lookup self.promises = none := by
    rw [lookup_eq_none_iff]
    intro settled member
    obtain ⟨request, waiting, rfl⟩ := mem_map.mp member
    have smaller := self.fresh request waiting
    simpa using Nat.ne_of_gt smaller
  have requests : answerRequests (self.multiGet keys hasCallback).runImmediate.requests answer =
      answerRequests self.getRequests answer ++
        answerRequests [⟨keys, hasCallback, self.getKeys.length, self.promises⟩] answer :=
    map_append
  rw [multiGetSettlement, requests, lookup_append, earlier]
  simp [answerRequests]

/-- The two ways of reading settle alike: both reject, or both resolve with the same value. -/
def SettleAlike (key : JSString) (item : Settlement ReadValue) :
    Option (Settlement (List (JSString × ReadValue))) → Prop
  | some (.rejected _) => ∃ reason, item = .rejected reason
  | some (.resolved pairs) => ∃ value, item = .resolved value ∧ pairs = [(key, value)]
  | none => False

/-- What is in front of the answer, with null for an empty string, is what the answer says last of
the key. -/
def FirstIsLast (key : JSString) (result : Option (List (JSString × Option JSString))) : Prop :=
  ∃ entry rest, result = some (entry :: rest) ∧
    (PlainObject.takenValues key (entry :: rest)).getLast? = some (entry.2.filter (· ≠ []))

theorem unpack_cons (entry : JSString × Option JSString) (rest : List (JSString × Option JSString)) :
    unpack (some (entry :: rest)) = .ofStored (entry.2.filter (· ≠ [])) := by
  obtain ⟨-, value⟩ := entry
  cases value with
  | none => rfl
  | some value => by_cases empty : value = [] <;> simp [unpack, empty, ReadValue.ofStored, Option.filter]

theorem firstIsLast_iff (key : JSString) (result : Option (List (JSString × Option JSString))) :
    FirstIsLast key result ↔ (fill result).get key = unpack result := by
  have own := own_fill result key
  have read := @PlainObject.get_eq_iff (fill result) key
  match result with
  | none | some [] =>
    refine iff_of_false ?_ ?_
    · rintro ⟨entry, rest, same, -⟩
      cases same
    · intro same
      have taken := (read none).mp same
      rw [own] at taken
      simp [PlainObject.takenValues] at taken
  | some (entry :: rest) =>
    rw [unpack_cons, read, own]
    constructor
    · rintro ⟨_, _, ⟨⟩, last⟩
      exact last
    · intro last
      exact ⟨entry, rest, rfl, last⟩

theorem settleAlike_iff (self : AsyncStorage) (key : JSString) (hasCallback : Bool)
    (answer : NativeAnswer) :
    SettleAlike key (getItem answer).settlement
        (self.multiGetSettlement [key] hasCallback answer) ↔
      answer.errors = .null ∧ FirstIsLast key answer.result := by
  rw [multiGetSettlement_eq, firstIsLast_iff]
  obtain ⟨errors, result⟩ := answer
  cases errors with
  | null =>
    simp only [SettleAlike, getItem, convertErrors, map_cons, map_nil, List.cons.injEq,
      Prod.mk.injEq, true_and, and_true, Settlement.resolved.injEq]
    exact ⟨fun ⟨_, same, read⟩ => read.trans same.symm, fun same => ⟨_, rfl, same⟩⟩
  | single => simp [SettleAlike, getItem, convertErrors]
  | list errors => simp [SettleAlike, getItem, convertErrors]

/-! ### A value that was set -/

def androidAnswer (describe : AsyncStorageError → KeyedError) : StorageAnswer → NativeAnswer
  | .failure error => ⟨.single (describe error), none⟩
  | .success data => ⟨.null, some data⟩

def iosErrors (describe : StorageError → KeyedError) (errors : List StorageError) : NativeErrors :=
  if errors = [] then .null else .list (errors.map fun error => some (describe error))

def iosAnswer {FileName : Type} (describe : StorageError → KeyedError)
    (read : AsyncLocalStorage FileName × List (NSString × Option NSString) × List StorageError) :
    NativeAnswer :=
  ⟨iosErrors describe read.2.2, some read.2.1⟩

/-- The answers to a read of the key right after `setItem` has succeeded. -/
inductive AnswersAfterSet (key value : JSString) : NativeAnswer → Prop
  | android (describe : AsyncStorageError → KeyedError) (faults readFaults : DatabaseFaults)
      (table : CatalystTable) (set read : StorageAnswer)
      (called : set ∈ (multiSet faults [.ofPair (key, value)] table).callbacks)
      (succeeded : (setItem (androidAnswer describe set).errors).settlement = .resolved ())
      (answered : read ∈ (AsyncStorageModule.multiGet readFaults (some [.string key])
        (multiSet faults [.ofPair (key, value)] table).table).callbacks) :
      AnswersAfterSet key value (androidAnswer describe read)
  | ios {FileName : Type} [DecidableEq FileName] (md5Hash : JSString → FileName)
      (describe : StorageError → KeyedError) (faults readFaults : ManifestFaults)
      (storage : AsyncLocalStorage FileName) (writeFails readFails : Bool)
      (succeeded : (setItem (iosErrors describe
        (storage.multiSet md5Hash [⟨key, value, writeFails⟩] faults).2)).settlement =
          .resolved ()) :
      AnswersAfterSet key value (iosAnswer describe
        ((storage.multiSet md5Hash [⟨key, value, writeFails⟩] faults).1.multiGet md5Hash
          [⟨key, readFails⟩] readFaults))

theorem setItem_resolved_iff {errors : NativeErrors} :
    (setItem errors).settlement = .resolved () ↔ errors = .null := by
  cases errors <;> simp [setItem, convertErrors]

end AsyncStorage

variable {faults : DatabaseFaults} {table : CatalystTable}
  {data : List (JavaString × Option JavaString)}

theorem AsyncStorageModule.multiSet_succeeds {pair : JavaString × JavaString}
    (called : .success data ∈ (multiSet faults [.ofPair pair] table).callbacks) :
    (multiSet faults [.ofPair pair] table).table = table.setItem pair.1 pair.2 := by
  have loop : forEntries (setPair faults) 0 [.ofPair pair] table =
      if faults.statementThrows 0 then .error .throws else .ok (table.setItem pair.1 pair.2) := by
    simp only [forEntries, ReadableEntry.ofPair, checkEntry, getString, setPair]
    cases faults.statementThrows 0 <;> rfl
  simp only [multiSet, ensureDatabase, inTransaction, loop] at called ⊢
  split_ifs at called ⊢ <;> simp_all

theorem AsyncStorageModule.multiGet_succeeds {key value : JavaString}
    (stored : table.getItem key = some value)
    (called : .success data ∈ (multiGet faults (some [.string key]) table).callbacks) :
    ∃ rest, data = (key, some value) :: rest := by
  simp only [multiGet, ensureDatabase] at called
  split_ifs at called
  · simp at called
  · simp at called
  · split at called
    · next callbacks ends => rcases getSlices_callbacks ends with rfl | rfl <;> simp at called
    · next read ends =>
      have isRead : data = read := by simpa using called
      subst isRead
      have isPair : ∀ pair, pair ∈ data ↔ pair = (key, some value) := by
        intro pair
        rw [mem_getSlices ends, mem_keySlice_iff, mem_singleton, ReadableItem.string.injEq]
        constructor
        · rintro ⟨same, read⟩
          exact Prod.ext same (read.trans (same ▸ stored))
        · rintro rfl
          exact ⟨rfl, stored.symm⟩
      cases data with
      | nil => exact absurd ((isPair _).mpr rfl) not_mem_nil
      | cons first rest => exact ⟨rest, by rw [(isPair first).mp mem_cons_self]⟩

namespace AsyncLocalStorage

variable {FileName : Type} [DecidableEq FileName] {md5Hash : NSString → FileName}
  {storage : AsyncLocalStorage FileName}

structure Recalls (storage : AsyncLocalStorage FileName) (key value : NSString) : Prop where
  created : storage.hasCreatedStorageDirectory = true
  haveSetup : storage.haveSetup = true
  value : storage.manifest.lookup key = some (.inlined value) ∨
    storage.manifest.lookup key = some .null ∧ storage.cache.lookup key = some value

omit [DecidableEq FileName] in
theorem ensureSetup_flags (storage : AsyncLocalStorage FileName) (faults : ManifestFaults) :
    (storage.ensureSetup faults).hasCreatedStorageDirectory = true ∧
      (storage.ensureSetup faults).haveSetup = true := by
  unfold ensureSetup
  dsimp only
  split <;> split <;> simp_all

theorem writeFile_same {name : FileName} {content : NSString} {fails : Bool}
    {written : AsyncLocalStorage FileName} (writes : storage.writeFile name content fails = some written) :
    ∃ directory, written = { storage with directory } := by
  unfold writeFile at writes
  split at writes
  · cases writes
  · split at writes
    · cases writes
    · exact ⟨_, (Option.some.inj writes).symm⟩

theorem writeEntry_recalls {entry : EntryWrite}
    (created : storage.hasCreatedStorageDirectory = true) (haveSetup : storage.haveSetup = true)
    (succeeded : (storage.writeEntry md5Hash entry).2.2 = none) :
    Recalls (storage.writeEntry md5Hash entry).1 entry.key entry.value := by
  unfold writeEntry at succeeded ⊢
  by_cases empty : entry.key.length < 1
  · simp [empty] at succeeded
  rw [if_neg empty] at succeeded ⊢
  by_cases short : entry.value.length ≤ inlineValueThreshold
  · have flags : (storage.removeOldFile md5Hash entry.key).hasCreatedStorageDirectory = true ∧
        (storage.removeOldFile md5Hash entry.key).haveSetup = true := by
      unfold removeOldFile
      split <;> exact ⟨created, haveSetup⟩
    rw [if_pos short]
    exact ⟨flags.1, flags.2, .inl (Finmap.lookup_insert _)⟩
  · rw [if_neg short] at succeeded ⊢
    cases writes : storage.writeFile (md5Hash entry.key) entry.value entry.writeFails with
    | none =>
      rw [writes] at succeeded
      cases succeeded
    | some =>
      obtain ⟨-, rfl⟩ := writeFile_same writes
      dsimp only
      split
      · next null => exact ⟨created, haveSetup, .inr ⟨null, Finmap.lookup_insert _⟩⟩
      · exact ⟨created, haveSetup, .inr ⟨Finmap.lookup_insert _, Finmap.lookup_insert _⟩⟩

omit [DecidableEq FileName] in
theorem no_errors_before {changed : Bool} {faults : ManifestFaults}
    {result : AsyncLocalStorage FileName × List StorageError}
    (noErrors : (writeManifestIfChanged changed faults result).2 = []) : result.2 = [] := by
  cases changed with
  | false => exact noErrors
  | true => exact (append_eq_nil_iff.mp noErrors).1

variable {key value : NSString}

omit [DecidableEq FileName] in
theorem Recalls.writeManifestIfChanged (recalls : storage.Recalls key value) (changed : Bool)
    (faults : ManifestFaults) (errors : List StorageError) :
    (writeManifestIfChanged changed faults (storage, errors)).1.Recalls key value := by
  cases changed with
  | false => exact recalls
  | true =>
    simp only [AsyncLocalStorage.writeManifestIfChanged, writeManifest, if_true]
    split
    · exact recalls
    · split
      · exact recalls
      · exact ⟨recalls.created, recalls.haveSetup, recalls.value⟩

theorem multiSet_recalls {writeFails : Bool} {faults : ManifestFaults}
    (succeeded : (storage.multiSet md5Hash [⟨key, value, writeFails⟩] faults).2 = []) :
    Recalls (storage.multiSet md5Hash [⟨key, value, writeFails⟩] faults).1 key value := by
  obtain ⟨created, haveSetup⟩ := ensureSetup_flags storage faults
  have single : storage.multiSet md5Hash [⟨key, value, writeFails⟩] faults =
      let written := (storage.ensureSetup faults).writeEntry md5Hash ⟨key, value, writeFails⟩
      AsyncLocalStorage.writeManifestIfChanged written.2.1 faults (written.1, written.2.2.toList) := by
    simp [multiSet, forEntries]
  have noError : ((storage.ensureSetup faults).writeEntry md5Hash ⟨key, value, writeFails⟩).2.2 =
      none := by
    rw [single] at succeeded
    simpa using no_errors_before succeeded
  exact (writeEntry_recalls created haveSetup noError).writeManifestIfChanged _ _ _

theorem Recalls.multiGet (recalls : storage.Recalls key value) (md5Hash : NSString → FileName)
    (readFails : Bool) (faults : ManifestFaults) :
    (storage.multiGet md5Hash [⟨key, readFails⟩] faults).2 = ([(key, some value)], []) := by
  have ready : storage.ensureSetup faults = storage := by
    simp [ensureSetup, recalls.created, recalls.haveSetup]
  have found : storage.getValueForKey md5Hash key readFails = (storage, some value, none) := by
    obtain inlined | ⟨null, cached⟩ := recalls.value
    · simp [getValueForKey, inlined]
    · simp [getValueForKey, null, cached]
  simp [AsyncLocalStorage.multiGet, ready, getValues, found]

end AsyncLocalStorage

namespace AsyncStorage

variable {key : JSString} {answer : NativeAnswer}

theorem AnswersAfterSet.result {value : JSString} (after : AnswersAfterSet key value answer)
    (noErrors : answer.errors = .null) :
    ∃ rest, answer.result = some ((key, some value) :: rest) := by
  cases after with
  | android describe faults readFaults table set read called succeeded answered =>
    cases set with
    | failure error => cases setItem_resolved_iff.mp succeeded
    | success data =>
      cases read with
      | failure error => cases noErrors
      | success data =>
        have stored : (table.setItem key value).getItem key = some value := by
          rw [getItem_setItem]
          exact Function.update_self _ _ _
        rw [multiSet_succeeds called] at answered
        obtain ⟨rest, rfl⟩ := multiGet_succeeds stored answered
        exact ⟨rest, rfl⟩
  | ios md5Hash describe faults readFaults storage writeFails readFails succeeded =>
    have noError := setItem_resolved_iff.mp succeeded
    have quiet : (storage.multiSet md5Hash [⟨key, value, writeFails⟩] faults).2 = [] := by
      unfold iosErrors at noError
      split at noError
      · assumption
      · cases noError
    have read := (AsyncLocalStorage.multiSet_recalls quiet).multiGet md5Hash readFails readFaults
    exact ⟨[], by rw [iosAnswer, read]⟩

/-- **The two ways to read a key settle alike exactly if there are no errors and the first entry is
what the answer says last of the key**, null counting for an empty string. A string that was set is
read by `getItem` exactly if it is not empty and native reports no error. -/
theorem reads_agree_iff (self : AsyncStorage) (key : JSString) (hasCallback : Bool)
    (answer : NativeAnswer) :
    (SettleAlike key (getItem answer).settlement
          (self.multiGetSettlement [key] hasCallback answer) ↔
        answer.errors = .null ∧ FirstIsLast key answer.result) ∧
      ∀ value : JSString, AnswersAfterSet key value answer →
        ((getItem answer).settlement = .resolved (.string value) ↔
          answer.errors = .null ∧ value ≠ []) := by
  refine ⟨settleAlike_iff self key hasCallback answer, fun value after => ?_⟩
  cases errors : answer.errors with
  | null =>
    obtain ⟨rest, result⟩ := after.result errors
    rw [getItem, errors, result, unpack_cons]
    by_cases empty : value = [] <;>
      simp [convertErrors, empty, Option.filter, ReadValue.ofStored]
  | single error => simp [getItem, errors, convertErrors]
  | list errs => simp [getItem, errors, convertErrors]

def answerForK (value : JSString) : NativeAnswer := ⟨.null, some [([107], some value)]⟩

theorem answerForK_afterSet (value : JSString) : AnswersAfterSet [107] value (answerForK value) := by
  have starts : keyStarts 1 0 = [0] := by
    rw [keyStarts, keyStarts]
    rfl
  refine .android (fun _ => ⟨"", none⟩) {} {} ⟨[], nodup_nil⟩ (.success [])
    (.success [([107], some value)]) mem_cons_self rfl ?_
  rw [AsyncStorageModule.multiGet, length_singleton, starts]
  exact mem_cons_self

theorem reads_agree_k : SettleAlike [107] (getItem (answerForK [118])).settlement
        (initial.multiGetSettlement [[107]] false (answerForK [118])) ∧
      (getItem (answerForK [118])).settlement = .resolved (.string [118]) :=
  have agree := reads_agree_iff initial [107] false (answerForK [118])
  ⟨agree.1.mpr ⟨rfl, _, _, rfl, rfl⟩,
    (agree.2 [118] (answerForK_afterSet [118])).mpr ⟨rfl, by decide⟩⟩

theorem emptyString_differs : AnswersAfterSet [107] [] (answerForK []) ∧
      ¬ SettleAlike [107] (getItem (answerForK [])).settlement
        (initial.multiGetSettlement [[107]] false (answerForK [])) ∧
      (getItem (answerForK [])).settlement ≠ .resolved (.string []) := by
  refine ⟨answerForK_afterSet [], ?_, ?_⟩
  · rw [settleAlike_iff]
    rintro ⟨-, entry, rest, ⟨⟩, last⟩
    cases last
  · nofun

end AsyncStorage

end ReactNative

