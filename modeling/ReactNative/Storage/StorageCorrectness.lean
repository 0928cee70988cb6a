import ReactNative.Storage.StoredValues

/-! Without faults the storage refines a map from keys to values, whatever is evicted from the cache
and however often the manifest is read again (`run_refines`). -/
namespace ReactNative

open Runs List

namespace StorageCall

def changedKeys : StorageCall → List NSString
  | .multiSet kvPairs _ => kvPairs.map EntryWrite.key
  | .multiMerge kvPairs _ => kvPairs.map EntryMerge.key
  | .multiRemove keys _ => keys
  | .multiGet _ _ | .getAllKeys _ | .clear | .evict _ | .invalidate | .restart => []

def FaultFree : StorageCall → Prop
  | .multiGet keys faults => faults.readFails = false ∧ ∀ keyRead ∈ keys, keyRead.readFails = false
  | .multiSet kvPairs faults => faults.readFails = false ∧ faults.writeFails = false ∧
      ∀ entry ∈ kvPairs, entry.writeFails = false
  | .multiMerge kvPairs faults => faults.readFails = false ∧ faults.writeFails = false ∧
      ∀ entry ∈ kvPairs, entry.readFails = false ∧ entry.writeFails = false
  | .multiRemove _ faults => faults.readFails = false ∧ faults.writeFails = false
  | .getAllKeys faults => faults.readFails = false
  | .clear | .evict _ | .invalidate | .restart => True

/-- Calls that only read, and what may happen between them. -/
def IsRead : StorageCall → Prop
  | .multiGet _ _ | .getAllKeys _ | .evict _ | .invalidate | .restart => True
  | .multiSet _ _ | .multiMerge _ _ | .multiRemove _ _ | .clear => False

end StorageCall

namespace AsyncLocalStorage

variable {FileName : Type} [DecidableEq FileName] (md5Hash : NSString → FileName)
  (mergeJSON : NSString → NSString → Option NSString)

def specCall (store : Store) : StorageCall → Store
  | .multiSet kvPairs _ =>
    kvPairs.foldl (fun store entry => Function.update store entry.key (some entry.value)) store
  | .multiMerge kvPairs _ => kvPairs.foldl (mergeInto mergeJSON) store
  | .multiRemove keys _ => keys.foldl (fun store key => Function.update store key none) store
  | .clear => fun _ => none
  | .multiGet _ _ | .getAllKeys _ | .evict _ | .invalidate | .restart => store

variable (storage : AsyncLocalStorage FileName)

/-- No manifest is unreadable or cannot be written, no value file is unreadable that has to be
read, and a value file that cannot be written is one of a key that has no file and no other
entry. -/
def Kept : StorageCall → Prop
  | .multiGet keys faults => faults.readFails = false ∧ ∀ keyRead ∈ keys, keyRead.readFails = true →
        ¬ (storage.ensureSetup faults).readsFile keyRead.key
  | .multiSet kvPairs faults => faults.readFails = false ∧ faults.writeFails = false ∧
      writeShape.ToleratesAll (storage.ensureSetup faults) kvPairs
  | .multiMerge kvPairs faults => faults.readFails = false ∧ faults.writeFails = false ∧
      mergeShape.ToleratesAll (storage.ensureSetup faults) kvPairs
  | .multiRemove _ faults => faults.readFails = false ∧ faults.writeFails = false
  | .getAllKeys faults => faults.readFails = false
  | .clear | .evict _ | .invalidate | .restart => True

/-- What a `multiGet` of the key alone returns if nothing fails. -/
def readBack (key : NSString) : Option NSString :=
  ((storage.ensureSetup {}).getValueForKey md5Hash key false).2.1

section

variable {md5Hash mergeJSON} {used : Set NSString} {storage : AsyncLocalStorage FileName}
  {store : Store}

/-! ### Calls -/

theorem Stores.initial (used : Set NSString) :
    Stores md5Hash used ({} : AsyncLocalStorage FileName) fun _ => none where
  created isCreated := by cases isCreated
  loaded isSetup := by cases isSetup
  represents := {
    missing := fun _ _ => rfl
    inlined := nofun
    inFile := nofun
    cached := nofun
    used := fun _ some => absurd rfl some }

section

variable (stores : Stores md5Hash used storage store)
include stores

theorem Stores.multiGet {keys : List KeyRead} {faults : ManifestFaults}
    (kept : storage.Kept (.multiGet keys faults)) :
    ∃ after, storage.multiGet md5Hash keys faults =
        (after, keys.map fun keyRead => (keyRead.key, store keyRead.key), []) ∧
      Stores md5Hash used after store := by
  obtain ⟨after, isValues, inCall⟩ := (stores.ensureSetup kept.1).getValues kept.2
  refine ⟨after, isValues, fun _ => inCall.directory, fun _ => (inCall.unchanged rfl).symm, ?_⟩
  rw [inCall.unchanged rfl]
  exact inCall.represents

theorem Stores.readBack (key : NSString) : storage.readBack md5Hash key = store key := by
  have inCall : InCall md5Hash used false (storage.ensureSetup {}) store := stores.ensureSetup rfl
  have readable : false = true → ¬ (storage.ensureSetup {}).readsFile key := nofun
  obtain ⟨_, isValue, -⟩ := inCall.getValueForKey readable
  rw [AsyncLocalStorage.readBack, isValue]

theorem Stores.getAllKeys {faults : ManifestFaults} (readable : faults.readFails = false)
    (key : NSString) : key ∈ (storage.getAllKeys faults).2 ↔ store key ≠ none := by
  have represents := (stores.ensureSetup readable).represents
  change key ∈ (storage.ensureSetup faults).manifest.keys ↔ _
  rw [Finmap.mem_keys, Finmap.mem_iff]
  constructor
  · rintro ⟨value, present⟩
    cases value with
    | inlined value =>
      rw [represents.inlined key value present]
      exact Option.some_ne_none value
    | null =>
      obtain ⟨value, -, stored⟩ := represents.inFile key present
      rw [stored]
      exact Option.some_ne_none value
  · intro stored
    by_contra missing
    refine stored (represents.missing key ?_)
    by_contra present
    exact missing (Option.ne_none_iff_exists'.mp present)

end

theorem Stores.clear (_ : Stores md5Hash used storage store) :
    Stores md5Hash used storage.clear.1 fun _ => none where
  created isCreated := by cases isCreated
  loaded _ := rfl
  represents := {
    missing := fun _ _ => rfl
    inlined := nofun
    inFile := nofun
    cached := nofun
    used := fun _ some => absurd rfl some }

section

variable (stores : Stores md5Hash used storage store)
include stores

theorem Stores.evict (evicted : NSString) :
    Stores md5Hash used { storage with cache := storage.cache.erase evicted } store where
  created := stores.created
  loaded := stores.loaded
  represents := {
    missing := stores.represents.missing
    inlined := stores.represents.inlined
    inFile := stores.represents.inFile
    cached := by
      intro key value null isCached
      by_cases same : key = evicted
      · subst same
        rw [Finmap.lookup_erase] at isCached
        cases isCached
      · rw [Finmap.lookup_erase_ne same] at isCached
        exact stores.represents.cached key value null isCached
    used := stores.represents.used }

theorem Stores.invalidate :
    Stores md5Hash used storage.invalidate store where
  created := stores.created
  loaded isSetup := by cases isSetup
  represents := {
    missing := stores.represents.missing
    inlined := stores.represents.inlined
    inFile := stores.represents.inFile
    cached := stores.represents.cached
    used := stores.represents.used }

theorem Stores.restart :
    Stores md5Hash used storage.restart store where
  created isCreated := by cases isCreated
  loaded isSetup := by cases isSetup
  represents := {
    missing := stores.represents.missing
    inlined := stores.represents.inlined
    inFile := stores.represents.inFile
    cached := nofun
    used := stores.represents.used }

end

theorem Stores.forEntries {Entry : Type} {shape : EntryShape Entry}
    {act : AsyncLocalStorage FileName → Entry →
      AsyncLocalStorage FileName × Bool × Option StorageError}
    {change : Store → Entry → Store} {entries : List Entry} {faults : ManifestFaults}
    (stores : Stores md5Hash used storage store) (readable : faults.readFails = false)
    (writable : faults.writeFails = false)
    (spec : ∀ entry ∈ entries, EntrySpec md5Hash used shape act change entry)
    (only : ∀ store, ∀ entry ∈ entries, ∀ other ≠ shape.key entry,
      change store entry other = store other)
    (tolerates : shape.ToleratesAll (storage.ensureSetup faults) entries) :
    ∃ after changes errors manifestWritten,
      AsyncLocalStorage.forEntries act entries (storage.ensureSetup faults) =
        (after, changes, errors) ∧
      writeManifestIfChanged changes faults (after, errors) = (manifestWritten, errors) ∧
      Stores md5Hash used manifestWritten (entries.foldl change store) ∧
      Unharmed (entries.map shape.key) errors store (entries.foldl change store) := by
  obtain ⟨after, changes, errors, loops, inCall, unharmed⟩ :=
    (stores.ensureSetup readable).forEntries spec only tolerates
  obtain ⟨manifestWritten, writes, storesAfter⟩ := inCall.writeManifestIfChanged writable errors
  exact ⟨after, changes, errors, manifestWritten, loops, writes, storesAfter, unharmed⟩

variable (mergeJSON) in
/-- **A call whose faults do no harm changes the map as it should**, and leaves the keys alone
that it reports errors for. -/
theorem Stores.perform (stores : Stores md5Hash used storage store)
    (injective : Set.InjOn md5Hash used) (nonempty : [] ∉ used) {call : StorageCall}
    (uses : ∀ key ∈ call.changedKeys, key ≠ [] → key ∈ used) (kept : storage.Kept call) :
    Stores md5Hash used (storage.perform md5Hash mergeJSON call).1
        (applyCall mergeJSON store call) ∧
      Unharmed call.changedKeys (storage.perform md5Hash mergeJSON call).2 store
        (applyCall mergeJSON store call) := by
  have noErrors : ∀ keys after, Unharmed keys [] store after := nofun
  -- One case for each call; the three that change entries run the same loop.
  cases call with
  | multiGet keys faults =>
    obtain ⟨after, isValues, storesAfter⟩ := stores.multiGet kept
    rw [AsyncLocalStorage.perform, isValues]
    exact ⟨storesAfter, noErrors _ _⟩
  | multiSet kvPairs faults =>
    obtain ⟨readable, writable, tolerates⟩ := kept
    obtain ⟨after, changes, errors, written, loops, writes, storesAfter, unharmed⟩ :=
      stores.forEntries readable writable
        (fun entry member => writeEntry_spec injective (uses _ (mem_map_of_mem member)))
        (fun store entry _ _ differs => setEntry_of_ne store entry differs) tolerates
    rw [AsyncLocalStorage.perform, AsyncLocalStorage.multiSet, loops]
    dsimp only
    rw [writes]
    exact ⟨storesAfter, unharmed⟩
  | multiMerge kvPairs faults =>
    obtain ⟨readable, writable, tolerates⟩ := kept
    obtain ⟨after, changes, errors, written, loops, writes, storesAfter, unharmed⟩ :=
      stores.forEntries readable writable
        (fun entry member => mergeEntry_spec mergeJSON injective
          (uses _ (mem_map_of_mem member)))
        (fun store entry _ _ differs => mergeInto_of_ne mergeJSON store entry differs) tolerates
    rw [AsyncLocalStorage.perform, AsyncLocalStorage.multiMerge, loops]
    dsimp only
    rw [writes]
    exact ⟨storesAfter, unharmed⟩
  | multiRemove keys faults =>
    have tolerates : removeShape.ToleratesAll (storage.ensureSetup faults) keys :=
      fun _ _ => ⟨⟨False.elim, False.elim⟩, False.elim⟩
    obtain ⟨after, changes, errors, written, loops, writes, storesAfter, unharmed⟩ :=
      stores.forEntries kept.1 kept.2 (fun key _ => removeEntry_spec injective nonempty key)
        (fun store key _ _ differs => Function.update_of_ne differs _ _) tolerates
    rw [AsyncLocalStorage.perform, AsyncLocalStorage.multiRemove, loops]
    dsimp only
    rw [writes]
    rw [show keys.map removeShape.key = keys from map_id keys] at unharmed
    exact ⟨storesAfter, unharmed⟩
  | getAllKeys faults =>
    have inCall := stores.ensureSetup kept
    refine ⟨⟨fun _ => inCall.directory, fun _ => (inCall.unchanged rfl).symm, ?_⟩, noErrors _ _⟩
    have represents := inCall.represents
    rw [← inCall.unchanged rfl] at represents
    exact represents
  | clear =>
    refine ⟨stores.clear, ?_⟩
    intro reported member key isKey
    change reported ∈ (if storage.directory.isNone then [.deleteStorageDirectory] else []) at member
    split at member
    · rw [mem_singleton] at member
      rw [member] at isKey
      cases isKey
    · exact absurd member not_mem_nil
  | evict evicted => exact ⟨stores.evict evicted, noErrors _ _⟩
  | invalidate => exact ⟨stores.invalidate, noErrors _ _⟩
  | restart => exact ⟨stores.restart, noErrors _ _⟩

/-! ### Runs -/

/-- The keys that the calls change, as far as they can be stored. -/
def Uses (used : Set NSString) (call : StorageCall) : Prop :=
  ∀ key ∈ call.changedKeys, key ≠ [] → key ∈ used

theorem Uses.sdiff {call : StorageCall} (uses : Uses used call) : Uses (used \ {[]}) call :=
  fun key member differs => ⟨uses key member differs, differs⟩

theorem not_mem_sdiff_empty : [] ∉ used \ {[]} := fun empty => empty.2 rfl

theorem Stores.run (injective : Set.InjOn md5Hash used) (nonempty : [] ∉ used)
    {calls : List StorageCall} {final : AsyncLocalStorage FileName}
    (stores : Stores md5Hash used storage store) (uses : ∀ call ∈ calls, Uses used call)
    (along : Along (step md5Hash mergeJSON) Kept storage calls)
    (ran : Runs.run (step md5Hash mergeJSON) storage calls = some final) :
    Stores md5Hash used final (calls.foldl (applyCall mergeJSON) store) := by
  induction calls generalizing storage store with
  | nil =>
    cases ran
    exact stores
  | cons call _ ih =>
    obtain ⟨_, stepped, ranRest⟩ := run_cons.mp ran
    obtain ⟨kept, alongRest⟩ := along
    have performed := stores.perform mergeJSON injective nonempty (uses call mem_cons_self) kept
    cases stepped
    exact ih performed.1
      (fun later member => uses later (mem_cons_of_mem _ member)) (alongRest _ rfl) ranRest

omit [DecidableEq FileName] in
theorem kept_of_faultFree {call : StorageCall} (faultFree : call.FaultFree)
    (storage : AsyncLocalStorage FileName) : storage.Kept call := by
  cases call with
  | multiGet keys faults =>
    refine ⟨faultFree.1, fun keyRead member fails => ?_⟩
    cases (faultFree.2 keyRead member).symm.trans fails
  | multiSet kvPairs faults =>
    refine ⟨faultFree.1, faultFree.2.1, fun entry member => ?_⟩
    have writes : ¬ writeShape.writeFails entry := by
      rintro ⟨-, fails⟩
      cases (faultFree.2.2 entry member).symm.trans fails
    exact ⟨⟨False.elim, fun fails => absurd fails writes⟩, fun fails => absurd fails writes⟩
  | multiMerge kvPairs faults =>
    refine ⟨faultFree.1, faultFree.2.1, fun entry member => ?_⟩
    obtain ⟨reads, writes⟩ := faultFree.2.2 entry member
    have writable : ¬ mergeShape.writeFails entry := fun fails => by cases writes.symm.trans fails
    have readable : ¬ mergeShape.readFails entry := fun fails => by cases reads.symm.trans fails
    exact ⟨⟨fun fails => absurd fails readable, fun fails => absurd fails writable⟩,
      fun fails => absurd fails writable⟩
  | multiRemove keys faults => exact faultFree
  | getAllKeys faults => exact faultFree
  | clear => trivial
  | evict evicted => trivial
  | invalidate => trivial
  | restart => trivial

theorem along_kept {calls : List StorageCall} (faultFree : ∀ call ∈ calls, call.FaultFree)
    (storage : AsyncLocalStorage FileName) : Along (step md5Hash mergeJSON) Kept storage calls := by
  induction calls generalizing storage with
  | nil => trivial
  | cons call _ ih =>
    refine ⟨kept_of_faultFree (faultFree call mem_cons_self) storage, fun next _ => ?_⟩
    exact ih (fun later member => faultFree later (mem_cons_of_mem _ member)) next

theorem applyCall_eq_specCall {call : StorageCall} (faultFree : call.FaultFree)
    (keys : ∀ key ∈ call.changedKeys, key ≠ []) (store : Store) :
    applyCall mergeJSON store call = specCall mergeJSON store call := by
  cases call with
  | multiSet =>
    have writes := faultFree.2.2
    apply foldl_ext
    intro store entry member
    apply setEntry_of_not_fails
    rintro (empty | ⟨-, fails⟩)
    · exact keys entry.key (mem_map_of_mem member) empty
    · cases (writes entry member).symm.trans fails
  | multiGet | multiMerge | multiRemove | getAllKeys | clear | evict | invalidate | restart => rfl

/-- **Without faults the storage refines a map.** After every sequence of calls, evictions and
reloads of the manifest, `multiGet` returns what the map has for each key, and `getAllKeys` the
keys that have a value in it. -/
theorem run_refines {calls : List StorageCall} {final : AsyncLocalStorage FileName}
    (injective : Set.InjOn md5Hash used)
    (changes : ∀ call ∈ calls, ∀ key ∈ call.changedKeys, key ≠ [] ∧ key ∈ used)
    (faultFree : ∀ call ∈ calls, call.FaultFree)
    (ran : Runs.run (step md5Hash mergeJSON) {} calls = some final) :
    (∀ keys : List NSString, (final.multiGet md5Hash (keys.map fun key => { key }) {}).2 =
      (keys.map fun key => (key, calls.foldl (specCall mergeJSON) (fun _ => none) key), [])) ∧
    ∀ key, key ∈ (final.getAllKeys {}).2 ↔
      calls.foldl (specCall mergeJSON) (fun _ => none) key ≠ none := by
  have uses : ∀ call ∈ calls, Uses used call :=
    fun call member key isKey _ => (changes call member key isKey).2
  have stores := Stores.run (injective.mono Set.sdiff_subset) not_mem_sdiff_empty (Stores.initial _)
    (fun call member => (uses call member).sdiff) (along_kept faultFree {}) ran
  have same : calls.foldl (applyCall mergeJSON) (fun _ => none) =
      calls.foldl (specCall mergeJSON) (fun _ => none) := by
    apply foldl_ext
    intro store call member
    exact applyCall_eq_specCall (faultFree call member)
      (fun key isKey => (changes call member key isKey).1) store
  rw [same] at stores
  constructor
  · intro keys
    have kept : final.Kept (.multiGet (keys.map fun key => { key }) {}) := by
      apply kept_of_faultFree
      refine ⟨rfl, fun keyRead member => ?_⟩
      obtain ⟨key, -, rfl⟩ := mem_map.mp member
      rfl
    obtain ⟨after, isValues, -⟩ := stores.multiGet kept
    rw [isValues, List.map_map]
    rfl
  · exact fun key => stores.getAllKeys rfl key

def md5OfA : NSString → String := fun _ => "0cc175b9c0f1b6a831c399e269772661"

def longValue (unit : UInt16) : NSString := replicate 1025 unit

theorem run_refines_evicted : ∃ final, Runs.run (step md5OfA fun _ _ => none) {}
      [.multiSet [⟨[97], [98], false⟩] {}, .multiSet [⟨[97], longValue 99, false⟩] {},
        .evict [97], .restart] = some final ∧
    (final.multiGet md5OfA [{ key := [97] }] {}).2 = ([([97], some (longValue 99))], []) ∧
    [97] ∈ (final.getAllKeys {}).2 := by
  obtain ⟨final, ran⟩ : ∃ final, Runs.run (step md5OfA fun _ _ => none) {}
      [.multiSet [⟨[97], [98], false⟩] {}, .multiSet [⟨[97], longValue 99, false⟩] {},
        .evict [97], .restart] = some final := ⟨_, rfl⟩
  obtain ⟨values, keys⟩ := run_refines (Set.injOn_singleton _ [97])
    (by simp [StorageCall.changedKeys]) (by simp [StorageCall.FaultFree]) ran
  exact ⟨final, ran, values [[97]], (keys [97]).mpr (Option.some_ne_none (longValue 99))⟩

theorem applyCall_of_isRead {call : StorageCall} (isRead : call.IsRead) (store : Store) :
    applyCall mergeJSON store call = store := by
  cases call with
  | multiGet | getAllKeys | evict | invalidate | restart => rfl
  | multiSet | multiMerge | multiRemove | clear => exact isRead.elim

theorem foldl_of_isRead {reads : List StorageCall} (isReads : ∀ read ∈ reads, read.IsRead)
    (store : Store) : reads.foldl (applyCall mergeJSON) store = store := by
  induction reads with
  | nil => rfl
  | cons read _ ih =>
    rw [foldl_cons, applyCall_of_isRead (isReads read mem_cons_self)]
    exact ih fun later member => isReads later (mem_cons_of_mem _ member)

theorem uses_of_isRead {call : StorageCall} (isRead : call.IsRead) : Uses used call := by
  cases call with
  | multiGet | getAllKeys | evict | invalidate | restart =>
    exact fun key member => absurd member not_mem_nil
  | multiSet | multiMerge | multiRemove | clear => exact isRead.elim

/-- **A key that a call reports an error for keeps its value**, in every later sequence of reads
without faults, provided that the faults until then are ones that do no harm and that the call has
no second entry for the key. -/
theorem run_unharmed {calls reads : List StorageCall} {call : StorageCall}
    {before final : AsyncLocalStorage FileName} {reported : StorageError} {key : NSString}
    (injective : Set.InjOn md5Hash used) (uses : ∀ call ∈ calls, Uses used call)
    (usesHere : Uses used call) (along : Along (step md5Hash mergeJSON) Kept {} calls)
    (ran : Runs.run (step md5Hash mergeJSON) {} calls = some before) (kept : before.Kept call)
    (reports : reported ∈ (before.perform md5Hash mergeJSON call).2)
    (about : reported.key = some key) (once : call.changedKeys.count key = 1)
    (isReads : ∀ read ∈ reads, read.IsRead ∧ read.FaultFree)
    (ranReads : Runs.run (step md5Hash mergeJSON) (before.perform md5Hash mergeJSON call).1 reads =
      some final) : final.readBack md5Hash key = before.readBack md5Hash key := by
  have injectiveStored : Set.InjOn md5Hash (used \ {[]}) := injective.mono Set.sdiff_subset
  have storesBefore := Stores.run injectiveStored not_mem_sdiff_empty (Stores.initial _)
    (fun call member => (uses call member).sdiff) along ran
  obtain ⟨storesAfter, unharmed⟩ :=
    storesBefore.perform mergeJSON injectiveStored not_mem_sdiff_empty usesHere.sdiff kept
  have storesFinal := Stores.run injectiveStored not_mem_sdiff_empty storesAfter
    (fun read member => uses_of_isRead (isReads read member).1)
    (along_kept (fun read member => (isReads read member).2) _) ranReads
  rw [foldl_of_isRead fun read member => (isReads read member).1] at storesFinal
  rw [storesFinal.readBack, storesBefore.readBack]
  exact (unharmed reported reports key about).2 once

theorem run_unharmed_unwritten : ∃ final, Runs.run (step md5OfA fun _ _ => none) {}
      [.multiSet [⟨[97], longValue 99, true⟩] {}, .getAllKeys {}, .restart] = some final ∧
    final.readBack md5OfA [97] = none := by
  refine ⟨_, rfl, ?_⟩
  have kept : Kept ({} : AsyncLocalStorage String)
      (.multiSet [⟨[97], longValue 99, true⟩] {}) := by
    refine ⟨rfl, rfl, fun entry member => ?_⟩
    rw [mem_singleton] at member
    subst member
    exact ⟨⟨False.elim, fun _ => by decide +kernel⟩, fun _ => rfl⟩
  have uses : Uses {[97]} (.multiSet [⟨[97], longValue 99, true⟩] {}) := by
    simp [Uses, StorageCall.changedKeys]
  have reports : StorageError.writeValue [97] ∈ (perform md5OfA (fun _ _ => none) {}
      (.multiSet [⟨[97], longValue 99, true⟩] {})).2 := by decide +kernel
  have reads : ∀ read ∈ [StorageCall.getAllKeys {}, .restart], read.IsRead ∧ read.FaultFree := by
    simp [StorageCall.IsRead, StorageCall.FaultFree]
  exact run_unharmed (Set.injOn_singleton _ [97])
    (fun _ none => absurd none not_mem_nil) uses trivial rfl kept reports rfl rfl reads rfl

theorem faults_not_unharmed : (∃ before, Runs.run (step md5OfA fun _ _ => none) {}
        [.multiSet [⟨[97], longValue 99, false⟩] {}, .evict [97]] = some before ∧
      .readStorageFile [97] ∈ (perform md5OfA (fun _ _ => none) before
        (.multiGet [⟨[97], true⟩] {})).2 ∧
      before.readBack md5OfA [97] = some (longValue 99) ∧
      (perform md5OfA (fun _ _ => none) before (.multiGet [⟨[97], true⟩] {})).1.readBack
        md5OfA [97] = none) ∧
    ∃ before, Runs.run (step md5OfA fun _ _ => none) {}
        [.multiSet [⟨[97], longValue 99, false⟩] {}] = some before ∧
      .writeValue [97] ∈ (perform md5OfA (fun _ _ => none) before
        (.multiSet [⟨[97], longValue 98, true⟩] {})).2 ∧
      before.readBack md5OfA [97] = some (longValue 99) ∧
      (perform md5OfA (fun _ _ => none) before (.multiSet [⟨[97], longValue 98, true⟩] {})).1.readBack
        md5OfA [97] = some (longValue 98) := by
  constructor
  · exact ⟨_, rfl, by decide +kernel⟩
  · exact ⟨_, rfl, by decide +kernel⟩

end

end AsyncLocalStorage

end ReactNative

