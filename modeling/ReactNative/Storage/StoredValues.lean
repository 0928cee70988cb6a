import ReactNative.Storage.AsyncLocalStorage

/-! The abstract view of the storage is a map from keys to values. -/
namespace ReactNative

open List Option Function

namespace AsyncLocalStorage

abbrev Store := NSString → Option NSString

variable {FileName : Type} [DecidableEq FileName] (md5Hash : NSString → FileName)
  (mergeJSON : NSString → NSString → Option NSString)

variable (storage : AsyncLocalStorage FileName)

def file (name : FileName) : Option NSString :=
  storage.directory.bind fun directory => directory.files.lookup name

def savedManifest : Manifest := (storage.directory.bind StorageDirectory.manifest).getD ∅

variable (used : Set NSString)

structure Represents (manifest : Manifest)
    (storage : AsyncLocalStorage FileName) (store : Store) : Prop where
  missing : ∀ key, manifest.lookup key = none → store key = none
  inlined : ∀ key value, manifest.lookup key = some (.inlined value) → store key = some value
  inFile : ∀ key, manifest.lookup key = some .null →
    ∃ value, storage.file (md5Hash key) = some value ∧ store key = some value
  cached : ∀ key value, manifest.lookup key = some .null → storage.cache.lookup key = some value →
    store key = some value
  used : ∀ key, manifest.lookup key ≠ none → key ∈ used

structure Stores (storage : AsyncLocalStorage FileName) (store : Store) : Prop where
  created : storage.hasCreatedStorageDirectory = true → storage.directory ≠ none
  loaded : storage.haveSetup = true → storage.manifest = storage.savedManifest
  represents : Represents md5Hash used storage.savedManifest storage store

/-- In the middle of a call: the instance is set up and stands for the map, and the manifest on
disk is as it was unless the flag says that the one in memory was changed. -/
structure InCall (changedManifest : Bool)
    (storage : AsyncLocalStorage FileName) (store : Store) : Prop where
  setup : storage.haveSetup = true
  directory : storage.directory ≠ none
  unchanged : changedManifest = false → storage.savedManifest = storage.manifest
  represents : Represents md5Hash used storage.manifest storage store

/-! ### The map -/

/-- The entry is refused, or its file cannot be written. -/
def EntryWrite.fails (entry : EntryWrite) : Prop :=
  entry.key = [] ∨ inlineValueThreshold < entry.value.length ∧ entry.writeFails = true

instance (entry : EntryWrite) : Decidable (EntryWrite.fails entry) :=
  inferInstanceAs (Decidable (_ ∨ _ ∧ _))

variable (store : Store)

def setEntry (entry : EntryWrite) : Store :=
  if EntryWrite.fails entry then store else Function.update store entry.key (some entry.value)

theorem setEntry_of_fails {entry : EntryWrite} (fails : EntryWrite.fails entry) :
    setEntry store entry = store := if_pos fails

theorem setEntry_of_not_fails {entry : EntryWrite} (stored : ¬ EntryWrite.fails entry) :
    setEntry store entry = Function.update store entry.key (some entry.value) := if_neg stored

def mergedEntry (entry : EntryMerge) : Option EntryWrite :=
  match store entry.key with
  | none => some ⟨entry.key, entry.value, entry.writeFails⟩
  | some value => (mergeJSON value entry.value).map fun merged =>
      ⟨entry.key, merged, entry.writeFails⟩

def mergeInto (entry : EntryMerge) : Store :=
  match mergedEntry mergeJSON store entry with
  | none => store
  | some entry => setEntry store entry

def removeKey (key : NSString) : Store := Function.update store key none

def applyCall : StorageCall → Store
  | .multiSet kvPairs _ => kvPairs.foldl setEntry store
  | .multiMerge kvPairs _ => kvPairs.foldl (mergeInto mergeJSON) store
  | .multiRemove keys _ => keys.foldl removeKey store
  | .clear => fun _ => none
  | .multiGet _ _ | .getAllKeys _ | .evict _ | .invalidate | .restart => store

/-! ### Files -/

@[simp] theorem readFile_false (name : FileName) :
    storage.readFile name false = .ok (storage.file name) := by
  unfold readFile file
  split
  next none => rw [none]
  next content found =>
    rw [found]
    rfl

theorem file_removeFile_of_ne {name other : FileName}
    (differs : other ≠ name) : (storage.removeFile name).file other = storage.file other := by
  unfold file removeFile
  cases storage.directory with
  | none => rfl
  | some directory => exact Finmap.lookup_erase_ne differs

theorem writeFile_eq {storage : AsyncLocalStorage FileName} {directory : StorageDirectory FileName}
    (there : storage.directory = some directory) (name : FileName) (content : NSString) :
    storage.writeFile name content false =
      some { storage with
        directory := some { directory with files := directory.files.insert name content } } := by
  simp [writeFile, there]

theorem writeFile_true (name : FileName) (content : NSString) :
    storage.writeFile name content true = none := by
  unfold writeFile
  split <;> rfl

/-! ### One key at a time -/

section

variable {md5Hash} {used : Set NSString} {storage changed : AsyncLocalStorage FileName}
  {store : Store} {manifest next : Manifest} {key : NSString}

/-- What one key stands for in a manifest: nothing, a value that is inlined, or one that is in a
file and, if it is cached, in the cache. -/
inductive StandsFor (md5Hash : NSString → FileName) (storage : AsyncLocalStorage FileName)
    (key : NSString) : Option ManifestValue → Option NSString → Prop
  | missing : StandsFor md5Hash storage key none none
  | inlined (value : NSString) : StandsFor md5Hash storage key (some (.inlined value)) (some value)
  | inFile (value : NSString) (written : storage.file (md5Hash key) = some value)
      (cached : ∀ other, storage.cache.lookup key = some other → other = value) :
      StandsFor md5Hash storage key (some .null) (some value)

section

variable (represents : Represents md5Hash used manifest storage store)
include represents

theorem Represents.update {value : Option NSString}
    (others : ∀ other ≠ key, next.lookup other = manifest.lookup other)
    (files : ∀ other ≠ key, manifest.lookup other = some .null →
      changed.file (md5Hash other) = storage.file (md5Hash other))
    (cache : ∀ other ≠ key, changed.cache.lookup other = storage.cache.lookup other)
    (here : StandsFor md5Hash changed key (next.lookup key) value) (isUsed : key ∈ used) :
    Represents md5Hash used next changed (Function.update store key value) := by
  -- The fields in the order of `Represents`: at the key the new value, elsewhere the old one.
  refine ⟨?_, ?_, ?_, ?_, ?_⟩
  · intro other none
    by_cases same : other = key
    · subst same
      rw [none] at here
      cases here
      rw [update_self]
    · rw [update_of_ne same]
      exact represents.missing other (others other same ▸ none)
  · intro other otherValue inlined
    by_cases same : other = key
    · subst same
      rw [inlined] at here
      cases here
      rw [update_self]
    · rw [update_of_ne same]
      exact represents.inlined other otherValue (others other same ▸ inlined)
  · intro other null
    by_cases same : other = key
    · subst same
      rw [null] at here
      cases here with
      | inFile fileValue written cached => exact ⟨fileValue, written, update_self _ _ _⟩
    · rw [others other same] at null
      rw [update_of_ne same, files other same null]
      exact represents.inFile other null
  · intro other otherValue null isCached
    by_cases same : other = key
    · subst same
      rw [null] at here
      cases here with
      | inFile fileValue written cached =>
        rw [update_self, cached otherValue isCached]
    · rw [others other same] at null
      rw [cache other same] at isCached
      rw [update_of_ne same]
      exact represents.cached other otherValue null isCached
  · intro other some
    by_cases same : other = key
    · subst same
      exact isUsed
    · rw [others other same] at some
      exact represents.used other some

theorem Represents.hash_ne (injective : Set.InjOn md5Hash used) (isUsed : key ∈ used)
    {other : NSString} (differs : other ≠ key) (null : manifest.lookup other = some .null) :
    md5Hash other ≠ md5Hash key := by
  intro collides
  have otherUsed : other ∈ used := represents.used other (by rw [null]; simp)
  exact differs (injective otherUsed isUsed collides)

theorem Represents.cacheElsewhere (files : changed.directory = storage.directory)
    (cache : ∀ other ≠ key, changed.cache.lookup other = storage.cache.lookup other)
    (elsewhere : manifest.lookup key ≠ some .null) :
    Represents md5Hash used manifest changed store := by
  have sameFiles : ∀ name, changed.file name = storage.file name := by
    intro name
    unfold file
    rw [files]
  refine ⟨represents.missing, represents.inlined, ?_, ?_, represents.used⟩
  · intro other null
    rw [sameFiles]
    exact represents.inFile other null
  · intro other value null isCached
    have differs : other ≠ key := by
      rintro rfl
      exact elsewhere null
    rw [cache other differs] at isCached
    exact represents.cached other value null isCached

end

/-! ### The parts of a call -/

theorem Stores.ensureSetup (stores : Stores md5Hash used storage store) {faults : ManifestFaults}
    (readable : faults.readFails = false) :
    InCall md5Hash used false (storage.ensureSetup faults) store := by
  obtain ⟨created, loaded, represents⟩ := stores
  -- A directory that was just created is empty, as the missing one was.
  have sameManifest : ((some (storage.directory.getD {})).bind StorageDirectory.manifest).getD ∅ =
      storage.savedManifest := by
    unfold savedManifest
    cases storage.directory <;> rfl
  have sameFile : ∀ name, ((some (storage.directory.getD {})).bind fun directory =>
      directory.files.lookup name) = storage.file name := by
    intro name
    unfold file
    cases storage.directory with
    | none => exact Finmap.lookup_empty name
    | some directory => rfl
  have kept : Represents md5Hash used storage.savedManifest
      { storage with directory := some (storage.directory.getD {}) } store := by
    refine ⟨represents.missing, represents.inlined, ?_, represents.cached, represents.used⟩
    intro other null
    obtain ⟨value, written, stored⟩ := represents.inFile other null
    exact ⟨value, (sameFile (md5Hash other)).trans written, stored⟩
  unfold AsyncLocalStorage.ensureSetup
  dsimp only
  -- Either way the manifest is loaded once, and then not read again.
  by_cases isCreated : storage.hasCreatedStorageDirectory = true
  · rw [if_pos isCreated]
    split
    next isSetup =>
      exact ⟨isSetup, created isCreated, fun _ => (loaded isSetup).symm, by
        rw [loaded isSetup]
        exact represents⟩
    next =>
      rw [readable, if_neg Bool.false_ne_true]
      exact ⟨rfl, created isCreated, fun _ => rfl,
        ⟨represents.missing, represents.inlined, represents.inFile, represents.cached,
          represents.used⟩⟩
  · rw [if_neg isCreated]
    split
    next isSetup =>
      refine ⟨isSetup, some_ne_none _, fun _ => ?_, ?_⟩
      · exact sameManifest.trans (loaded isSetup).symm
      · rw [loaded isSetup]
        exact ⟨kept.missing, kept.inlined, kept.inFile, kept.cached, kept.used⟩
    next =>
      rw [readable, if_neg Bool.false_ne_true, sameManifest]
      exact ⟨rfl, some_ne_none _, fun _ => sameManifest,
        ⟨kept.missing, kept.inlined, kept.inFile, kept.cached, kept.used⟩⟩

def readsFile (storage : AsyncLocalStorage FileName) (key : NSString) : Prop :=
  storage.manifest.lookup key = some .null ∧ storage.cache.lookup key = none

variable {changedManifest : Bool}

/-- **A read returns what is stored**, unless it needs a file that cannot be read. The manifest
stays, and the cache only grows. -/
theorem InCall.getValueForKey
    (inCall : InCall md5Hash used changedManifest storage store) {readFails : Bool}
    (readable : readFails = true → ¬ storage.readsFile key) :
    ∃ after, storage.getValueForKey md5Hash key readFails = (after, store key, none) ∧
      InCall md5Hash used changedManifest after store ∧ after.manifest = storage.manifest ∧
      ∀ other, storage.cache.lookup other ≠ none → after.cache.lookup other ≠ none := by
  have represents := inCall.represents
  unfold AsyncLocalStorage.getValueForKey
  -- One case for each kind of entry: only a null one without a cached value reads its file.
  split
  next missing =>
    rw [represents.missing key missing]
    exact ⟨storage, rfl, inCall, rfl, fun _ => id⟩
  next value inlined =>
    rw [represents.inlined key value inlined]
    exact ⟨storage, rfl, inCall, rfl, fun _ => id⟩
  next null =>
    split
    next value cached =>
      rw [represents.cached key value null cached]
      exact ⟨storage, rfl, inCall, rfl, fun _ => id⟩
    next uncached =>
      have reads : readFails = false := by
        by_contra fails
        rw [Bool.not_eq_false] at fails
        exact readable fails ⟨null, uncached⟩
      obtain ⟨value, written, stored⟩ := represents.inFile key null
      rw [reads, readFile_false, written, stored]
      refine ⟨_, rfl, ⟨inCall.setup, inCall.directory, inCall.unchanged, ?_⟩, rfl, ?_⟩
      -- The value read is cached, and is the one that the file has.
      · refine ⟨represents.missing, represents.inlined, represents.inFile, ?_, represents.used⟩
        intro other otherValue isNull isCached
        by_cases same : other = key
        · subst same
          rw [Finmap.lookup_insert] at isCached
          cases isCached
          exact stored
        · rw [Finmap.lookup_insert_of_ne _ same] at isCached
          exact represents.cached other otherValue isNull isCached
      · intro other present
        by_cases same : other = key
        · subst same
          simp
        · rw [Finmap.lookup_insert_of_ne _ same]
          exact present

/-- What a write leaves alone: the other keys in the manifest, and which keys can be read
without their file. -/
structure WritesOnly (key : NSString) (storage after : AsyncLocalStorage FileName) : Prop where
  manifest : ∀ other ≠ key, after.manifest.lookup other = storage.manifest.lookup other
  reads : ∀ other, ¬ storage.readsFile other → ¬ after.readsFile other

omit [DecidableEq FileName] in
theorem WritesOnly.of_cached {after : AsyncLocalStorage FileName}
    (manifest : ∀ other ≠ key, after.manifest.lookup other = storage.manifest.lookup other)
    (cache : ∀ other ≠ key, after.cache.lookup other = storage.cache.lookup other)
    (cached : ¬ after.readsFile key) : WritesOnly key storage after := by
  refine ⟨manifest, ?_⟩
  rintro other readable ⟨null, uncached⟩
  by_cases same : other = key
  · subst same
    exact cached ⟨null, uncached⟩
  · rw [manifest other same] at null
    rw [cache other same] at uncached
    exact readable ⟨null, uncached⟩

section

variable (inCall : InCall md5Hash used changedManifest storage store)
include inCall

section

variable (injective : Set.InjOn md5Hash used) (isUsed : key ∈ used)
include injective isUsed

theorem InCall.removeOldFile {removed : AsyncLocalStorage FileName}
    (isRemoved : storage.removeOldFile md5Hash key = removed) :
    removed.manifest = storage.manifest ∧ removed.haveSetup = true ∧ removed.directory ≠ none ∧
      (∀ other ≠ key, storage.manifest.lookup other = some .null →
        removed.file (md5Hash other) = storage.file (md5Hash other)) ∧
      ∀ other ≠ key, removed.cache.lookup other = storage.cache.lookup other := by
  subst isRemoved
  unfold AsyncLocalStorage.removeOldFile
  split
  · refine ⟨rfl, inCall.setup, ?_, ?_, ?_⟩
    · simpa [removeFile] using inCall.directory
    · intro other differs null
      exact file_removeFile_of_ne storage (inCall.represents.hash_ne injective isUsed differs null)
    · intro other differs
      exact Finmap.lookup_erase_ne differs
  · exact ⟨rfl, inCall.setup, inCall.directory, fun _ _ _ => rfl, fun _ _ => rfl⟩

theorem InCall.replaced (value : Option NSString) {removed : AsyncLocalStorage FileName}
    (isRemoved : storage.removeOldFile md5Hash key = removed)
    (others : ∀ other ≠ key, next.lookup other = removed.manifest.lookup other)
    (here : next.lookup key = value.map .inlined) :
    InCall md5Hash used true { removed with manifest := next } (Function.update store key value) ∧
      WritesOnly key storage { removed with manifest := next } := by
  obtain ⟨sameManifest, setup, directory, files, cache⟩ :=
    inCall.removeOldFile injective isUsed isRemoved
  rw [sameManifest] at others
  constructor
  · refine ⟨setup, directory, nofun, ?_⟩
    refine inCall.represents.update others files cache ?_ isUsed
    rw [here]
    cases value with
    | none => exact .missing
    | some value => exact .inlined value
  · refine .of_cached others cache ?_
    rintro ⟨null, -⟩
    rw [here] at null
    cases value <;> cases null

theorem InCall.written (value : NSString) {directory : StorageDirectory FileName}
    (there : storage.directory = some directory) {after : AsyncLocalStorage FileName}
    (changes : Bool) (isAfter : after = { storage with
      directory := some { directory with files := directory.files.insert (md5Hash key) value }
      cache := storage.cache.insert key value
      manifest := next }) (null : next.lookup key = some .null)
    (others : ∀ other ≠ key, next.lookup other = storage.manifest.lookup other)
    (unchanged : changes = false → next = storage.manifest) :
    InCall md5Hash used (changedManifest || changes) after (Function.update store key (some value)) ∧
      WritesOnly key storage after := by
  have represents := inCall.represents
  subst isAfter
  -- The file has the value, and no other key has a file of this name.
  have written : ((some { directory with files := directory.files.insert (md5Hash key) value }).bind
      fun directory => directory.files.lookup (md5Hash key)) = some value :=
    Finmap.lookup_insert directory.files
  constructor
  · refine ⟨inCall.setup, some_ne_none _, ?_, ?_⟩
    · intro same
      rw [Bool.or_eq_false_iff] at same
      have saved := inCall.unchanged same.1
      unfold savedManifest at saved ⊢
      rw [there] at saved
      rw [unchanged same.2, ← saved]
      rfl
    · refine represents.update others ?_ ?_ ?_ isUsed
      · intro other differs isNull
        have otherName := represents.hash_ne injective isUsed differs isNull
        unfold file
        rw [there]
        exact Finmap.lookup_insert_of_ne _ otherName
      · intro other differs
        exact Finmap.lookup_insert_of_ne _ differs
      · rw [null]
        refine .inFile value written ?_
        intro other isCached
        rw [Finmap.lookup_insert] at isCached
        exact (some.inj isCached).symm
  -- The cached value is never read from the file again.
  · refine .of_cached others (fun other differs => Finmap.lookup_insert_of_ne _ differs) ?_
    rintro ⟨-, uncached⟩
    rw [Finmap.lookup_insert] at uncached
    cases uncached

end

/-- **One entry.** It is stored, unless it is refused or its file cannot be written; then an
error names its key. A file that cannot be written is only tolerated for a key that has none. -/
theorem InCall.writeEntry (entry : EntryWrite) (injective : Set.InjOn md5Hash used)
    (uses : entry.key ≠ [] → entry.key ∈ used)
    (tolerated : inlineValueThreshold < entry.value.length → entry.writeFails = true →
      storage.manifest.lookup entry.key ≠ some .null) :
    ∃ after changes error, storage.writeEntry md5Hash entry = (after, changes, error) ∧
      InCall md5Hash used (changedManifest || changes) after (setEntry store entry) ∧
      WritesOnly entry.key storage after ∧
      (error ≠ none → EntryWrite.fails entry) ∧
      ∀ reported ∈ error, reported.key = some entry.key := by
  -- An empty key is refused; a short value goes into the manifest, a long one into a file.
  obtain ⟨directory, there⟩ := ne_none_iff_exists'.mp inCall.directory
  unfold AsyncLocalStorage.writeEntry
  split
  next empty =>
    have noKey : entry.key = [] := length_eq_zero_iff.mp (by omega)
    rw [setEntry_of_fails store (.inl noKey)]
    refine ⟨_, _, _, rfl, ?_, ⟨fun _ _ => rfl, fun _ => id⟩, fun _ => .inl noKey, ?_⟩
    · rw [Bool.or_false]
      exact inCall
    · rintro reported ⟨⟩
      rfl
  next nonempty =>
    have isKey : entry.key ≠ [] := fun none => nonempty (by rw [none]; exact Nat.one_pos)
    have isUsed := uses isKey
    split
    next short =>
      have stored : ¬ EntryWrite.fails entry := by
        rintro (none | ⟨long, -⟩)
        · exact isKey none
        · omega
      rw [setEntry_of_not_fails store stored]
      obtain ⟨after, only⟩ := inCall.replaced injective isUsed (some entry.value) rfl
        (fun _ differs => Finmap.lookup_insert_of_ne _ differs) (Finmap.lookup_insert _)
      refine ⟨_, _, _, rfl, ?_, only, fun some => absurd rfl some, nofun⟩
      rw [Bool.or_true]
      exact after
    next long =>
      rw [Nat.not_le] at long
      -- A file that was not written leaves the manifest as it was.
      cases fails : entry.writeFails with
      | true =>
        have isFailure : EntryWrite.fails entry := .inr ⟨long, fails⟩
        rw [writeFile_true, setEntry_of_fails store isFailure]
        have elsewhere := tolerated long fails
        have cache : ∀ other ≠ entry.key, (storage.cache.insert entry.key entry.value).lookup other =
            storage.cache.lookup other := fun other differs => Finmap.lookup_insert_of_ne _ differs
        refine ⟨_, _, _, rfl, ⟨inCall.setup, inCall.directory, ?_, ?_⟩,
          .of_cached (fun _ _ => rfl) cache ?_, fun _ => isFailure, ?_⟩
        · rw [Bool.or_false]
          exact inCall.unchanged
        · -- The value is cached, but nobody looks for it there.
          exact inCall.represents.cacheElsewhere rfl cache elsewhere
        · rintro ⟨null, -⟩
          exact elsewhere null
        · rintro reported ⟨⟩
          rfl
      | false =>
        have stored : ¬ EntryWrite.fails entry := by
          rintro (none | ⟨-, doesFail⟩)
          · exact isKey none
          · cases fails.symm.trans doesFail
        rw [writeFile_eq there, setEntry_of_not_fails store stored]
        dsimp only
        -- The manifest changes only if the key did not have a file before.
        split
        next null =>
          obtain ⟨after, only⟩ := inCall.written injective isUsed entry.value there false rfl
            null (fun _ _ => rfl) (fun _ => rfl)
          exact ⟨_, _, _, rfl, after, only, fun some => absurd rfl some, nofun⟩
        next =>
          obtain ⟨after, only⟩ := inCall.written injective isUsed entry.value there true rfl
            (Finmap.lookup_insert _) (fun _ differs => Finmap.lookup_insert_of_ne _ differs)
            nofun
          exact ⟨_, _, _, rfl, after, only, fun some => absurd rfl some, nofun⟩

theorem InCall.writeManifestIfChanged {faults : ManifestFaults}
    (writable : faults.writeFails = false) (errors : List StorageError) :
    ∃ after, AsyncLocalStorage.writeManifestIfChanged changedManifest faults (storage, errors) =
        (after, errors) ∧ Stores md5Hash used after store := by
  obtain ⟨directory, there⟩ := ne_none_iff_exists'.mp inCall.directory
  have represents := inCall.represents
  unfold AsyncLocalStorage.writeManifestIfChanged AsyncLocalStorage.writeManifest
  cases changedManifest with
  | false =>
    have saved := inCall.unchanged rfl
    refine ⟨storage, rfl, fun _ => inCall.directory, fun _ => saved.symm, ?_⟩
    rw [saved]
    exact represents
  | true =>
    rw [if_pos rfl, there]
    dsimp only
    rw [writable, if_neg Bool.false_ne_true, append_nil]
    refine ⟨_, rfl, fun _ => some_ne_none _, fun _ => rfl, ?_⟩
    refine ⟨represents.missing, represents.inlined, ?_, represents.cached, represents.used⟩
    intro other null
    obtain ⟨value, written, stored⟩ := represents.inFile other null
    unfold file at written
    rw [there] at written
    exact ⟨value, written, stored⟩

end

/-! ### The loops -/

/-- **The loop of `multiGet`** returns what is stored. -/
theorem InCall.getValues {keys : List KeyRead}
    (inCall : InCall md5Hash used changedManifest storage store)
    (readable : ∀ keyRead ∈ keys, keyRead.readFails = true → ¬ storage.readsFile keyRead.key) :
    ∃ after, AsyncLocalStorage.getValues md5Hash keys storage =
        (after, keys.map fun keyRead => (keyRead.key, store keyRead.key), []) ∧
      InCall md5Hash used changedManifest after store := by
  induction keys generalizing storage with
  | nil => exact ⟨storage, rfl, inCall⟩
  | cons keyRead rest ih =>
    obtain ⟨after, isValue, inCallAfter, manifest, cache⟩ :=
      inCall.getValueForKey (readable keyRead mem_cons_self)
    have stillReadable : ∀ later ∈ rest, later.readFails = true → ¬ after.readsFile later.key := by
      rintro later member fails ⟨null, uncached⟩
      refine readable later (mem_cons_of_mem _ member) fails ⟨manifest ▸ null, ?_⟩
      by_contra present
      exact cache later.key present uncached
    obtain ⟨last, isValues, inCallLast⟩ := ih inCallAfter stillReadable
    refine ⟨last, ?_, inCallLast⟩
    rw [AsyncLocalStorage.getValues, isValue]
    dsimp only
    rw [isValues]
    rfl

/-- What the loop needs to know of an entry. -/
structure EntryShape (Entry : Type) where
  key : Entry → NSString
  readFails : Entry → Prop
  writeFails : Entry → Prop

/-- The entry needs no file that cannot be read, and no file that it replaces cannot be
written. -/
def EntryShape.Tolerates {Entry : Type} (shape : EntryShape Entry)
    (storage : AsyncLocalStorage FileName) (entry : Entry) : Prop :=
  (shape.readFails entry → ¬ storage.readsFile (shape.key entry)) ∧
    (shape.writeFails entry → storage.manifest.lookup (shape.key entry) ≠ some .null)

/-- In addition, no other entry has the key of one whose file cannot be written. -/
def EntryShape.ToleratesAll {Entry : Type} (shape : EntryShape Entry)
    (storage : AsyncLocalStorage FileName) (entries : List Entry) : Prop :=
  ∀ entry ∈ entries, shape.Tolerates storage entry ∧
    (shape.writeFails entry → (entries.map shape.key).count (shape.key entry) = 1)

/-- **What one entry does.** It changes the map at its key, or reports an error for it. -/
def EntrySpec {Entry : Type} (md5Hash : NSString → FileName) (used : Set NSString)
    (shape : EntryShape Entry)
    (act : AsyncLocalStorage FileName → Entry →
      AsyncLocalStorage FileName × Bool × Option StorageError)
    (change : Store → Entry → Store) (entry : Entry) : Prop :=
  ∀ (changedManifest : Bool) (storage : AsyncLocalStorage FileName) (store : Store),
    InCall md5Hash used changedManifest storage store → shape.Tolerates storage entry →
    ∃ after changes error, act storage entry = (after, changes, error) ∧
      InCall md5Hash used (changedManifest || changes) after (change store entry) ∧
      WritesOnly (shape.key entry) storage after ∧
      (error ≠ none → change store entry = store) ∧
      ∀ reported ∈ error, reported.key = some (shape.key entry)

/-- The keys of errors are keys of entries, and a key that has one entry only is unchanged if
there is an error for it. -/
def Unharmed (keys : List NSString) (errors : List StorageError) (before after : Store) : Prop :=
  ∀ reported ∈ errors, ∀ key, reported.key = some key → key ∈ keys ∧
    (keys.count key = 1 → after key = before key)

variable {Entry : Type} {shape : EntryShape Entry} {change : Store → Entry → Store}
  {entries : List Entry}

theorem foldl_of_not_mem (only : ∀ store, ∀ entry ∈ entries, ∀ other ≠ shape.key entry,
      change store entry other = store other) (absent : key ∉ entries.map shape.key)
    (store : Store) : entries.foldl change store key = store key := by
  induction entries generalizing store with
  | nil => rfl
  | cons entry _ ih =>
    rw [map_cons, mem_cons, not_or] at absent
    rw [foldl_cons, ih (fun store later member =>
      only store later (mem_cons_of_mem _ member)) absent.2]
    exact only store entry mem_cons_self key absent.1

theorem InCall.forEntries {act : AsyncLocalStorage FileName → Entry →
      AsyncLocalStorage FileName × Bool × Option StorageError}
    (inCall : InCall md5Hash used changedManifest storage store)
    (spec : ∀ entry ∈ entries, EntrySpec md5Hash used shape act change entry)
    (only : ∀ store, ∀ entry ∈ entries, ∀ other ≠ shape.key entry,
      change store entry other = store other) (tolerates : shape.ToleratesAll storage entries) :
    ∃ after changes errors, AsyncLocalStorage.forEntries act entries storage =
        (after, changes, errors) ∧
      InCall md5Hash used (changedManifest || changes) after (entries.foldl change store) ∧
      Unharmed (entries.map shape.key) errors store (entries.foldl change store) := by
  -- Induction over the entries; what the later ones tolerate survives the first.
  induction entries generalizing storage store changedManifest with
  | nil =>
    refine ⟨storage, false, [], rfl, ?_, nofun⟩
    rw [Bool.or_false]
    exact inCall
  | cons entry rest ih =>
    obtain ⟨after, changes, error, acts, inCallAfter, writes, unchanged, names⟩ :=
      spec entry mem_cons_self changedManifest storage store inCall
        (tolerates entry mem_cons_self).1
    have onlyRest : ∀ store, ∀ later ∈ rest, ∀ other ≠ shape.key later,
        change store later other = store other :=
      fun store later member => only store later (mem_cons_of_mem _ member)
    have toleratesRest : shape.ToleratesAll after rest := by
      intro later member
      obtain ⟨⟨readable, writable⟩, once⟩ := tolerates later (mem_cons_of_mem _ member)
      refine ⟨⟨fun fails => writes.reads _ (readable fails), fun fails => ?_⟩, fun fails => ?_⟩
      · -- An entry whose file cannot be written is the only one for its key.
        have count := once fails
        have member : shape.key later ∈ rest.map shape.key := mem_map_of_mem member
        have differs : shape.key later ≠ shape.key entry := by
          intro same
          rw [map_cons, ← same, count_cons_self] at count
          have := count_pos_iff.mpr member
          omega
        rw [writes.manifest _ differs]
        exact writable fails
      · have count := once fails
        have present : 0 < (rest.map shape.key).count (shape.key later) :=
          count_pos_iff.mpr (mem_map_of_mem member)
        rw [map_cons, count_cons] at count
        omega
    obtain ⟨last, changesLater, errors, loops, inCallLast, unharmed⟩ :=
      ih inCallAfter (fun later member => spec later (mem_cons_of_mem _ member)) onlyRest
        toleratesRest
    refine ⟨last, changes || changesLater, error.toList ++ errors, ?_, ?_, ?_⟩
    · rw [AsyncLocalStorage.forEntries, acts]
      dsimp only
      rw [loops]
    · rw [← Bool.or_assoc]
      exact inCallLast
    · intro reported member key isKey
      rw [map_cons, foldl_cons]
      -- An error is of this entry, and then no later one has its key, or of a later entry.
      rcases mem_append.mp member with here | later
      · have isError : reported ∈ error := by simpa using here
        have same : key = shape.key entry := some.inj (isKey.symm.trans (names reported isError))
        subst same
        refine ⟨mem_cons_self, fun once => ?_⟩
        have absent : shape.key entry ∉ rest.map shape.key := by
          intro again
          have := count_pos_iff.mpr again
          rw [count_cons_self] at once
          omega
        rw [foldl_of_not_mem onlyRest absent, unchanged (ne_none_iff_exists'.mpr ⟨reported, isError⟩)]
      · obtain ⟨present, same⟩ := unharmed reported later key isKey
        refine ⟨mem_cons_of_mem _ present, fun once => ?_⟩
        have := count_pos_iff.mpr present
        have differs : key ≠ shape.key entry := by
          rintro rfl
          rw [count_cons_self] at once
          omega
        rw [count_cons_of_ne (Ne.symm differs)] at once
        rw [same once]
        exact only store entry mem_cons_self key differs

/-! ### The entries -/

def writeShape : EntryShape EntryWrite where
  key := EntryWrite.key
  readFails _ := False
  writeFails entry := inlineValueThreshold < entry.value.length ∧ entry.writeFails = true

def mergeShape : EntryShape EntryMerge where
  key := EntryMerge.key
  readFails entry := entry.readFails = true
  writeFails entry := entry.writeFails = true

def removeShape : EntryShape NSString where
  key := id
  readFails _ := False
  writeFails _ := False

theorem setEntry_of_ne (store : Store) (entry : EntryWrite) {other : NSString}
    (differs : other ≠ entry.key) : setEntry store entry other = store other := by
  unfold setEntry
  split
  · rfl
  · exact update_of_ne differs _ _

variable {entry : EntryMerge}

theorem mergeInto_of_missing {store : Store} (missing : store entry.key = none) :
    mergeInto mergeJSON store entry = setEntry store ⟨entry.key, entry.value, entry.writeFails⟩ := by
  simp [mergeInto, mergedEntry, missing]

theorem mergeInto_of_merged {store : Store} {value merged : NSString}
    (stored : store entry.key = some value) (merges : mergeJSON value entry.value = some merged) :
    mergeInto mergeJSON store entry = setEntry store ⟨entry.key, merged, entry.writeFails⟩ := by
  simp [mergeInto, mergedEntry, stored, merges]

theorem mergeInto_of_not_json {store : Store} {value : NSString}
    (stored : store entry.key = some value) (fails : mergeJSON value entry.value = none) :
    mergeInto mergeJSON store entry = store := by
  simp [mergeInto, mergedEntry, stored, fails]

theorem mergeInto_of_ne (store : Store) (entry : EntryMerge) {other : NSString}
    (differs : other ≠ entry.key) : mergeInto mergeJSON store entry other = store other := by
  cases stored : store entry.key with
  | none =>
    rw [mergeInto_of_missing mergeJSON stored]
    exact setEntry_of_ne store _ differs
  | some value =>
    cases merges : mergeJSON value entry.value with
    | none => rw [mergeInto_of_not_json mergeJSON stored merges]
    | some =>
      rw [mergeInto_of_merged mergeJSON stored merges]
      exact setEntry_of_ne store _ differs

theorem writeEntry_spec (injective : Set.InjOn md5Hash used) {entry : EntryWrite}
    (uses : entry.key ≠ [] → entry.key ∈ used) :
    EntrySpec md5Hash used writeShape (writeEntry md5Hash) setEntry entry := by
  intro changedManifest storage store inCall tolerates
  obtain ⟨after, changes, error, writes, inCallAfter, only, fails, names⟩ :=
    inCall.writeEntry entry injective uses fun long fails => tolerates.2 ⟨long, fails⟩
  exact ⟨after, changes, error, writes, inCallAfter, only,
    fun some => setEntry_of_fails store (fails some), names⟩

theorem mergeEntry_spec (injective : Set.InjOn md5Hash used)
    (uses : entry.key ≠ [] → entry.key ∈ used) :
    EntrySpec md5Hash used mergeShape (mergeEntry md5Hash mergeJSON) (mergeInto mergeJSON) entry := by
  intro changedManifest storage store inCall tolerates
  obtain ⟨readable, writable⟩ : (entry.readFails = true → ¬ storage.readsFile entry.key) ∧
    (entry.writeFails = true → storage.manifest.lookup entry.key ≠ some .null) := tolerates
  obtain ⟨read, isValue, inCallRead, manifest, cache⟩ := inCall.getValueForKey readable
  have reads : ∀ other, ¬ storage.readsFile other → ¬ read.readsFile other := by
    rintro other readable ⟨null, uncached⟩
    refine readable ⟨manifest ▸ null, ?_⟩
    by_contra present
    exact cache other present uncached
  -- What the write of an entry with this key does, after the read.
  have write : ∀ value, ∃ after changes error,
      read.writeEntry md5Hash ⟨entry.key, value, entry.writeFails⟩ = (after, changes, error) ∧
      InCall md5Hash used (changedManifest || changes) after
        (setEntry store ⟨entry.key, value, entry.writeFails⟩) ∧
      WritesOnly entry.key storage after ∧
      (error ≠ none → setEntry store ⟨entry.key, value, entry.writeFails⟩ = store) ∧
      ∀ reported ∈ error, reported.key = some entry.key := by
    intro value
    have tolerated : inlineValueThreshold < value.length → entry.writeFails = true →
        read.manifest.lookup entry.key ≠ some .null := fun _ fails => manifest ▸ writable fails
    obtain ⟨after, changes, error, writes, inCallAfter, only, fails, names⟩ :=
      inCallRead.writeEntry ⟨entry.key, value, entry.writeFails⟩ injective uses tolerated
    refine ⟨after, changes, error, writes, inCallAfter, ⟨?_, ?_⟩,
      fun some => setEntry_of_fails store (fails some), names⟩
    · intro other differs
      rw [only.manifest other differs, manifest]
    · exact fun other readable => only.reads other (reads other readable)
  cases stored : store entry.key with
  | none =>
    rw [stored] at isValue
    rw [mergeEntry, isValue, mergeInto_of_missing mergeJSON stored]
    exact write entry.value
  | some value =>
    rw [stored] at isValue
    rw [mergeEntry, isValue]
    dsimp only
    cases merges : mergeJSON value entry.value with
    | none =>
      rw [mergeInto_of_not_json mergeJSON stored merges]
      refine ⟨read, false, _, rfl, ?_, ⟨fun _ _ => by rw [manifest], reads⟩, fun _ => rfl, ?_⟩
      · rw [Bool.or_false]
        exact inCallRead
      · rintro reported ⟨⟩
        rfl
    | some merged =>
      rw [mergeInto_of_merged mergeJSON stored merges]
      exact write merged

theorem removeEntry_spec (injective : Set.InjOn md5Hash used) (nonempty : [] ∉ used) (key : NSString) :
    EntrySpec md5Hash used removeShape (removeEntry md5Hash) removeKey key := by
  intro changedManifest storage store inCall _
  have represents := inCall.represents
  -- A key that the manifest does not have is not stored.
  have missing : storage.manifest.lookup key = none → removeKey store key = store := by
    intro none
    rw [removeKey, ← represents.missing key none]
    exact update_eq_self key store
  unfold removeEntry
  split
  next empty =>
    have noKey : key = [] := length_eq_zero_iff.mp (by omega)
    have none : storage.manifest.lookup key = none := by
      by_contra some
      exact nonempty (noKey ▸ represents.used key some)
    rw [missing none]
    refine ⟨_, _, _, rfl, ?_, ⟨fun _ _ => rfl, fun _ => id⟩, fun _ => rfl, ?_⟩
    · rw [Bool.or_false]
      exact inCall
    · rintro reported ⟨⟩
      rfl
  next =>
    by_cases none : storage.manifest.lookup key = none
    · have notNull : storage.manifest.lookup key ≠ some .null := by
        rw [none]
        simp
      have same : storage.manifest.erase key = storage.manifest := by
        apply Finmap.ext_lookup
        intro other
        by_cases isKey : other = key
        · rw [isKey, Finmap.lookup_erase, none]
        · exact Finmap.lookup_erase_ne isKey
      have sameFile : storage.removeOldFile md5Hash key = storage := if_neg notNull
      refine ⟨storage, false, Option.none, ?_, ?_, ⟨fun _ _ => rfl, fun _ => id⟩,
        fun some => absurd rfl some, nofun⟩
      · dsimp only
        rw [sameFile, same, none]
        rfl
      · rw [Bool.or_false, missing none]
        exact inCall
    · have isUsed := represents.used key none
      obtain ⟨after, only⟩ := inCall.replaced injective isUsed Option.none rfl
        (fun _ differs => Finmap.lookup_erase_ne differs) (Finmap.lookup_erase _ _)
      obtain ⟨sameManifest, -⟩ := inCall.removeOldFile injective isUsed rfl
      refine ⟨_, _, _, rfl, ?_, only, fun some => absurd rfl some, nofun⟩
      rw [sameManifest, isSome_iff_ne_none.mpr none, Bool.or_true, ← sameManifest]
      exact after

end

end AsyncLocalStorage

end ReactNative

