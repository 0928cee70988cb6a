import Mathlib.Data.Finmap
import ReactNative.Foundation.Runs

/-! A value is inlined in the manifest if it is short; otherwise the manifest has a null for its key
and the value is in a file of its own, named by a hash of the key, and maybe in a cache that all
instances share. -/
namespace ReactNative

abbrev NSString := List UInt16

/-- A value in the manifest, or the null of a value that is in a file. -/
inductive ManifestValue where
  | inlined (value : NSString)
  | null
  deriving DecidableEq

abbrev Manifest := Finmap fun _ : NSString => ManifestValue

inductive StorageError where
  | invalidKey (key : NSString)
  | readStorageFile (key : NSString)
  | writeValue (key : NSString)
  | parseJSON (key : NSString)
  | writeManifestFile
  | deleteStorageDirectory
  deriving DecidableEq

/-- The key that an error is about. -/
def StorageError.key : StorageError → Option NSString
  | .invalidKey key | .readStorageFile key | .writeValue key | .parseJSON key => some key
  | .writeManifestFile | .deleteStorageDirectory => none

structure KeyRead where
  key : NSString
  readFails : Bool := false

structure EntryWrite where
  key : NSString
  value : NSString
  writeFails : Bool := false

/-- An entry of `multiMerge`, whose file may be read and written. -/
structure EntryMerge where
  key : NSString
  value : NSString
  readFails : Bool := false
  writeFails : Bool := false

/-- What happens to the manifest file in a call. -/
structure ManifestFaults where
  readFails : Bool := false
  writeFails : Bool := false

structure StorageDirectory (FileName : Type) where
  manifest : Option Manifest := none
  files : Finmap fun _ : FileName => NSString := ∅

/-- An instance, with what the process shares and the directory on disk. -/
structure AsyncLocalStorage (FileName : Type) where
  haveSetup : Bool := false
  manifest : Manifest := ∅
  cache : Finmap (fun _ : NSString => NSString) := ∅
  hasCreatedStorageDirectory : Bool := false
  directory : Option (StorageDirectory FileName) := none

inductive StorageCall where
  | multiGet (keys : List KeyRead) (faults : ManifestFaults)
  | multiSet (kvPairs : List EntryWrite) (faults : ManifestFaults)
  | multiMerge (kvPairs : List EntryMerge) (faults : ManifestFaults)
  | multiRemove (keys : List NSString) (faults : ManifestFaults)
  | getAllKeys (faults : ManifestFaults)
  | clear
  | evict (key : NSString)
  /-- `invalidate` without `clearOnInvalidate`. -/
  | invalidate
  /-- A new process. -/
  | restart

namespace AsyncLocalStorage

def inlineValueThreshold : ℕ := 1024

variable {FileName : Type} [DecidableEq FileName] (md5Hash : NSString → FileName)
  (mergeJSON : NSString → NSString → Option NSString)

variable (storage : AsyncLocalStorage FileName) (name : FileName)

/-- `RCTReadFile`: a missing file is no error. -/
def readFile (fails : Bool) : Except Unit (Option NSString) :=
  match storage.directory.bind fun directory => directory.files.lookup name with
  | none => .ok none
  | some content => if fails then .error () else .ok (some content)

/-- `writeToFile:atomically:`, which fails without the directory. -/
def writeFile (content : NSString) (fails : Bool) : Option (AsyncLocalStorage FileName) :=
  match storage.directory with
  | none => none
  | some directory =>
    if fails then none
    else some { storage with
      directory := some { directory with files := directory.files.insert name content } }

def removeFile : AsyncLocalStorage FileName :=
  { storage with
    directory := storage.directory.map fun directory =>
      { directory with files := directory.files.erase name } }

variable (faults : ManifestFaults)

/-- A manifest file that cannot be read counts as a missing one. -/
def ensureSetup : AsyncLocalStorage FileName :=
  let created :=
    if storage.hasCreatedStorageDirectory then storage
    else { storage with
      directory := some (storage.directory.getD {}), hasCreatedStorageDirectory := true }
  if created.haveSetup then created
  else
    { created with
      manifest :=
        if faults.readFails then ∅
        else (created.directory.bind StorageDirectory.manifest).getD ∅
      haveSetup := true }

def writeManifest : AsyncLocalStorage FileName × List StorageError :=
  match storage.directory with
  | none => (storage, [.writeManifestFile])
  | some directory =>
    if faults.writeFails then (storage, [.writeManifestFile])
    else
      ({ storage with directory := some { directory with manifest := some storage.manifest } }, [])

def writeManifestIfChanged (changedManifest : Bool) (faults : ManifestFaults)
    (result : AsyncLocalStorage FileName × List StorageError) :
    AsyncLocalStorage FileName × List StorageError :=
  if changedManifest then
    let (storage, manifestErrors) := result.1.writeManifest faults
    (storage, result.2 ++ manifestErrors)
  else result

variable (key : NSString)

/-- A file that is missing, or that cannot be read, takes its key out of the manifest. -/
def getValueForKey (readFails : Bool) :
    AsyncLocalStorage FileName × Option NSString × Option StorageError :=
  match storage.manifest.lookup key with
  | none => (storage, none, none)
  | some (.inlined value) => (storage, some value, none)
  | some .null =>
    match storage.cache.lookup key with
    | some value => (storage, some value, none)
    | none =>
      match storage.readFile (md5Hash key) readFails with
      | .ok (some value) =>
        ({ storage with cache := storage.cache.insert key value }, some value, none)
      | .ok none => ({ storage with manifest := storage.manifest.erase key }, none, none)
      | .error _ =>
        ({ storage with manifest := storage.manifest.erase key }, none, some (.readStorageFile key))

/-- If the value exists but is not inlined, its file and its cache entry go. -/
def removeOldFile : AsyncLocalStorage FileName :=
  if storage.manifest.lookup key = some .null then
    { storage.removeFile (md5Hash key) with cache := storage.cache.erase key }
  else storage

def writeEntry (entry : EntryWrite) : AsyncLocalStorage FileName × Bool × Option StorageError :=
  if entry.key.length < 1 then (storage, false, some (.invalidKey entry.key))
  else if entry.value.length ≤ inlineValueThreshold then
    let removed := storage.removeOldFile md5Hash entry.key
    ({ removed with manifest := removed.manifest.insert entry.key (.inlined entry.value) }, true, none)
  else
    -- The value is cached whether it could be written or not.
    match storage.writeFile (md5Hash entry.key) entry.value entry.writeFails with
    | none =>
      ({ storage with cache := storage.cache.insert entry.key entry.value }, false,
        some (.writeValue entry.key))
    | some written =>
      let cached := { written with cache := written.cache.insert entry.key entry.value }
      if storage.manifest.lookup entry.key = some .null then (cached, false, none)
      else
        ({ cached with manifest := cached.manifest.insert entry.key .null }, true, none)

def getValues : List KeyRead → AsyncLocalStorage FileName →
    AsyncLocalStorage FileName × List (NSString × Option NSString) × List StorageError
  | [], storage => (storage, [], [])
  | keyRead :: rest, storage =>
    let (storage, value, error) := storage.getValueForKey md5Hash keyRead.key keyRead.readFails
    let (storage, values, errors) := getValues rest storage
    (storage, (keyRead.key, value) :: values, error.toList ++ errors)

/-- One entry of `multiMerge`. `mergeJSON` is what `RCTMergeRecursive` makes of the value that is
stored and the one of the entry, or nothing if one of them is not JSON. -/
def mergeEntry (entry : EntryMerge) : AsyncLocalStorage FileName × Bool × Option StorageError :=
  match storage.getValueForKey md5Hash entry.key entry.readFails with
  | (storage, _, some error) => (storage, false, some error)
  | (storage, none, none) =>
    storage.writeEntry md5Hash ⟨entry.key, entry.value, entry.writeFails⟩
  | (storage, some value, none) =>
    match mergeJSON value entry.value with
    | none => (storage, false, some (.parseJSON entry.key))
    | some merged => storage.writeEntry md5Hash ⟨entry.key, merged, entry.writeFails⟩

def removeEntry : AsyncLocalStorage FileName × Bool × Option StorageError :=
  if key.length < 1 then (storage, false, some (.invalidKey key))
  else
    let removed := storage.removeOldFile md5Hash key
    ({ removed with manifest := removed.manifest.erase key },
      (removed.manifest.lookup key).isSome, none)

def forEntries {Entry : Type} (act : AsyncLocalStorage FileName → Entry →
      AsyncLocalStorage FileName × Bool × Option StorageError) :
    List Entry → AsyncLocalStorage FileName → AsyncLocalStorage FileName × Bool × List StorageError
  | [], storage => (storage, false, [])
  | entry :: rest, storage =>
    let (storage, changed, error) := act storage entry
    let (storage, changedLater, errors) := forEntries act rest storage
    (storage, changed || changedLater, error.toList ++ errors)

def multiGet (keys : List KeyRead) (faults : ManifestFaults) :
    AsyncLocalStorage FileName × List (NSString × Option NSString) × List StorageError :=
  getValues md5Hash keys (storage.ensureSetup faults)

def multiSet (kvPairs : List EntryWrite)
    (faults : ManifestFaults) : AsyncLocalStorage FileName × List StorageError :=
  let (storage, changedManifest, errors) :=
    forEntries (writeEntry md5Hash) kvPairs (storage.ensureSetup faults)
  writeManifestIfChanged changedManifest faults (storage, errors)

def multiMerge (kvPairs : List EntryMerge)
    (faults : ManifestFaults) : AsyncLocalStorage FileName × List StorageError :=
  let (storage, changedManifest, errors) :=
    forEntries (mergeEntry md5Hash mergeJSON) kvPairs (storage.ensureSetup faults)
  writeManifestIfChanged changedManifest faults (storage, errors)

def multiRemove (keys : List NSString)
    (faults : ManifestFaults) : AsyncLocalStorage FileName × List StorageError :=
  let (storage, changedManifest, errors) :=
    forEntries (removeEntry md5Hash) keys (storage.ensureSetup faults)
  writeManifestIfChanged changedManifest faults (storage, errors)

def getAllKeys : AsyncLocalStorage FileName × Finset NSString :=
  let storage := storage.ensureSetup faults
  (storage, storage.manifest.keys)

def clear : AsyncLocalStorage FileName × List StorageError :=
  ({ storage with
      manifest := ∅, cache := ∅, directory := none, hasCreatedStorageDirectory := false },
    if storage.directory.isNone then [.deleteStorageDirectory] else [])

def invalidate : AsyncLocalStorage FileName :=
  { storage with manifest := ∅, haveSetup := false }

def restart : AsyncLocalStorage FileName :=
  { directory := storage.directory }

def perform : StorageCall → AsyncLocalStorage FileName × List StorageError
  | .multiGet keys faults =>
    let (storage, _, errors) := storage.multiGet md5Hash keys faults
    (storage, errors)
  | .multiSet kvPairs faults => storage.multiSet md5Hash kvPairs faults
  | .multiMerge kvPairs faults => storage.multiMerge md5Hash mergeJSON kvPairs faults
  | .multiRemove keys faults => storage.multiRemove md5Hash keys faults
  | .getAllKeys faults => ((storage.getAllKeys faults).1, [])
  | .clear => storage.clear
  | .evict key => ({ storage with cache := storage.cache.erase key }, [])
  | .invalidate => (storage.invalidate, [])
  | .restart => (storage.restart, [])

def step (call : StorageCall) : Option (AsyncLocalStorage FileName) :=
  some (storage.perform md5Hash mergeJSON call).1

end AsyncLocalStorage

end ReactNative

