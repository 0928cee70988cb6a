import Mathlib.Data.List.Dedup
import ReactNative.Foundation.Regex
import ReactNative.Storage.MergeRecursive

/-! The values are in a table of a SQLite database. Each call makes a task; what the task does to
the table and which times it invokes its callback is its outcome. -/
namespace ReactNative

abbrev JavaString := List UInt16

/-- An item of an array from JavaScript, as far as `getString` tells them apart. -/
inductive ReadableItem where
  | null
  | string (value : JavaString)
  /-- A number, a map, …: `getString` throws. -/
  | other
  deriving DecidableEq

/-- An item of an array from JavaScript, as far as `getArray` tells them apart. -/
inductive ReadableEntry where
  | null
  | array (items : List ReadableItem)
  /-- `getArray` throws. -/
  | other

/-- An entry as it should be. -/
def ReadableEntry.ofPair (pair : JavaString × JavaString) : ReadableEntry :=
  .array [.string pair.1, .string pair.2]

inductive AsyncStorageError where
  | invalidKey
  | invalidValue
  | dbError
  /-- With the message of an exception. -/
  | exception
  deriving DecidableEq

structure CatalystTable where
  rows : List (JavaString × JavaString)
  distinct : (rows.map Prod.fst).Nodup

/-- What goes wrong in a call. The statements are counted by the index that the loop is at. -/
structure DatabaseFaults where
  shuttingDown : Bool := false
  /-- The database could be opened by none of the tries. -/
  ensureDatabaseThrows : Bool := false
  compileStatementThrows : Bool := false
  beginTransactionThrows : Bool := false
  statementThrows : ℕ → Bool := fun _ => false
  /-- The cursor of a query throws when it is moved. -/
  cursorThrows : ℕ → Bool := fun _ => false
  /-- `insertWithOnConflict` returns -1. -/
  insertFails : ℕ → Bool := fun _ => false
  endTransactionThrows : Bool := false

inductive StorageAnswer where
  | failure (error : AsyncStorageError)
  | success (data : List (JavaString × Option JavaString))

structure TaskOutcome where
  table : CatalystTable
  callbacks : List StorageAnswer

namespace CatalystTable

variable (table : CatalystTable)

def getItem (key : JavaString) : Option JavaString := table.rows.lookup key

def setItem (key value : JavaString) : CatalystTable where
  rows := table.rows.filter (·.1 ≠ key) ++ [(key, value)]
  distinct := by
    rw [List.map_append, List.nodup_append]
    refine ⟨(List.filter_sublist.map Prod.fst).nodup table.distinct, List.nodup_singleton key, ?_⟩
    intro other member last isLast
    obtain ⟨row, kept, rfl⟩ := List.mem_map.mp member
    obtain rfl := List.mem_singleton.mp isLast
    exact of_decide_eq_true (List.mem_filter.mp kept).2

/-- The rows whose key is none of the arguments; a null is equal to no key. -/
def delete (args : List (Option JavaString)) : CatalystTable where
  rows := table.rows.filter fun row => some row.1 ∉ args
  distinct := (List.filter_sublist.map Prod.fst).nodup table.distinct

def query (args : List JavaString) : List (JavaString × JavaString) :=
  table.rows.filter fun row => row.1 ∈ args

end CatalystTable

namespace AsyncStorageModule

def maxSqlKeys : ℕ := 999

/-- How the block of a `try` ends early. -/
inductive Exit where
  /-- A `return`, after the error has been assigned. -/
  | returns (error : AsyncStorageError)
  | throws

def getString : ReadableItem → Except Exit (Option JavaString)
  | .null => .ok none
  | .string value => .ok (some value)
  | .other => .error .throws

/-- The checks of an entry, in their order. -/
def checkEntry : ReadableEntry → Except Exit (JavaString × JavaString)
  | .array [keyItem, valueItem] =>
    match getString keyItem with
    | .error exit => .error exit
    | .ok none => .error (.returns .invalidKey)
    | .ok (some key) =>
      match getString valueItem with
      | .error exit => .error exit
      | .ok none => .error (.returns .invalidValue)
      | .ok (some value) => .ok (key, value)
  | .array _ => .error (.returns .invalidValue)
  | .null | .other => .error .throws

def forEntries (act : ℕ → CatalystTable → JavaString × JavaString → Except Exit CatalystTable) :
    ℕ → List ReadableEntry → CatalystTable → Except Exit CatalystTable
  | _, [], table => .ok table
  | idx, entry :: rest, table =>
    match checkEntry entry with
    | .error exit => .error exit
    | .ok pair =>
      match act idx table pair with
      | .error exit => .error exit
      | .ok table => forEntries act (idx + 1) rest table

variable (faults : DatabaseFaults)

/-- The `try` of a task, its `finally` and what follows. A `return` inside the `try` runs only the
`finally`. -/
def inTransaction (before : CatalystTable)
    (block : CatalystTable → Except Exit CatalystTable) : TaskOutcome :=
  if faults.beginTransactionThrows then ⟨before, [.failure .exception]⟩
  else
    match block before with
    | .ok written =>
      if faults.endTransactionThrows then ⟨before, [.failure .exception]⟩
      else ⟨written, [.success []]⟩
    | .error (.returns _) => ⟨before, []⟩
    | .error .throws => ⟨before, [.failure .exception]⟩

/-- The start of each task. The guard around a task handles an exception, without the callback. -/
def ensureDatabase (before : CatalystTable) (task : TaskOutcome) : TaskOutcome :=
  if faults.shuttingDown then ⟨before, [.failure .dbError]⟩
  else if faults.ensureDatabaseThrows then ⟨before, []⟩
  else task

def setPair (idx : ℕ) (table : CatalystTable)
    (pair : JavaString × JavaString) : Except Exit CatalystTable :=
  if faults.statementThrows idx then .error .throws else .ok (table.setItem pair.1 pair.2)

def multiSet (keyValueArray : List ReadableEntry) (before : CatalystTable) : TaskOutcome :=
  if keyValueArray.length = 0 then ⟨before, [.failure .invalidKey]⟩
  else
    ensureDatabase faults before <|
      -- The statement is compiled before the `try`.
      if faults.compileStatementThrows then ⟨before, []⟩
      else inTransaction faults before (forEntries (setPair faults) 0 keyValueArray)

section

variable {Key Number : Type} [DecidableEq Key]
  (parse : JavaString → Option (JSONValue Key Number))
  (stringify : JSONValue Key Number → JavaString)

/-- The new value of a merge; nothing if one of the texts is no JSON object. -/
def mergedText (oldValue : Option JavaString) (value : JavaString) : Option JavaString :=
  match oldValue with
  | none => some value
  | some oldValue =>
    match (parse oldValue).filter JSONValue.isObject, (parse value).filter JSONValue.isObject with
    | some oldJSON, some newJSON => some (stringify (deepMergeInto newJSON oldJSON))
    | _, _ => none

/-- `mergeImpl`, with what the loop does if it is false. -/
def mergeImpl (faults : DatabaseFaults) (idx : ℕ) (table : CatalystTable)
    (pair : JavaString × JavaString) : Except Exit CatalystTable :=
  if faults.statementThrows idx then .error .throws
  else
    match mergedText parse stringify (table.getItem pair.1) pair.2 with
    | none => .error .throws
    | some newValue =>
      if faults.insertFails idx then .error (.returns .dbError)
      else .ok (table.setItem pair.1 newValue)

def multiMerge (faults : DatabaseFaults) (keyValueArray : List ReadableEntry)
    (before : CatalystTable) : TaskOutcome :=
  ensureDatabase faults before <|
    inTransaction faults before (forEntries (mergeImpl parse stringify faults) 0 keyValueArray)

end

def keyStarts (size keyStart : ℕ) : List ℕ :=
  if keyStart < size then keyStart :: keyStarts size (keyStart + maxSqlKeys) else []
termination_by size - keyStart
decreasing_by
  rw [maxSqlKeys]
  omega

/-- The keys from `keyStart` on, as many as one statement takes. -/
def keySlice (keys : List ReadableItem) (keyStart : ℕ) : List ReadableItem :=
  (keys.drop keyStart).take (min (keys.length - keyStart) maxSqlKeys)

def buildKeySelectionArgs : List ReadableItem → Except Exit (List (Option JavaString))
  | [] => .ok []
  | item :: rest =>
    match getString item with
    | .error exit => .error exit
    | .ok arg =>
      match buildKeySelectionArgs rest with
      | .error exit => .error exit
      | .ok args => .ok (arg :: args)

def deleteSlices (faults : DatabaseFaults) (keys : List ReadableItem) :
    List ℕ → CatalystTable → Except Exit CatalystTable
  | [], table => .ok table
  | keyStart :: rest, table =>
    match buildKeySelectionArgs (keySlice keys keyStart) with
    | .error exit => .error exit
    | .ok args =>
      if faults.statementThrows keyStart then .error .throws
      else deleteSlices faults keys rest (table.delete args)

def multiRemove (faults : DatabaseFaults) (keys : List ReadableItem) (before : CatalystTable) :
    TaskOutcome :=
  if keys.length = 0 then ⟨before, [.failure .invalidKey]⟩
  else
    ensureDatabase faults before <|
      inTransaction faults before (deleteSlices faults keys (keyStarts keys.length 0))

/-- The rows of a slice, then the keys that were not found. The rows are counted against all
keys. -/
def sliceData (size : ℕ) (rows : List (JavaString × JavaString)) (args : List JavaString) :
    List (JavaString × Option JavaString) :=
  let keysRemaining := if rows.length ≠ size then args.dedup else []
  rows.map (fun row => (row.1, some row.2)) ++
    (keysRemaining.filter (· ∉ rows.map Prod.fst)).map fun key => (key, none)

/-- The loop of `multiGet`; if it ends early, with the callbacks that it has invoked. The query is
before the `try`, and a null is no argument of a query. -/
def getSlices (faults : DatabaseFaults) (keys : List ReadableItem) (table : CatalystTable) :
    List ℕ → Except (List StorageAnswer) (List (JavaString × Option JavaString))
  | [] => .ok []
  | keyStart :: rest =>
    match buildKeySelectionArgs (keySlice keys keyStart) with
    | .error _ => .error []
    | .ok args =>
      if none ∈ args ∨ faults.statementThrows keyStart then .error []
      else if faults.cursorThrows keyStart then .error [.failure .exception]
      else
        match getSlices faults keys table rest with
        | .error callbacks => .error callbacks
        | .ok data =>
          .ok (sliceData keys.length (table.query args.reduceOption) args.reduceOption ++ data)

/-- The keys may be null. -/
def multiGet (faults : DatabaseFaults) (keys : Option (List ReadableItem))
    (before : CatalystTable) : TaskOutcome :=
  match keys with
  | none => ⟨before, [.failure .invalidKey]⟩
  | some keys =>
    ensureDatabase faults before <|
      match getSlices faults keys before (keyStarts keys.length 0) with
      | .error callbacks => ⟨before, callbacks⟩
      | .ok data => ⟨before, [.success data]⟩

end AsyncStorageModule

end ReactNative

