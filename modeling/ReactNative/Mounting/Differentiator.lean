import ReactNative.Mounting.ShadowView
import ReactNative.Mounting.TinyMap

/-! `calculateShadowViewMutations` in both modes. A level collects seven lists of mutations and
concatenates them in one fixed order. -/
namespace ReactNative

open ShadowViewMutation

variable {D : Type}

/-- The mutation lists of one level, or what one iteration pushes to them. -/
structure MutationLists (D : Type) where
  createMutations : List (ShadowViewMutation D) := []
  deleteMutations : List (ShadowViewMutation D) := []
  insertMutations : List (ShadowViewMutation D) := []
  removeMutations : List (ShadowViewMutation D) := []
  updateMutations : List (ShadowViewMutation D) := []
  downwardMutations : List (ShadowViewMutation D) := []
  destructiveDownwardMutations : List (ShadowViewMutation D) := []

namespace MutationLists

instance : Append (MutationLists D) where
  append first second :=
    { createMutations := first.createMutations ++ second.createMutations
      deleteMutations := first.deleteMutations ++ second.deleteMutations
      insertMutations := first.insertMutations ++ second.insertMutations
      removeMutations := first.removeMutations ++ second.removeMutations
      updateMutations := first.updateMutations ++ second.updateMutations
      downwardMutations := first.downwardMutations ++ second.downwardMutations
      destructiveDownwardMutations :=
        first.destructiveDownwardMutations ++ second.destructiveDownwardMutations }

section

variable (first second : MutationLists D)

@[simp] theorem append_createMutations :
    (first ++ second).createMutations = first.createMutations ++ second.createMutations := rfl

@[simp] theorem append_deleteMutations :
    (first ++ second).deleteMutations = first.deleteMutations ++ second.deleteMutations := rfl

@[simp] theorem append_insertMutations :
    (first ++ second).insertMutations = first.insertMutations ++ second.insertMutations := rfl

@[simp] theorem append_removeMutations :
    (first ++ second).removeMutations = first.removeMutations ++ second.removeMutations := rfl

@[simp] theorem append_updateMutations :
    (first ++ second).updateMutations = first.updateMutations ++ second.updateMutations := rfl

@[simp] theorem append_downwardMutations :
    (first ++ second).downwardMutations = first.downwardMutations ++ second.downwardMutations := rfl

@[simp] theorem append_destructiveDownwardMutations :
    (first ++ second).destructiveDownwardMutations =
      first.destructiveDownwardMutations ++ second.destructiveDownwardMutations := rfl

end

def inOptimalOrder (lists : MutationLists D) : List (ShadowViewMutation D) :=
  lists.destructiveDownwardMutations ++ lists.updateMutations ++ lists.removeMutations.reverse ++
    lists.deleteMutations ++ lists.createMutations ++ lists.downwardMutations ++
    lists.insertMutations

def collect {A : Type} (body : A → Option (MutationLists D)) : List A → Option (MutationLists D)
  | [] => some {}
  | item :: rest => do
    let here ← body item
    let later ← collect body rest
    return here ++ later

end MutationLists

open MutationLists

/-- The recursive call: a parent view and the slices below it. -/
abbrev Recursion (D : Type) := ShadowView D → List (ShadowViewNodePair D) →
  List (ShadowViewNodePair D) → Option (List (ShadowViewMutation D))

variable (recursion : Recursion D) (parentShadowView : ShadowView D)

section Matched

variable [DecidableEq D]

def updateIfChanged (oldChildPair newChildPair : ShadowViewNodePair D) (index : Int) :
    List (ShadowViewMutation D) :=
  if oldChildPair.shadowView ≠ newChildPair.shadowView then
    [updateMutation parentShadowView oldChildPair.shadowView newChildPair.shadowView index]
  else []

end Matched

/-- Recursion into a view that stays, with the list that its mutations go to. -/
def updateGrandChildren (oldChildPair newChildPair : ShadowViewNodePair D) :
    Option (MutationLists D) := do
  let oldGrandChildPairs := sliceChildShadowNodeViewPairs oldChildPair.shadowNode
  let newGrandChildPairs := sliceChildShadowNodeViewPairs newChildPair.shadowNode
  let mutations ← recursion parentShadowView oldGrandChildPairs newGrandChildPairs
  return if newGrandChildPairs.length ≠ 0 then { downwardMutations := mutations }
    else { destructiveDownwardMutations := mutations }

/-- Recursion that cleans up the entire subtree starting from a removed view. -/
def deleteGrandChildren (oldChildPair : ShadowViewNodePair D) : Option (MutationLists D) := do
  let mutations ← recursion oldChildPair.shadowView
    (sliceChildShadowNodeViewPairs oldChildPair.shadowNode) []
  return { destructiveDownwardMutations := mutations }

/-- Creation of a new view together with its subtree. -/
def createWithGrandChildren (newChildPair : ShadowViewNodePair D) : Option (MutationLists D) := do
  let mutations ← recursion newChildPair.shadowView []
    (sliceChildShadowNodeViewPairs newChildPair.shadowNode)
  return {
    createMutations := [createMutation newChildPair.shadowView]
    downwardMutations := mutations }

/-- Stage 1: the siblings before the first difference. -/
def collectUpdates [DecidableEq D] : Nat → List (ShadowViewNodePair D) →
    List (ShadowViewNodePair D) → Option (MutationLists D)
  | index, oldChildPair :: oldRest, newChildPair :: newRest =>
    if oldChildPair.shadowView.tag ≠ newChildPair.shadowView.tag then
      -- Totally different nodes, updating is impossible.
      some {}
    else do
      let below ← updateGrandChildren recursion oldChildPair.shadowView oldChildPair newChildPair
      let rest ← collectUpdates (index + 1) oldRest newRest
      return { updateMutations :=
        updateIfChanged parentShadowView oldChildPair newChildPair index } ++ below ++ rest
  | _, _, _ => some {}

def lastIndexAfterFirstStage {P : Type} (tag : P → Tag) : List P → List P → Nat
  | oldChildPair :: oldRest, newChildPair :: newRest =>
    if tag oldChildPair ≠ tag newChildPair then 0
    else lastIndexAfterFirstStage tag oldRest newRest + 1
  | _, _ => 0

def pairTag (pair : ShadowViewNodePair D) : Tag := pair.shadowView.tag

/-- Maps tags of pairs to the pairs. -/
def insertAll {P : Type} (tag : P → Tag) : List P → TinyMap P → Option (TinyMap P)
  | [], map => some map
  | pair :: rest, map => do
    let map ← map.insert (tag pair, pair)
    insertAll tag rest map

section Classic

variable [DecidableEq D]

/-- Stage 2: collecting `Insert` mutations. -/
def collectInserts (pairs : List (ShadowViewNodePair D × Nat)) : MutationLists D where
  insertMutations := pairs.map fun pair =>
    insertMutation parentShadowView pair.1.shadowView pair.2

/-- Stage 3: collecting `Delete` and `Remove` mutations. -/
def collectDeletesAndRemoves : List (ShadowViewNodePair D × Nat) →
    TinyMap (ShadowViewNodePair D) → Option (MutationLists D × TinyMap (ShadowViewNodePair D))
  | [], insertedPairs => some ({}, insertedPairs)
  | (oldChildPair, index) :: rest, insertedPairs => do
    let (insertedPairs, it) ← insertedPairs.findEntry oldChildPair.shadowView.tag
    let (lists, insertedPairs) ← match it with
      | none => do
        -- The old view was *not* (re)inserted.
        let below ← deleteGrandChildren recursion oldChildPair
        pure (({ deleteMutations := [deleteMutation oldChildPair.shadowView] } : MutationLists D) ++
          below, insertedPairs)
      | some (it, newChildPair) => do
        -- The old view *was* (re)inserted.
        let below ←
          if newChildPair.same oldChildPair then pure ({} : MutationLists D)
          else updateGrandChildren recursion newChildPair.shadowView oldChildPair newChildPair
        let insertedPairs ← insertedPairs.erase it
        pure (below, insertedPairs)
    let (later, insertedPairs) ← collectDeletesAndRemoves rest insertedPairs
    return (({ removeMutations :=
      [removeMutation parentShadowView oldChildPair.shadowView index] } : MutationLists D) ++
        lists ++ later, insertedPairs)

/-- Stage 4: collecting `Create` mutations. -/
def collectCreates : List (ShadowViewNodePair D) → TinyMap (ShadowViewNodePair D) →
    Option (MutationLists D)
  | [], _ => some {}
  | newChildPair :: rest, insertedPairs => do
    let (insertedPairs, it) ← insertedPairs.findEntry newChildPair.shadowView.tag
    match it with
    | none =>
      -- The new view was (re)inserted, so there is no need to create it.
      collectCreates rest insertedPairs
    | some _ => do
      let here ← createWithGrandChildren recursion newChildPair
      let later ← collectCreates rest insertedPairs
      return here ++ later

def classicLevel (oldChildPairs newChildPairs : List (ShadowViewNodePair D)) :
    Option (List (ShadowViewMutation D)) := do
  let updates ← collectUpdates recursion parentShadowView 0 oldChildPairs newChildPairs
  let index := lastIndexAfterFirstStage pairTag oldChildPairs newChildPairs
  let inserts := collectInserts parentShadowView ((newChildPairs.drop index).zipIdx index)
  let insertedPairs ← insertAll pairTag (newChildPairs.drop index) {}
  let (removes, insertedPairs) ← collectDeletesAndRemoves recursion parentShadowView
    ((oldChildPairs.drop index).zipIdx index) insertedPairs
  let creates ← collectCreates recursion (newChildPairs.drop index) insertedPairs
  return (updates ++ inserts ++ removes ++ creates).inOptimalOrder

def calculateShadowViewMutationsClassic : Nat → Recursion D
  | 0, _, _, _ => none
  | fuel + 1, parentShadowView, oldChildPairs, newChildPairs =>
    if oldChildPairs.length = 0 ∧ newChildPairs.length = 0 then some []
    else classicLevel (calculateShadowViewMutationsClassic fuel) parentShadowView
      (reorderInPlaceIfNeeded oldChildPairs) (reorderInPlaceIfNeeded newChildPairs)

end Classic

/-! ### Optimized moves -/

/-- The branch that one round of the walk takes. -/
inductive WalkStep (P : Type) where
  /-- Both pointers point to the same element. -/
  | matched (oldChildPair newChildPair : P)
  /-- The old element was already inserted and is now taken from its old position. -/
  | reordered (oldChildPair newChildPair : P) (oldIndex : Nat)
  /-- The old element is not in the new list. -/
  | removed (oldChildPair : P) (oldIndex : Nat)
  | inserted (newChildPair : P) (newIndex : Nat)

/-- Where the walk stands: the pairs it has not passed yet, and its two maps. -/
structure Walk (P : Type) where
  oldIndex : Nat
  newIndex : Nat
  oldPairs : List P
  newPairs : List P
  newRemainingPairs : TinyMap P
  newInsertedPairs : TinyMap P

namespace Walk

variable {P : Type} (tag : P → Tag) (walk : Walk P)

def insertNewPair : Option (WalkStep P × Walk P) :=
  match walk.newPairs with
  | [] => none
  | newChildPair :: newRest => do
    let newInsertedPairs ← walk.newInsertedPairs.insert (tag newChildPair, newChildPair)
    return (.inserted newChildPair walk.newIndex, { walk with
      newIndex := walk.newIndex + 1, newPairs := newRest, newInsertedPairs })

def passOldPair (oldChildPair : P) (oldRest : List P) : Option (WalkStep P × Walk P) := do
  let (newInsertedPairs, insertedIt) ← walk.newInsertedPairs.findEntry (tag oldChildPair)
  match insertedIt with
  | some (it, newChildPair) => do
    let newInsertedPairs ← newInsertedPairs.erase it
    return (.reordered oldChildPair newChildPair walk.oldIndex, { walk with
      oldIndex := walk.oldIndex + 1, oldPairs := oldRest, newInsertedPairs })
  | none => do
    let (newRemainingPairs, newIt) ← walk.newRemainingPairs.findEntry (tag oldChildPair)
    match newIt with
    | none =>
      return (.removed oldChildPair walk.oldIndex, { walk with
        oldIndex := walk.oldIndex + 1, oldPairs := oldRest, newInsertedPairs, newRemainingPairs })
    | some _ =>
      -- The old pair is in the new list, and hasn't been inserted or matched yet.
      insertNewPair tag { walk with newInsertedPairs, newRemainingPairs }

def matchPairs (oldChildPair newChildPair : P) (oldRest newRest : List P) :
    Option (WalkStep P × Walk P) := do
  let (newRemainingPairs, it) ← walk.newRemainingPairs.findEntry (tag oldChildPair)
  let newRemainingPairs ← match it with
    | some (it, _) => newRemainingPairs.erase it
    | none => some newRemainingPairs
  return (.matched oldChildPair newChildPair, { walk with
    oldIndex := walk.oldIndex + 1, newIndex := walk.newIndex + 1
    oldPairs := oldRest, newPairs := newRest, newRemainingPairs })

def step : Option (WalkStep P × Walk P) :=
  match walk.oldPairs, walk.newPairs with
  | oldChildPair :: oldRest, newChildPair :: newRest =>
    if tag newChildPair = tag oldChildPair then
      matchPairs tag walk oldChildPair newChildPair oldRest newRest
    else passOldPair tag walk oldChildPair oldRest
  | oldChildPair :: oldRest, [] => passOldPair tag walk oldChildPair oldRest
  | [], _ => insertNewPair tag walk

def run : Nat → Walk P → Option (List (WalkStep P) × TinyMap P)
  | rounds, walk =>
    if walk.oldPairs = [] ∧ walk.newPairs = [] then some ([], walk.newInsertedPairs)
    else match rounds with
      | 0 => none
      | rounds + 1 => do
        let (first, walk) ← walk.step tag
        let (rest, newInsertedPairs) ← run rounds walk
        return (first :: rest, newInsertedPairs)

def siblings (index : Nat) (oldPairs newPairs : List P) :
    Option (List (WalkStep P) × TinyMap P) := do
  let newRemainingPairs ← insertAll tag newPairs {}
  run tag (oldPairs.length + newPairs.length)
    ⟨index, index, oldPairs, newPairs, newRemainingPairs, {}⟩

end Walk

section OptimizedMoves

variable [DecidableEq D]

/-- What a round of the walk pushes; `index` is where the loop before it ended. -/
def WalkStep.mutations (index : Int) : WalkStep (ShadowViewNodePair D) → Option (MutationLists D)
  | .matched oldChildPair newChildPair => do
    let below ← updateGrandChildren recursion oldChildPair.shadowView oldChildPair newChildPair
    return { updateMutations :=
      updateIfChanged parentShadowView oldChildPair newChildPair index } ++ below
  | .reordered oldChildPair newChildPair oldIndex => do
    let below ← updateGrandChildren recursion oldChildPair.shadowView oldChildPair newChildPair
    return {
      removeMutations := [removeMutation parentShadowView oldChildPair.shadowView oldIndex]
      updateMutations := updateIfChanged parentShadowView oldChildPair newChildPair index } ++ below
  | .removed oldChildPair oldIndex => do
    let below ← deleteGrandChildren recursion oldChildPair
    return {
      removeMutations := [removeMutation parentShadowView oldChildPair.shadowView oldIndex]
      deleteMutations := [deleteMutation oldChildPair.shadowView] } ++ below
  | .inserted newChildPair newIndex =>
    some { insertMutations := [insertMutation parentShadowView newChildPair.shadowView newIndex] }

def collectMoves (index : Nat) (oldChildPairs newChildPairs : List (ShadowViewNodePair D)) :
    Option (MutationLists D) := do
  let (steps, newInsertedPairs) ← Walk.siblings pairTag index (oldChildPairs.drop index)
    (newChildPairs.drop index)
  let moves ← collect (WalkStep.mutations recursion parentShadowView newChildPairs.length) steps
  -- Final step: generate Create instructions for new nodes
  let creates ← collect (createWithGrandChildren recursion) newInsertedPairs.iterate
  return moves ++ creates

def collectRest (index : Nat) (oldChildPairs newChildPairs : List (ShadowViewNodePair D)) :
    Option (MutationLists D) :=
  if index = newChildPairs.length then
    -- We've reached the end of the new children. We can delete+remove the rest.
    collect (fun (oldChildPair, index) =>
        WalkStep.mutations recursion parentShadowView index (.removed oldChildPair index))
      ((oldChildPairs.drop index).zipIdx index)
  else if index = oldChildPairs.length then
    -- The rest will all be create+insert.
    collect (fun (newChildPair, index) => do
        let created ← createWithGrandChildren recursion newChildPair
        return { insertMutations :=
          [insertMutation parentShadowView newChildPair.shadowView index] } ++ created)
      ((newChildPairs.drop index).zipIdx index)
  else collectMoves recursion parentShadowView index oldChildPairs newChildPairs

def optimizedMovesLevel (oldChildPairs newChildPairs : List (ShadowViewNodePair D)) :
    Option (List (ShadowViewMutation D)) := do
  let updates ← collectUpdates recursion parentShadowView 0 oldChildPairs newChildPairs
  let index := lastIndexAfterFirstStage pairTag oldChildPairs newChildPairs
  let rest ← collectRest recursion parentShadowView index oldChildPairs newChildPairs
  return (updates ++ rest).inOptimalOrder

def calculateShadowViewMutationsOptimizedMoves : Nat → Recursion D
  | 0, _, _, _ => none
  | fuel + 1, parentShadowView, oldChildPairs, newChildPairs =>
    if oldChildPairs.length = 0 ∧ newChildPairs.length = 0 then some []
    else optimizedMovesLevel (calculateShadowViewMutationsOptimizedMoves fuel) parentShadowView
      (reorderInPlaceIfNeeded oldChildPairs) (reorderInPlaceIfNeeded newChildPairs)

end OptimizedMoves

inductive DifferentiatorMode where
  | classic
  | optimizedMoves

variable [DecidableEq D]

def calculateShadowViewMutations (differentiatorMode : DifferentiatorMode)
    (oldRootShadowNode newRootShadowNode : ShadowNode D) : Option (List (ShadowViewMutation D)) :=
  -- Root shadow nodes must be belong the same family.
  if ¬ oldRootShadowNode.sameFamily newRootShadowNode then none
  else do
    let oldRootShadowView := ShadowView.ofShadowNode oldRootShadowNode
    let newRootShadowView := ShadowView.ofShadowNode newRootShadowNode
    let rootMutations := if oldRootShadowView ≠ newRootShadowView then
        [updateMutation {} oldRootShadowView newRootShadowView (-1)]
      else []
    let fuel := max oldRootShadowNode.height newRootShadowNode.height
    let calculate := match differentiatorMode with
      | .classic => calculateShadowViewMutationsClassic fuel
      | .optimizedMoves => calculateShadowViewMutationsOptimizedMoves fuel
    let mutations ← calculate oldRootShadowView
      (sliceChildShadowNodeViewPairs oldRootShadowNode)
      (sliceChildShadowNodeViewPairs newRootShadowNode)
    return rootMutations ++ mutations

end ReactNative



