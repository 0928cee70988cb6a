import ReactNative.Mounting.Binding
import Mathlib.Tactic.IntervalCases

/-! The array for the mount items has room for three of each mutation, and for 42 more. A view that
is inserted can take six: it is inserted, and gets its props, its state, its layout, its padding and
its event emitter. An array is large enough if such mutations do not outweigh those that take less
than three. -/
namespace ReactNative

open List

namespace Binding

variable {D : Type} (binding : Binding) (mutation : ShadowViewMutation D)

def hasNewLayout : Bool :=
  mutation.newChildShadowView.layoutMetrics ≠ EmptyLayoutMetrics &&
    mutation.oldChildShadowView.layoutMetrics ≠ mutation.newChildShadowView.layoutMetrics

def hasNewPadding : Bool :=
  mutation.oldChildShadowView.layoutMetrics.contentInsets ≠
    mutation.newChildShadowView.layoutMetrics.contentInsets

variable (tagsToProcess : Finset Tag)

/-- The tags of the deletions that are not passed over. -/
def deletedBefore (before : List (ShadowViewMutation D)) : Finset Tag :=
  ((before.filter fun mutation => mutation.type = .delete ∧
    ¬binding.isCollapsed tagsToProcess mutation).map (·.oldChildShadowView.tag)).toFinset

/-- Removals of virtual views are in no block, and end none. -/
def countsForBlocks (mutation : ShadowViewMutation D) : Bool :=
  !binding.isCollapsed tagsToProcess mutation && !(mutation.type = .remove && isVirtual mutation)

def endsInBlock (before : List (ShadowViewMutation D)) : Bool :=
  (before.filter (binding.countsForBlocks tagsToProcess)).getLast?.any fun mutation =>
    mutation.type = .remove || mutation.type = .delete

/-- What a mutation takes: a removal that is collated, only at the start of a block. -/
def itemsOf (deletedViewTags : Finset Tag) (inBlock : Bool) (mutation : ShadowViewMutation D) : ℕ :=
  let oldChildShadowView := mutation.oldChildShadowView
  let newChildShadowView := mutation.newChildShadowView
  match mutation.type with
  | .create => (binding.needsProps deletedViewTags mutation).toNat
  | .remove =>
    if isVirtual mutation then 0 else (!(binding.shouldCollateRemovesAndDeletes && inBlock)).toNat
  | .delete => (!(binding.shouldCollateRemovesAndDeletes && inBlock)).toNat
  | .update =>
    (if isVirtual mutation then 0
      else (decide (oldChildShadowView.props ≠ newChildShadowView.props)).toNat +
        (decide (oldChildShadowView.state.map State.address ≠
          newChildShadowView.state.map State.address)).toNat +
        (hasNewLayout mutation).toNat + (hasNewPadding mutation).toNat) +
      (decide (oldChildShadowView.eventEmitter ≠ newChildShadowView.eventEmitter) &&
        newChildShadowView.eventEmitter.isSome).toNat
  | .insert =>
    (if isVirtual mutation then 0
      else 1 + (binding.needsProps deletedViewTags mutation).toNat +
        newChildShadowView.state.isSome.toNat + (hasNewLayout mutation).toNat +
        (hasNewPadding mutation).toNat) +
      newChildShadowView.eventEmitter.isSome.toNat

/-- The weight of a mutation after others: its items, and none if it is passed over. -/
def weight (before : List (ShadowViewMutation D)) (mutation : ShadowViewMutation D) : ℕ :=
  if binding.isCollapsed tagsToProcess mutation then 0
  else binding.itemsOf (binding.deletedBefore tagsToProcess before)
    (binding.endsInBlock tagsToProcess before) mutation

def weightsAfter : List (ShadowViewMutation D) → List (ShadowViewMutation D) → List ℕ
  | _, [] => []
  | before, mutation :: rest =>
    binding.weight tagsToProcess before mutation :: weightsAfter (before ++ [mutation]) rest

/-- The mutations of weight four, five and six do not outweigh those of less than three by more
than 42. -/
def Balanced (mutations : List (ShadowViewMutation D)) : Prop :=
  let weights := binding.weightsAfter (createAndDeleteTagsToProcess mutations) [] mutations
  weights.count 4 + 2 * weights.count 5 + 3 * weights.count 6 ≤
    42 + weights.count 2 + 2 * weights.count 1 + 3 * weights.count 0

/-! ### What each step writes -/

variable {binding} (items : MountItems D)

theorem length_push (more : List (MountItem D)) :
    (push items more).mountItems.length = items.mountItems.length + more.length :=
  length_append

theorem length_handleAccumulated :
    (binding.handleAccumulated items).mountItems.length = items.mountItems.length +
      (binding.shouldCollateRemovesAndDeletes && decide (items.toRemove ≠ [])).toNat := by
  unfold handleAccumulated
  split
  next some => simp [push, some.1, some.2]
  next none =>
    have nothing : (binding.shouldCollateRemovesAndDeletes && decide (items.toRemove ≠ [])) =
        false := by simpa using none
    rw [nothing]
    rfl

def Collates (binding : Binding) (items : MountItems D) : Prop :=
  binding.shouldCollateRemovesAndDeletes = false → items.toRemove = []

theorem handleAccumulated_toRemove {items : MountItems D} (collates : binding.Collates items) :
    (binding.handleAccumulated items).toRemove = [] := by
  unfold handleAccumulated
  split
  · rfl
  next none =>
    cases collated : binding.shouldCollateRemovesAndDeletes with
    | false => exact collates collated
    | true => simpa [collated] using none

theorem handleAccumulated_deletedViewTags :
    (binding.handleAccumulated items).deletedViewTags = items.deletedViewTags := by
  unfold handleAccumulated
  split <;> rfl

theorem length_ite {α : Type} (condition : Prop) [Decidable condition] (entry : α) :
    (if condition then [entry] else []).length = (decide condition).toNat := by
  split <;> simp [*]

variable (mutation : ShadowViewMutation D)

theorem length_layout :
    (createUpdateLayoutMountItem mutation).toList.length = (hasNewLayout mutation).toNat := by
  unfold createUpdateLayoutMountItem hasNewLayout
  dsimp only
  rw [← Bool.decide_and]
  split
  next changed => rw [decide_eq_true changed]; rfl
  next same => rw [decide_eq_false same]; rfl

theorem length_padding :
    (createUpdatePaddingMountItem mutation).toList.length = (hasNewPadding mutation).toNat := by
  unfold createUpdatePaddingMountItem hasNewPadding
  dsimp only
  split
  next same => rw [decide_eq_false (not_not.mpr same)]; rfl
  next changed => rw [decide_eq_true changed]; rfl

theorem length_eventEmitter : (createUpdateEventEmitterMountItem mutation).toList.length =
      mutation.newChildShadowView.eventEmitter.isSome.toNat := by
  unfold createUpdateEventEmitterMountItem
  cases mutation.newChildShadowView.eventEmitter <;> rfl

theorem length_updateMountItems {mutation : ShadowViewMutation D} (isUpdate : mutation.type = .update)
    (deletedViewTags : Finset Tag) (inBlock : Bool) :
    (updateMountItems mutation).length = binding.itemsOf deletedViewTags inBlock mutation := by
  unfold updateMountItems itemsOf
  rw [isUpdate, length_append]
  congr 1
  · split
    · rfl
    · rw [length_append, length_append, length_append, length_ite, length_ite,
        length_layout, length_padding]
  · split
    next differs => simp [length_eventEmitter, differs]
    next same => simp [not_not.mp same]

theorem length_insertMountItems {mutation : ShadowViewMutation D} (isInsert : mutation.type = .insert)
    (deletedViewTags : Finset Tag) (inBlock : Bool) :
    (binding.insertMountItems deletedViewTags mutation).length =
      binding.itemsOf deletedViewTags inBlock mutation := by
  unfold insertMountItems itemsOf
  rw [isInsert, length_append, length_eventEmitter]
  split
  · rfl
  · rw [length_append, length_append, length_append, length_append, length_ite,
      length_ite, length_layout, length_padding, Bool.decide_eq_true, Bool.decide_eq_true]
    rfl

theorem markDeleted_ne_nil (tag : Tag) (toRemove : List RemoveDeleteMetadata) :
    markDeleted tag toRemove ≠ [] := by
  cases toRemove with
  | nil => exact cons_ne_nil _ _
  | cons =>
    rw [markDeleted]
    split <;> exact cons_ne_nil _ _

/-! ### The whole loop -/

/-- The items written, with the one of a block that is not written yet. -/
def written (binding : Binding) (items : MountItems D) : ℕ :=
  items.mountItems.length +
    (binding.shouldCollateRemovesAndDeletes && decide (items.toRemove ≠ [])).toNat

/-- What one mutation does to the loop, unless it is passed over. -/
structure Writes (binding : Binding) (items after : MountItems D) (mutation : ShadowViewMutation D) :
    Prop where
  deleted : after.deletedViewTags = if mutation.type = .delete then
    insert mutation.oldChildShadowView.tag items.deletedViewTags else items.deletedViewTags
  collates : binding.Collates after
  inBlock : binding.shouldCollateRemovesAndDeletes = true → decide (after.toRemove ≠ []) =
    if mutation.type = .remove && isVirtual mutation then decide (items.toRemove ≠ [])
    else decide (mutation.type = .remove) || decide (mutation.type = .delete)
  written : binding.written after = binding.written items +
    binding.itemsOf items.deletedViewTags (decide (items.toRemove ≠ [])) mutation

section

variable {items : MountItems D} {mutation : ShadowViewMutation D}

theorem writes_push {more : List (MountItem D)} (collates : binding.Collates items)
    (ends : mutation.type = .create ∨ mutation.type = .update ∨ mutation.type = .insert)
    (length : more.length =
      binding.itemsOf items.deletedViewTags (decide (items.toRemove ≠ [])) mutation) :
    binding.Writes items (push (binding.handleAccumulated items) more) mutation := by
  have empty : (push (binding.handleAccumulated items) more).toRemove = [] :=
    handleAccumulated_toRemove collates
  have others : mutation.type ≠ .remove ∧ mutation.type ≠ .delete := by
    rcases ends with same | same | same <;> rw [same] <;> decide
  constructor
  · rw [if_neg others.2]
    exact handleAccumulated_deletedViewTags items
  · exact fun _ => empty
  · intro
    simp [empty, others]
  · rw [Binding.written, empty, length_push, length_handleAccumulated, length]
    simp [Binding.written]

theorem removeMountItems_writes (collates : binding.Collates items)
    (isRemove : mutation.type = .remove) :
    binding.Writes items (binding.removeMountItems items mutation) mutation := by
  unfold removeMountItems
  split
  next isVirtual =>
    constructor
    · rw [isRemove]
      rfl
    · exact collates
    · simp [isRemove, isVirtual]
    · simp [itemsOf, isRemove, isVirtual]
  next notVirtual =>
    split
    next collated =>
      constructor
      · rw [isRemove]
        rfl
      · intro alone
        rw [collated] at alone
        cases alone
      · simp [isRemove, notVirtual]
      · by_cases inBlock : items.toRemove = [] <;>
          simp [Binding.written, itemsOf, isRemove, notVirtual, collated, inBlock]
    next alone =>
      constructor
      · rw [isRemove]
        rfl
      · exact collates
      · exact fun collated => absurd collated alone
      · simp [Binding.written, push, itemsOf, isRemove, notVirtual, alone]

theorem deleteMountItems_writes (collates : binding.Collates items)
    (isDelete : mutation.type = .delete) :
    binding.Writes items (binding.deleteMountItems items mutation) mutation := by
  unfold deleteMountItems
  cases collated : binding.shouldCollateRemovesAndDeletes with
  | true =>
    constructor
    · rw [isDelete]
      rfl
    · intro alone
      rw [collated] at alone
      cases alone
    · simp [isDelete, markDeleted_ne_nil]
    · by_cases inBlock : items.toRemove = [] <;>
        simp [Binding.written, itemsOf, isDelete, collated, markDeleted_ne_nil, inBlock]
  | false =>
    constructor
    · rw [isDelete]
      rfl
    · exact fun _ => collates collated
    · exact fun both => absurd (collated.symm.trans both) Bool.false_ne_true
    · simp [Binding.written, push, itemsOf, isDelete, collated]

end

theorem addMutation_writes {items : MountItems D} {tagsToProcess : Finset Tag}
    {mutation : ShadowViewMutation D} (collates : binding.Collates items)
    (kept : binding.isCollapsed tagsToProcess mutation = false) :
    binding.Writes items (binding.addMutation tagsToProcess items mutation) mutation := by
  rw [addMutation, if_neg (by rw [kept]; exact Bool.false_ne_true)]
  cases isType : mutation.type with
  | remove => exact removeMountItems_writes collates isType
  | delete => exact deleteMountItems_writes collates isType
  | update => exact writes_push collates (.inr (.inl isType)) (length_updateMountItems isType _ _)
  | insert =>
    refine writes_push collates (.inr (.inr isType)) ?_
    rw [handleAccumulated_deletedViewTags]
    exact length_insertMountItems isType _ _
  | create =>
    dsimp only
    rw [handleAccumulated_deletedViewTags]
    split
    next needed =>
      refine writes_push collates (.inl isType) ?_
      simp [itemsOf, isType, needed]
    next unneeded =>
      have writes := @writes_push D binding items mutation [] collates (.inl isType)
        (by simp [itemsOf, isType, unneeded])
      rw [push, append_nil] at writes
      exact writes

/-- The state of the loop, as told by the mutations before. -/
structure After (binding : Binding) (tagsToProcess : Finset Tag)
    (before : List (ShadowViewMutation D)) (items : MountItems D) : Prop where
  deleted : items.deletedViewTags = binding.deletedBefore tagsToProcess before
  collates : binding.Collates items
  inBlock : binding.shouldCollateRemovesAndDeletes = true →
    decide (items.toRemove ≠ []) = binding.endsInBlock tagsToProcess before

section

variable {tagsToProcess : Finset Tag} {before : List (ShadowViewMutation D)} {items : MountItems D}

theorem After.addMutation (after : binding.After tagsToProcess before items)
    (mutation : ShadowViewMutation D) :
    binding.After tagsToProcess (before ++ [mutation])
        (binding.addMutation tagsToProcess items mutation) ∧
      binding.written (binding.addMutation tagsToProcess items mutation) =
        binding.written items + binding.weight tagsToProcess before mutation := by
  rw [weight]
  cases collapsed : binding.isCollapsed tagsToProcess mutation with
  | true =>
    rw [Binding.addMutation, if_pos collapsed, if_pos rfl]
    refine ⟨⟨?_, after.collates, fun collated => ?_⟩, rfl⟩
    · rw [after.deleted]
      simp [deletedBefore, collapsed]
    · rw [after.inBlock collated]
      simp [endsInBlock, countsForBlocks, collapsed]
  | false =>
    have writes := addMutation_writes after.collates collapsed
    rw [if_neg Bool.false_ne_true]
    refine ⟨⟨?_, writes.collates, fun collated => ?_⟩, ?_⟩
    · rw [writes.deleted, after.deleted]
      by_cases isDelete : mutation.type = .delete
      · simp [deletedBefore, collapsed, isDelete]
      · simp [deletedBefore, isDelete]
    · rw [writes.inBlock collated, after.inBlock collated]
      by_cases passing : (mutation.type = .remove && isVirtual mutation) = true
      · simp [endsInBlock, countsForBlocks, passing]
      · simp [endsInBlock, countsForBlocks, collapsed, passing]
    · rw [writes.written, after.deleted]
      congr 1
      -- Whether a block is open matters only where removals are collated.
      cases collated : binding.shouldCollateRemovesAndDeletes with
      | true => rw [after.inBlock collated]
      | false => simp only [itemsOf, collated, Bool.false_and]

theorem After.written_foldl (mutations : List (ShadowViewMutation D))
    (after : binding.After tagsToProcess before items) :
    binding.written (mutations.foldl (binding.addMutation tagsToProcess) items) =
      binding.written items + (binding.weightsAfter tagsToProcess before mutations).sum := by
  induction mutations generalizing before items with
  | nil => rfl
  | cons mutation _ ih =>
    obtain ⟨afterNext, one⟩ := after.addMutation mutation
    rw [foldl_cons, ih afterNext, one, weightsAfter, sum_cons, Nat.add_assoc]

end

theorem length_mountItems (mutations : List (ShadowViewMutation D)) :
    (binding.schedulerDidFinishTransaction mutations).length =
      (binding.weightsAfter (createAndDeleteTagsToProcess mutations) [] mutations).sum := by
  have start : binding.After (createAndDeleteTagsToProcess mutations) [] ({} : MountItems D) :=
    ⟨rfl, fun _ => rfl, fun _ => rfl⟩
  have written := start.written_foldl mutations
  rw [Binding.written, ← length_handleAccumulated] at written
  rw [schedulerDidFinishTransaction, written]
  simp [Binding.written]

theorem weight_le_six (tagsToProcess : Finset Tag) (before : List (ShadowViewMutation D))
    (mutation : ShadowViewMutation D) : binding.weight tagsToProcess before mutation ≤ 6 := by
  have atMostOne (flag : Bool) : flag.toNat ≤ 1 := Bool.toNat_le flag
  unfold weight itemsOf
  split
  · omega
  · dsimp only
    cases mutation.type <;> dsimp only <;> grind

theorem sum_eq_counts {weights : List ℕ} (bounded : ∀ weight ∈ weights, weight ≤ 6) :
    weights.sum + weights.count 2 + 2 * weights.count 1 + 3 * weights.count 0 =
      3 * weights.length + weights.count 4 + 2 * weights.count 5 + 3 * weights.count 6 := by
  induction weights with
  | nil => rfl
  | cons weight rest ih =>
    have others := ih fun other member => bounded other (mem_cons_of_mem weight member)
    have small := bounded weight mem_cons_self
    rw [sum_cons, length_cons]
    interval_cases weight <;> simp only [count_cons] <;> simp <;> omega

def fullView (index : ℕ) : ShadowView Unit where
  componentName := "View"
  tag := 2 * index + 2
  props := some 1
  eventEmitter := some 2
  layoutMetrics := {
    frame := { size := ⟨10, 10⟩ }
    contentInsets := ⟨1, 1, 1, 1⟩ }
  state := some ⟨3, (), 1⟩

def newViews (count : ℕ) : List (ShadowViewMutation Unit) :=
  (range count).map (fun index => ShadowViewMutation.createMutation (fullView index)) ++
    (range count).map fun index =>
      ShadowViewMutation.insertMutation { tag := 1 } (fullView index) index

end Binding

end ReactNative

