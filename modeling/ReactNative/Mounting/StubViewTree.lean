import ReactNative.Foundation.EditScript
import ReactNative.Mounting.ShadowView

/-! The interpreter of mutation lists that the tests of the differentiator use. Stub views are
shared objects: the registry maps a tag to a pointer, and the children of a view are pointers. -/
namespace ReactNative

open KeyedTree ShadowViewMutation Function List ShadowView

variable {D : Type}

structure StubView (D : Type) where
  shadowView : ShadowView D
  children : List Pointer

/-- The data of a default-constructed stub view. -/
def blankShadowView : ShadowView D := { layoutMetrics := {} }

def StubView.update (stubView : StubView D) (shadowView : ShadowView D) : StubView D :=
  { stubView with shadowView }

structure StubViewTree (D : Type) where
  rootTag : Tag
  registry : Tag → Option Pointer
  /-- The stub view at each address, and the first address that is free. -/
  views : Pointer → StubView D
  nextAddress : Pointer

namespace StubViewTree

/-- The tree with only a root view. -/
def ofShadowView (shadowView : ShadowView D) : StubViewTree D where
  rootTag := shadowView.tag
  registry := Function.update (fun _ => none) shadowView.tag (some 0)
  views := fun _ => ⟨shadowView, []⟩
  nextAddress := 1

def modify (tree : StubViewTree D) (view : Pointer) (change : StubView D → StubView D) :
    StubViewTree D :=
  { tree with views := Function.update tree.views view (change (tree.views view)) }

def mutateOne [DecidableEq D] (tree : StubViewTree D) (mutation : ShadowViewMutation D) :
    Option (StubViewTree D) :=
  match mutation.type with
  | .create =>
    if mutation.parentShadowView ≠ {} ∨ mutation.oldChildShadowView ≠ {} then none
    else
      let tag := mutation.newChildShadowView.tag
      match tree.registry tag with
      | some _ => none
      | none => some { tree with
          registry := Function.update tree.registry tag (some tree.nextAddress)
          views := Function.update tree.views tree.nextAddress ⟨blankShadowView, []⟩
          nextAddress := tree.nextAddress + 1 }
  | .delete =>
    if mutation.parentShadowView ≠ {} ∨ mutation.newChildShadowView ≠ {} then none
    else
      let tag := mutation.oldChildShadowView.tag
      match tree.registry tag with
      | none => none
      | some _ => some { tree with registry := Function.update tree.registry tag none }
  | .insert =>
    if mutation.oldChildShadowView ≠ {} then none
    else match tree.registry mutation.parentShadowView.tag,
        tree.registry mutation.newChildShadowView.tag with
      | some parentStubView, some childStubView =>
        let tree := tree.modify childStubView (·.update mutation.newChildShadowView)
        if 0 ≤ mutation.index ∧ mutation.index ≤ (tree.views parentStubView).children.length then
          some (tree.modify parentStubView fun parent => { parent with
            children := parent.children.insertIdx mutation.index.toNat childStubView })
        else none
      | _, _ => none
  | .remove =>
    if mutation.newChildShadowView ≠ {} then none
    else match tree.registry mutation.parentShadowView.tag,
        tree.registry mutation.oldChildShadowView.tag with
      | some parentStubView, some childStubView =>
        if mutation.index < 0 then none
        else match (tree.views parentStubView).children[mutation.index.toNat]? with
          | none => none
          | some child =>
            if (tree.views child).shadowView.tag = (tree.views childStubView).shadowView.tag then
              some (tree.modify parentStubView fun parent => { parent with
                children := parent.children.eraseIdx mutation.index.toNat })
            else none
      | _, _ => none
  | .update =>
    if mutation.newChildShadowView.tag ≠ mutation.oldChildShadowView.tag then none
    else match tree.registry mutation.newChildShadowView.tag with
      | none => none
      | some stubView => some (tree.modify stubView (·.update mutation.newChildShadowView))

def mutate [DecidableEq D] (tree : StubViewTree D) :
    List (ShadowViewMutation D) → Option (StubViewTree D)
  | [] => some tree
  | mutation :: rest => (tree.mutateOne mutation).bind fun next => next.mutate rest

/-- The data and the child tags of the view registered under a tag. -/
def describe (tree : StubViewTree D) : Table (ShadowView D) Tag := fun tag =>
  (tree.registry tag).map fun view => ⟨(tree.views view).shadowView,
    (tree.views view).children.map fun child => (tree.views child).shadowView.tag⟩

end StubViewTree

/-! ### Mutations as edits -/

variable (mutation : ShadowViewMutation D)

def editOf : Edit (ShadowView D) Tag :=
  match mutation.type with
  | .create => .create mutation.newChildShadowView.tag
  | .delete => .delete mutation.oldChildShadowView.tag
  | .insert => .insert mutation.parentShadowView.tag mutation.newChildShadowView
      mutation.index.toNat
  | .remove => .remove mutation.parentShadowView.tag mutation.oldChildShadowView.tag
      mutation.index.toNat
  | .update => .update mutation.newChildShadowView

/-- The mutation has the shape that its designated initializer gives it. -/
def Proper : Prop :=
  match mutation.type with
  | .create => mutation.parentShadowView = {} ∧ mutation.oldChildShadowView = {}
  | .delete => mutation.parentShadowView = {} ∧ mutation.newChildShadowView = {}
  | .insert => mutation.oldChildShadowView = {} ∧ 0 ≤ mutation.index
  | .remove => mutation.newChildShadowView = {} ∧ 0 ≤ mutation.index
  | .update => mutation.newChildShadowView.tag = mutation.oldChildShadowView.tag

section Initializers

variable (parent old view : ShadowView D) (index : Nat)

@[simp] theorem editOf_create : editOf (createMutation view) = .create view.tag := rfl

@[simp] theorem editOf_delete : editOf (deleteMutation view) = .delete view.tag := rfl

@[simp] theorem editOf_insert :
    editOf (insertMutation parent view index) = .insert parent.tag view index := rfl

@[simp] theorem editOf_remove :
    editOf (removeMutation parent view index) = .remove parent.tag view.tag index := rfl

@[simp] theorem editOf_update (position : Int) :
    editOf (updateMutation parent old view position) = .update view := rfl

@[simp] theorem proper_create : Proper (createMutation view) := ⟨rfl, rfl⟩

@[simp] theorem proper_delete : Proper (deleteMutation view) := ⟨rfl, rfl⟩

@[simp] theorem proper_insert : Proper (insertMutation parent view index) :=
  ⟨rfl, Int.natCast_nonneg index⟩

@[simp] theorem proper_remove : Proper (removeMutation parent view index) :=
  ⟨rfl, Int.natCast_nonneg index⟩

theorem proper_update (position : Int) (same : view.tag = old.tag) :
    Proper (updateMutation parent old view position) := same

end Initializers

namespace StubViewTree

/-- Views are registered under their own tags, except those just created, which
are not yet anyone's children. -/
structure Good (tree : StubViewTree D) : Prop where
  injective : ∀ a b view, tree.registry a = some view → tree.registry b = some view → a = b
  named : ∀ tag view, tree.registry tag = some view →
    (tree.views view).shadowView.tag = tag ∨ ∀ other, view ∉ (tree.views other).children
  registered : ∀ tag view, tree.registry tag = some view → view < tree.nextAddress
  allocated : ∀ view, ∀ child ∈ (tree.views view).children, child < tree.nextAddress

theorem good_ofShadowView (shadowView : ShadowView D) : Good (ofShadowView shadowView) := by
  have only : ∀ tag view, (ofShadowView shadowView).registry tag = some view →
      tag = shadowView.tag ∧ view = 0 := by
    intro tag view found
    by_cases same : tag = shadowView.tag
    · simp only [ofShadowView, same, update_self, Option.some.injEq] at found
      exact ⟨same, found.symm⟩
    · simp [ofShadowView, update_of_ne same] at found
  refine ⟨?_, ?_, ?_, by simp [ofShadowView]⟩
  · intro a b view foundA foundB
    rw [(only a view foundA).1, (only b view foundB).1]
  · intro tag view found
    exact .inl (only tag view found).1.symm
  · intro tag view found
    rw [(only tag view found).2]
    exact Nat.zero_lt_one

theorem describe_update {tree : StubViewTree D} (good : tree.Good) {view : Pointer}
    {shadowView : ShadowView D} (found : tree.registry shadowView.tag = some view) :
    (tree.modify view (·.update shadowView)).describe = Function.update tree.describe shadowView.tag
        (some ⟨shadowView, (tree.views view).children.map fun child =>
          (tree.views child).shadowView.tag⟩) ∧ (tree.modify view (·.update shadowView)).Good := by
  -- The tags of the children stay, since the view keeps its tag.
  have kids : ∀ other, (tree.views other).children.map (fun child =>
      (Function.update tree.views view ((tree.views view).update shadowView) child).shadowView.tag) =
      (tree.views other).children.map fun child => (tree.views child).shadowView.tag := by
    intro other
    refine map_congr_left fun child member => ?_
    by_cases same : child = view
    · subst same
      rw [update_self]
      rcases good.named _ _ found with named | orphan
      · exact named.symm
      · exact absurd member (orphan other)
    · rw [update_of_ne same]
  have children : ∀ other,
      (Function.update tree.views view ((tree.views view).update shadowView) other).children =
        (tree.views other).children := by
    intro other
    by_cases same : other = view
    · subst same
      rw [update_self]
      rfl
    · rw [update_of_ne same]
  constructor
  -- The description changes at this tag only, as no other tag is registered for the view.
  · funext tag
    by_cases same : tag = shadowView.tag
    · subst same
      simp only [describe, modify, found, Option.map_some, children, kids, update_self]
      rfl
    · rw [update_of_ne same]
      simp only [describe, modify]
      refine Option.map_congr fun other registered => ?_
      have apart : other ≠ view := fun equal =>
        same (good.injective _ _ _ registered (equal ▸ found))
      rw [children, kids, update_of_ne apart]
  · refine ⟨good.injective, ?_, good.registered, ?_⟩
    · intro tag other registered
      simp only [modify, children]
      by_cases same : other = view
      · subst same
        rw [update_self]
        exact .inl (good.injective _ _ _ found registered)
      · rw [update_of_ne same]
        exact good.named tag other registered
    · intro other child member
      simp only [modify, children] at member
      exact good.allocated other child member

theorem describe_children {tree : StubViewTree D} (good : tree.Good) {tag : Tag} {view : Pointer}
    (found : tree.registry tag = some view) (change : List Pointer → List Pointer)
    (listed : ∀ child ∈ change (tree.views view).children, child ∈ (tree.views view).children ∨
        tree.registry (tree.views child).shadowView.tag = some child) :
    (tree.modify view fun stubView =>
        { stubView with children := change stubView.children }).describe =
      Function.update tree.describe tag
        (some ⟨(tree.views view).shadowView, (change (tree.views view).children).map fun child =>
          (tree.views child).shadowView.tag⟩) ∧
      (tree.modify view fun stubView =>
        { stubView with children := change stubView.children }).Good := by
  -- The data of all views stays.
  have data : ∀ other, (Function.update tree.views view
      ⟨(tree.views view).shadowView, change (tree.views view).children⟩ other).shadowView =
      (tree.views other).shadowView := by
    intro other
    by_cases same : other = view
    · subst same
      rw [update_self]
    · rw [update_of_ne same]
  constructor
  · funext other
    by_cases same : other = tag
    · subst same
      simp only [update_self, describe, modify, found, Option.map_some, data]
    · rw [update_of_ne same]
      simp only [describe, modify]
      refine Option.map_congr fun pointer registered => ?_
      have apart : pointer ≠ view := fun equal =>
        same (good.injective _ _ _ registered (equal ▸ found))
      simp only [data, update_of_ne apart]
  -- What may break is that a view without a tag of its own became a child.
  · refine ⟨good.injective, ?_, good.registered, ?_⟩
    · intro name pointer registered
      simp only [modify, data]
      rcases good.named name pointer registered with named | orphan
      · exact .inl named
      · -- A view that becomes a child here is registered under its tag.
        by_cases taken : pointer ∈ change (tree.views view).children
        · rcases listed pointer taken with old | own
          · exact absurd old (orphan view)
          · exact .inl (good.injective _ _ _ own registered)
        · refine .inr fun other => ?_
          by_cases same : other = view
          · rw [same, update_self]
            exact taken
          · rw [update_of_ne same]
            exact orphan other
    · intro other child member
      simp only [modify] at member
      by_cases same : other = view
      · rw [same, update_self] at member
        rcases listed child member with old | own
        · exact good.allocated view child old
        · exact good.registered _ child own
      · rw [update_of_ne same] at member
        exact good.allocated other child member

def Simulates [DecidableEq D] (tree : StubViewTree D) (mutation : ShadowViewMutation D) : Prop :=
  (tree.mutateOne mutation).map describe =
      (editOf mutation).apply tag blankShadowView tree.describe ∧
    ∀ next, tree.mutateOne mutation = some next → next.Good

variable [DecidableEq D] {tree : StubViewTree D}

omit [DecidableEq D] in
theorem describe_none {tag : Tag} (absent : tree.registry tag = none) :
    tree.describe tag = none := by
  rw [describe, absent]
  rfl

omit [DecidableEq D] in
theorem describe_some {tag : Tag} {view : Pointer} (found : tree.registry tag = some view) :
    tree.describe tag = some ⟨(tree.views view).shadowView,
      (tree.views view).children.map fun child => (tree.views child).shadowView.tag⟩ := by
  rw [describe, found]
  rfl

variable {new : ShadowView D} {index : Int}

theorem simulates_create (good : tree.Good) : tree.Simulates ⟨.create, {}, {}, new, index⟩ := by
  unfold Simulates mutateOne
  simp only [ne_eq, not_true_eq_false, or_self, if_false, editOf, Edit.apply]
  cases found : tree.registry new.tag with
  | some view =>
    rw [describe_some found]
    exact ⟨rfl, by simp⟩
  | none =>
    rw [describe_none found]
    -- The fresh view is no one's child, so no other view reads differently.
    have old : ∀ view child, child ∈ (tree.views view).children →
        Function.update tree.views tree.nextAddress ⟨blankShadowView, []⟩ child =
          tree.views child := fun view child member =>
      update_of_ne (Nat.ne_of_lt (good.allocated view child member)) _ _
    have registered : ∀ tag view, tree.registry tag = some view →
        Function.update tree.views tree.nextAddress ⟨blankShadowView, []⟩ view =
          tree.views view := fun tag view known =>
      update_of_ne (Nat.ne_of_lt (good.registered tag view known)) _ _
    constructor
    · simp only [Option.map_some, Option.some.injEq]
      funext tag
      by_cases same : tag = new.tag
      · subst same
        simp [describe]
      · simp only [describe, update_of_ne same]
        refine Option.map_congr fun view known => ?_
        rw [registered tag view known]
        refine congrArg (Entry.mk _) (map_congr_left fun child member => ?_)
        rw [old view child member]
    · rintro next ⟨⟩
      have split : ∀ tag view, Function.update tree.registry new.tag (some tree.nextAddress) tag =
          some view → (tag = new.tag ∧ view = tree.nextAddress) ∨ tree.registry tag = some view := by
        intro tag view known
        by_cases same : tag = new.tag
        · rw [same, update_self] at known
          exact .inl ⟨same, (Option.some.inj known).symm⟩
        · rw [update_of_ne same] at known
          exact .inr known
      have children : ∀ other, ∀ child ∈
          (Function.update tree.views tree.nextAddress ⟨blankShadowView, []⟩ other).children,
          child < tree.nextAddress := by
        intro other child member
        by_cases same : other = tree.nextAddress
        · rw [same, update_self] at member
          simp at member
        · rw [update_of_ne same] at member
          exact good.allocated other child member
      refine ⟨?_, ?_, ?_, ?_⟩
      · intro a b view knownA knownB
        rcases split a view knownA with ⟨sameA, fresh⟩ | oldA
        · rcases split b view knownB with ⟨sameB, -⟩ | oldB
          · rw [sameA, sameB]
          · exact absurd fresh (Nat.ne_of_lt (good.registered b view oldB))
        · rcases split b view knownB with ⟨-, fresh⟩ | oldB
          · exact absurd fresh (Nat.ne_of_lt (good.registered a view oldA))
          · exact good.injective a b view oldA oldB
      · intro tag view known
        rcases split tag view known with ⟨-, rfl⟩ | before
        · exact .inr fun other member => Nat.lt_irrefl _ (children other _ member)
        · rcases good.named tag view before with named | orphan
          · exact .inl ((congrArg (fun stubView => stubView.shadowView.tag)
              (registered tag view before)).trans named)
          · refine .inr fun other member => ?_
            by_cases same : other = tree.nextAddress
            · simp [same] at member
            · simp only [update_of_ne same] at member
              exact orphan other member
      · intro tag view known
        rcases split tag view known with ⟨-, rfl⟩ | before
        · exact Nat.lt_succ_self _
        · exact Nat.lt_succ_of_lt (good.registered tag view before)
      · intro other child member
        exact Nat.lt_succ_of_lt (children other child member)

variable {old : ShadowView D}

theorem simulates_delete (good : tree.Good) : tree.Simulates ⟨.delete, {}, old, {}, index⟩ := by
  unfold Simulates mutateOne
  simp only [ne_eq, not_true_eq_false, or_self, if_false, editOf, Edit.apply]
  cases found : tree.registry old.tag with
  | none =>
    rw [describe_none found]
    exact ⟨rfl, by simp⟩
  | some view =>
    rw [describe_some found]
    constructor
    · simp only [Option.map_some, Option.some.injEq]
      funext tag
      by_cases same : tag = old.tag
      · subst same
        simp [describe]
      · simp [describe, update_of_ne same]
    · rintro next ⟨⟩
      have before : ∀ tag view, Function.update tree.registry old.tag none tag = some view →
          tree.registry tag = some view := by
        intro tag view known
        by_cases same : tag = old.tag
        · rw [same, update_self] at known
          cases known
        · rw [update_of_ne same] at known
          exact known
      exact ⟨fun a b view knownA knownB => good.injective a b view (before a view knownA)
          (before b view knownB), fun tag view known => good.named tag view (before tag view known),
        fun tag view known => good.registered tag view (before tag view known), good.allocated⟩

variable {parent : ShadowView D}

theorem simulates_update (good : tree.Good)
    (same : new.tag = old.tag) : tree.Simulates ⟨.update, parent, old, new, index⟩ := by
  unfold Simulates mutateOne
  simp only [ne_eq, same, not_true_eq_false, if_false, editOf, Edit.apply]
  rw [← same]
  cases found : tree.registry new.tag with
  | none =>
    rw [describe_none found]
    exact ⟨rfl, by simp⟩
  | some =>
    obtain ⟨described, stays⟩ := describe_update good found
    rw [describe_some found]
    exact ⟨by rw [Option.map_some, described], by rintro next ⟨⟩; exact stays⟩

theorem simulates_insert (good : tree.Good)
    (natural : 0 ≤ index) : tree.Simulates ⟨.insert, parent, {}, new, index⟩ := by
  unfold Simulates mutateOne
  simp only [ne_eq, not_true_eq_false, if_false, editOf, Edit.apply, natural, true_and]
  -- Both views must be registered, as the edit demands.
  cases foundParent : tree.registry parent.tag with
  | none =>
    rw [describe_none foundParent]
    exact ⟨rfl, by simp⟩
  | some parentView =>
    rw [describe_some foundParent]
    cases found : tree.registry new.tag with
    | none =>
      rw [describe_none found]
      exact ⟨rfl, by simp⟩
    | some view =>
      obtain ⟨described, stays⟩ := describe_update good found
      rw [describe_some found]
      simp only [← described]
      have parentNow : (tree.modify view (·.update new)).registry parent.tag = some parentView :=
        foundParent
      -- Once updated, the child has the tag it is registered with.
      have own : (tree.modify view (·.update new)).registry
          ((tree.modify view (·.update new)).views view).shadowView.tag = some view := by
        simpa [modify, StubView.update] using found
      rw [describe_some parentNow]
      simp only [length_map]
      -- The index is compared with the number of children after the update.
      by_cases fits : index ≤ ((tree.modify view (·.update new)).views parentView).children.length
      · rw [if_pos fits, if_pos (by omega)]
        obtain ⟨inserted, again⟩ := describe_children stays parentNow
          (fun children => children.insertIdx index.toNat view)
          (fun child member => by
            rcases eq_or_mem_of_mem_insertIdx member with rfl | old
            · exact .inr own
            · exact .inl old)
        refine ⟨?_, by rintro next ⟨⟩; exact again⟩
        rw [Option.map_some, inserted, map_insertIdx]
        simp [modify, StubView.update]
      · rw [if_neg fits, if_neg (by omega)]
        exact ⟨rfl, by simp⟩

theorem simulates_remove (good : tree.Good)
    (natural : 0 ≤ index) : tree.Simulates ⟨.remove, parent, old, {}, index⟩ := by
  unfold Simulates mutateOne
  simp only [ne_eq, not_true_eq_false, if_false, editOf, Edit.apply,
    if_neg (Int.not_lt.mpr natural)]
  cases foundParent : tree.registry parent.tag with
  | none =>
    rw [describe_none foundParent]
    exact ⟨rfl, by simp⟩
  | some parentView =>
    rw [describe_some foundParent]
    cases found : tree.registry old.tag with
    | none =>
      rw [describe_none found]
      exact ⟨rfl, by simp⟩
    | some view =>
      rw [describe_some found]
      simp only [getElem?_map]
      cases at_ : (tree.views parentView).children[index.toNat]? with
      | none => exact ⟨by simp, by simp⟩
      | some child =>
        simp only [Option.map_some, Option.some.injEq]
        by_cases same : (tree.views child).shadowView.tag = (tree.views view).shadowView.tag
        · rw [if_pos same, if_pos same]
          obtain ⟨erased, again⟩ := describe_children good foundParent
            (fun children => children.eraseIdx index.toNat)
            (fun child member => .inl (mem_of_mem_eraseIdx member))
          refine ⟨?_, by rintro next ⟨⟩; exact again⟩
          rw [Option.map_some, erased, eraseIdx_map]
        · rw [if_neg same, if_neg same]
          exact ⟨rfl, by simp⟩

theorem simulates (good : tree.Good) {mutation : ShadowViewMutation D} (proper : Proper mutation) :
    tree.Simulates mutation := by
  obtain ⟨type, parent, old, new, index⟩ := mutation
  cases type with
  | create =>
    obtain ⟨rfl, rfl⟩ : parent = {} ∧ old = {} := proper
    exact simulates_create good
  | delete =>
    obtain ⟨rfl, rfl⟩ : parent = {} ∧ new = {} := proper
    exact simulates_delete good
  | insert =>
    obtain ⟨rfl, natural⟩ : old = {} ∧ 0 ≤ index := proper
    exact simulates_insert good natural
  | remove =>
    obtain ⟨rfl, natural⟩ : new = {} ∧ 0 ≤ index := proper
    exact simulates_remove good natural
  | update => exact simulates_update good proper

theorem mutate_describe {mutations : List (ShadowViewMutation D)}
    (proper : ∀ mutation ∈ mutations, Proper mutation) (good : tree.Good) :
    (tree.mutate mutations).map describe =
        KeyedTree.run tag blankShadowView (mutations.map editOf) tree.describe ∧
      ∀ next, tree.mutate mutations = some next → next.Good := by
  induction mutations generalizing tree with
  | nil => exact ⟨rfl, by rintro next ⟨⟩; exact good⟩
  | cons mutation _ ih =>
    obtain ⟨step, stays⟩ := simulates good (proper mutation (by simp))
    simp only [mutate, map_cons, KeyedTree.run, ← step]
    cases once : tree.mutateOne mutation with
    | none => exact ⟨rfl, by simp⟩
    | some next =>
      exact ih (fun other member => proper other (by simp [member])) (stays next once)

end StubViewTree

section Stubs

variable (arrange : List (ShadowViewNodePair D) → List (ShadowViewNodePair D))

def mutationsForNewPairs (recursion : ShadowView D → List (ShadowViewNodePair D) →
      Option (List (ShadowViewMutation D))) (parentShadowView : ShadowView D) :
    List (ShadowViewNodePair D × Nat) → Option (List (ShadowViewMutation D))
  | [] => some []
  | (newChildPair, index) :: rest => do
    let below ← recursion newChildPair.shadowView
      (sliceChildShadowNodeViewPairs newChildPair.shadowNode)
    let later ← mutationsForNewPairs recursion parentShadowView rest
    return createMutation newChildPair.shadowView ::
      insertMutation parentShadowView newChildPair.shadowView index :: below ++ later

/-- Generates `create` and `insert` instructions recursively. The source visits
a slice as it is (`arrange` is the identity); the differentiator sorts it first
(`reorderInPlaceIfNeeded`). -/
def calculateShadowViewMutationsForNewTree : Nat → ShadowView D → List (ShadowViewNodePair D) →
    Option (List (ShadowViewMutation D))
  | 0, _, _ => none
  | fuel + 1, parentShadowView, newChildPairs =>
    mutationsForNewPairs (calculateShadowViewMutationsForNewTree fuel) parentShadowView
      (arrange newChildPairs).zipIdx

/-- A root node has no state of its own, so its clone differs in the children only. -/
def stubViewTreeFromShadowNode [DecidableEq D] (rootShadowNode : ShadowNode D) :
    Option (StubViewTree D) := do
  let mutations ← calculateShadowViewMutationsForNewTree arrange rootShadowNode.height
    (ofShadowNode rootShadowNode) (sliceChildShadowNodeViewPairs rootShadowNode)
  let emptyRootShadowNode := rootShadowNode.clone rootShadowNode.getState { children := some [] } 0
  (StubViewTree.ofShadowView (ofShadowNode emptyRootShadowNode)).mutate mutations

end Stubs

def Renders (mutations : List (ShadowViewMutation D)) (edits : List (Edit (ShadowView D) Tag)) :
    Prop :=
  (∀ mutation ∈ mutations, Proper mutation) ∧ mutations.map editOf = edits

theorem Renders.append {first second : List (ShadowViewMutation D)}
    {edits edits' : List (Edit (ShadowView D) Tag)} (left : Renders first edits)
    (right : Renders second edits') : Renders (first ++ second) (edits ++ edits') := by
  refine ⟨fun mutation member => ?_, by rw [map_append, left.2, right.2]⟩
  rcases mem_append.mp member with here | later
  · exact left.1 mutation here
  · exact right.1 mutation later

theorem mutationsForNewPairs_renders
    {recursion : ShadowView D → List (ShadowViewNodePair D) → Option (List (ShadowViewMutation D))}
    (parentShadowView : ShadowView D) (pairs : List (ShadowViewNodePair D)) (index : Nat)
    (each : ∀ pair ∈ pairs, ∃ mutations, recursion pair.shadowView
        (sliceChildShadowNodeViewPairs pair.shadowNode) = some mutations ∧
      Renders mutations
        (growForest tag pair.shadowView.tag 0 (viewForest pair.shadowNode))) :
    ∃ mutations, mutationsForNewPairs recursion parentShadowView (pairs.zipIdx index) =
        some mutations ∧
      Renders mutations (growForest tag parentShadowView.tag index
        (pairs.map ShadowViewNodePair.tree)) := by
  induction pairs generalizing index with
  | nil => exact ⟨[], rfl, by simp, rfl⟩
  | cons pair _ ih =>
    obtain ⟨_, belowEq, belowRenders⟩ := each pair (by simp)
    obtain ⟨_, laterEq, laterRenders⟩ :=
      ih (index + 1) (fun other member => each other (by simp [member]))
    have head : Renders [createMutation pair.shadowView,
        insertMutation parentShadowView pair.shadowView index]
        [.create pair.shadowView.tag,
          .insert parentShadowView.tag pair.shadowView index] := ⟨by simp, by simp⟩
    refine ⟨_, ?_, (head.append belowRenders).append laterRenders⟩
    simp [mutationsForNewPairs, belowEq, laterEq]

theorem calculateShadowViewMutationsForNewTree_renders (fuel : Nat)
    (parentShadowView : ShadowView D) (shadowNode : ShadowNode D)
    (enough : forestHeight (viewForest shadowNode) < fuel) :
    ∃ mutations, calculateShadowViewMutationsForNewTree reorderInPlaceIfNeeded fuel
        parentShadowView (sliceChildShadowNodeViewPairs shadowNode) = some mutations ∧
      Renders mutations
        (growForest tag parentShadowView.tag 0 (viewForest shadowNode)) := by
  induction fuel generalizing parentShadowView shadowNode with
  | zero => omega
  | succ fuel ih =>
    rw [viewForest_eq] at enough ⊢
    refine mutationsForNewPairs_renders parentShadowView _ 0 fun pair member => ?_
    have height := height_le_forestHeight (mem_map_of_mem (f := ShadowViewNodePair.tree) member)
    rw [height_eq] at height
    refine ih pair.shadowView pair.shadowNode ?_
    simp only [ShadowViewNodePair.tree] at height
    omega

theorem stubViewTreeFromShadowNode_represents [DecidableEq D] (rootShadowNode : ShadowNode D)
    (distinct : Distinct tag rootShadowNode.getTag (viewForest rootShadowNode)) :
    ∃ tree, stubViewTreeFromShadowNode reorderInPlaceIfNeeded rootShadowNode = some tree ∧
      tree.Good ∧ Represents tag tree.describe (ofShadowNode rootShadowNode)
        (viewForest rootShadowNode) := by
  obtain ⟨_, calculated, proper, edits⟩ := calculateShadowViewMutationsForNewTree_renders
    rootShadowNode.height (ofShadowNode rootShadowNode) rootShadowNode
    (viewForest_height rootShadowNode)
  have good := StubViewTree.good_ofShadowView (ofShadowNode rootShadowNode)
  have lone : Represents tag
      (StubViewTree.ofShadowView (ofShadowNode rootShadowNode)).describe
      (ofShadowNode rootShadowNode) [] := by
    refine ⟨by simp [StubViewTree.describe, StubViewTree.ofShadowView], by simp, ?_⟩
    intro tag other _
    simp [StubViewTree.describe, StubViewTree.ofShadowView, update_of_ne other]
  obtain ⟨_, ran, represents⟩ := lone.grown blankShadowView distinct
  obtain ⟨described, stays⟩ := StubViewTree.mutate_describe proper good
  rw [edits, show (ofShadowNode rootShadowNode).tag = rootShadowNode.getTag from rfl]
    at described
  rw [show tag (ofShadowNode rootShadowNode) = rootShadowNode.getTag from rfl,
    ← described] at ran
  obtain ⟨tree, mutated, rfl⟩ := Option.map_eq_some_iff.mp ran
  refine ⟨tree, ?_, stays tree mutated, represents⟩
  simp only [stubViewTreeFromShadowNode, calculated, Option.bind_eq_bind, Option.bind_some]
  exact mutated

end ReactNative


