import ReactNative.Core.ShadowNode
import ReactNative.Foundation.DiffScripts
import ReactNative.Foundation.Runs

/-! After a commit `updateMountedFlag` walks the old and the new tree and calls `setMounted` on
nodes that enter and leave. The calls count in the event emitter of the family. -/
namespace ReactNative

open KeyedTree Option

variable {D : Type}

structure EventEmitter where
  enableCounter : Int := 0
  isEnabled : Bool := false
  /-- The enabled flag of the event target, as long as the emitter retains it. -/
  eventTarget : Option Bool := some false

def EventEmitter.setEnabled (emitter : EventEmitter) (enabled : Bool) : EventEmitter :=
  let enableCounter := emitter.enableCounter + if enabled then 1 else -1
  let shouldBeEnabled : Bool := enableCounter > 0
  let eventTarget := if emitter.isEnabled ≠ shouldBeEnabled then
      emitter.eventTarget.map fun _ => shouldBeEnabled
    else emitter.eventTarget
  let shouldBeRetained : Bool := enableCounter > 0
  let eventTarget := if shouldBeRetained ≠ eventTarget.isSome ∧ ¬ shouldBeRetained then none
    else eventTarget
  { enableCounter, isEnabled := shouldBeEnabled, eventTarget }

/-- What the families of a surface own: the state committed last, with the flag
of each state object (a state belongs to one family), and the event emitters. -/
structure Families (D : Type) where
  mostRecentState : ShadowNodeFamily → Option (State D) := fun _ => none
  isObsolete : ShadowNodeFamily → Pointer → Bool := fun _ _ => false
  eventEmitter : ShadowNodeFamily → EventEmitter := fun _ => {}

namespace Families

variable (families : Families D)

/-- Old states are not recommitted on top of fresher ones. -/
def setMostRecentState (family : ShadowNodeFamily) (state : Option (State D)) : Families D :=
  if state.any fun state => families.isObsolete family state.address then families
  else
    let isObsolete := match families.mostRecentState family with
      | some recent => Function.update (families.isObsolete family) recent.address true
      | none => families.isObsolete family
    { families with
      isObsolete := Function.update families.isObsolete family isObsolete
      mostRecentState := Function.update families.mostRecentState family state }

/-- A call of `setMounted` on a node. -/
abbrev MountCall (D : Type) := ShadowNode D × Bool

def setMounted (call : MountCall D) : Families D :=
  let (node, mounted) := call
  let families := if mounted then families.setMostRecentState node.getFamily node.getState
    else families
  { families with
    eventEmitter := Function.update families.eventEmitter node.getFamily
      ((families.eventEmitter node.getFamily).setEnabled mounted) }

def setAllMounted (calls : List (MountCall D)) : Families D := calls.foldl setMounted families

end Families

open Families

section Walk

variable [DecidableEq D]
  (recursion : List (ShadowNode D) → List (ShadowNode D) → Option (List (MountCall D)))

/-- Stage 1: mount and unmount "updated" children. The calls, and the children
that the stage does not reach. -/
def updateMountedChildren : List (ShadowNode D) → List (ShadowNode D) →
    Option (List (MountCall D) × List (ShadowNode D) × List (ShadowNode D))
  | oldChild :: oldRest, newChild :: newRest =>
    if oldChild = newChild then
      -- Nodes are identical, skipping the subtree.
      updateMountedChildren oldRest newRest
    else if ¬ oldChild.sameFamily newChild then
      -- Totally different nodes, updating is impossible.
      some ([], oldChild :: oldRest, newChild :: newRest)
    else do
      let below ← recursion oldChild.getChildren newChild.getChildren
      let (calls, rest) ← updateMountedChildren oldRest newRest
      return ((newChild, true) :: (oldChild, false) :: below ++ calls, rest)
  | oldChildren, newChildren => some ([], oldChildren, newChildren)

/-- Stage 2: mount new children. -/
def mountChildren : List (ShadowNode D) → Option (List (MountCall D))
  | [] => some []
  | newChild :: rest => do
    let below ← recursion [] newChild.getChildren
    let calls ← mountChildren rest
    return (newChild, true) :: below ++ calls

/-- Stage 3: unmount old children. -/
def unmountChildren : List (ShadowNode D) → Option (List (MountCall D))
  | [] => some []
  | oldChild :: rest => do
    let below ← recursion oldChild.getChildren []
    let calls ← unmountChildren rest
    return (oldChild, false) :: below ++ calls

/-- The `setMounted` calls in their order. Two lists at one address are equal, and
equal lists lead to no calls. -/
def updateMountedFlag : Nat → List (ShadowNode D) → List (ShadowNode D) →
    Option (List (MountCall D))
  | 0, _, _ => none
  | fuel + 1, oldChildren, newChildren =>
    if oldChildren = newChildren then some []
    else if oldChildren.length = 0 ∧ newChildren.length = 0 then some []
    else do
      let (updated, oldRest, newRest) ←
        updateMountedChildren (updateMountedFlag fuel) oldChildren newChildren
      let mounted ← mountChildren (updateMountedFlag fuel) newRest
      let unmounted ← unmountChildren (updateMountedFlag fuel) oldRest
      return updated ++ mounted ++ unmounted

end Walk

/-! ### What happens to one family -/

variable (family : ShadowNodeFamily)

def flagsOf (calls : List (MountCall D)) : List Bool :=
  (calls.filter fun call => call.1.getFamily = family).map Prod.snd

@[simp] theorem flagsOf_nil : flagsOf family ([] : List (MountCall D)) = [] := rfl

@[simp] theorem flagsOf_append (first second : List (MountCall D)) :
    flagsOf family (first ++ second) = flagsOf family first ++ flagsOf family second := by
  simp [flagsOf]

variable {node : ShadowNode D} {mounted : Bool} {rest : List (MountCall D)}

theorem flagsOf_cons_same {family : ShadowNodeFamily} (same : node.getFamily = family) :
    flagsOf family ((node, mounted) :: rest) = mounted :: flagsOf family rest := by
  simp [flagsOf, same]

theorem flagsOf_cons_other {family : ShadowNodeFamily} (other : node.getFamily ≠ family) :
    flagsOf family ((node, mounted) :: rest) = flagsOf family rest := by
  simp [flagsOf, other]

/-- A family of both trees is skipped or mounted before it is unmounted; one that
enters is mounted once, one that leaves is unmounted once. -/
structure Toggled (old new : List (ShadowNode D)) (flags : List Bool) : Prop where
  both : family ∈ keys familyOf old → family ∈ keys familyOf new →
    flags = [] ∨ flags = [true, false]
  enters : family ∉ keys familyOf old → family ∈ keys familyOf new → flags = [true]
  leaves : family ∈ keys familyOf old → family ∉ keys familyOf new → flags = [false]
  absent : family ∉ keys familyOf old → family ∉ keys familyOf new → flags = []

namespace Toggled

variable {family : ShadowNodeFamily} {old new old' new' : List (ShadowNode D)}
  {flags flags' : List Bool}

theorem congr (toggled : Toggled family old new flags)
    (inOld : family ∈ keys familyOf old ↔ family ∈ keys familyOf old')
    (inNew : family ∈ keys familyOf new ↔ family ∈ keys familyOf new') :
    Toggled family old' new' flags := by
  obtain ⟨both, enters, leaves, absent⟩ := toggled
  rw [inOld, inNew] at both enters leaves absent
  exact ⟨both, enters, leaves, absent⟩

theorem append (first : Toggled family old new flags) (second : Toggled family old' new' flags')
    (apart : family ∈ keys familyOf old ∨ family ∈ keys familyOf new →
      family ∉ keys familyOf old' ∧ family ∉ keys familyOf new') :
    Toggled family (old ++ old') (new ++ new') (flags ++ flags') := by
  by_cases here : family ∈ keys familyOf old ∨ family ∈ keys familyOf new
  · obtain ⟨notOld, notNew⟩ := apart here
    rw [second.absent notOld notNew, List.append_nil]
    refine first.congr ?_ ?_
    · simp [keys_append, notOld]
    · simp [keys_append, notNew]
  · obtain ⟨notOld, notNew⟩ := not_or.mp here
    rw [first.absent notOld notNew, List.nil_append]
    refine second.congr ?_ ?_
    · simp [keys_append, notOld]
    · simp [keys_append, notNew]

theorem exchange (mounted : Toggled family [] new flags) (unmounted : Toggled family old [] flags') :
    Toggled family old new (flags ++ flags') := by
  have nothing : family ∉ keys familyOf ([] : List (ShadowNode D)) := by simp
  constructor
  · intro inOld inNew
    rw [mounted.enters nothing inNew, unmounted.leaves inOld nothing]
    exact .inr rfl
  · intro notOld inNew
    rw [mounted.enters nothing inNew, unmounted.absent notOld nothing]
    rfl
  · intro inOld notNew
    rw [mounted.absent nothing notNew, unmounted.leaves inOld nothing]
    rfl
  · intro notOld notNew
    rw [mounted.absent nothing notNew, unmounted.absent notOld nothing]
    rfl

end Toggled

/-- Old and new children of one parent: families are distinct and keep their parent. -/
structure Comparable (parent : ShadowNodeFamily) (old new : List (ShadowNode D)) : Prop where
  distinctOld : Distinct familyOf parent old
  distinctNew : Distinct familyOf parent new
  parents : SameParents familyOf parent old new

namespace Comparable

variable {parent : ShadowNodeFamily} {old new : List (ShadowNode D)} {o n : ShadowNode D}

theorem children (comparable : Comparable parent old new) (oldMem : o ∈ old) (newMem : n ∈ new)
    (same : o.getFamily = n.getFamily) : Comparable n.getFamily o.getChildren n.getChildren := by
  have distinct := comparable.distinctOld.children oldMem
  rw [show familyOf o.label = n.getFamily from same] at distinct
  exact ⟨distinct, comparable.distinctNew.children newMem,
    comparable.parents.children oldMem newMem same⟩

theorem new_children (comparable : Comparable parent old new) (newMem : n ∈ new) :
    Comparable n.getFamily [] n.getChildren :=
  ⟨distinct_nil _, comparable.distinctNew.children newMem, SameParents.nil_left _⟩

theorem old_children (comparable : Comparable parent old new) (oldMem : o ∈ old) :
    Comparable o.getFamily o.getChildren [] :=
  ⟨comparable.distinctOld.children oldMem, distinct_nil _, (SameParents.nil_left _).symm⟩

theorem tail (comparable : Comparable parent (o :: old) (n :: new)) :
    Comparable parent old new := by
  have lift : ∀ (first : ShadowNode D) {rest : List (ShadowNode D)} {a k : ShadowNodeFamily},
      ParentOf familyOf parent rest a k → ParentOf familyOf parent (first :: rest) a k := by
    rintro first rest a k (⟨rfl, member⟩ | ⟨node, member, found⟩)
    · exact .inl ⟨rfl, List.mem_cons_of_mem _ member⟩
    · exact .inr ⟨node, List.mem_append_right _ member, found⟩
  exact ⟨comparable.distinctOld.tail, comparable.distinctNew.tail,
    fun k a b inOld inNew => comparable.parents k a b (lift o inOld) (lift n inNew)⟩

theorem apart (comparable : Comparable parent (o :: old) (n :: new))
    (same : o.getFamily = n.getFamily) {family : ShadowNodeFamily}
    (here : family ∈ keys familyOf [o] ∨ family ∈ keys familyOf [n]) :
    family ∉ keys familyOf old ∧ family ∉ keys familyOf new := by
  rcases here with inOld | inNew
  · refine ⟨comparable.distinctOld.head_apart inOld, fun inRest => ?_⟩
    obtain ⟨b, bMem, bKey, bRegion⟩ := comparable.parents.region_stays comparable.distinctOld
      comparable.distinctNew (by simp) (mem_keys_singleton.mp inOld)
      (by rw [keys_cons]; exact List.mem_append_right _ inRest)
    have equal := comparable.distinctNew.tree_unique bMem (List.mem_cons_self) (bKey.trans same)
    exact comparable.distinctNew.head_apart (mem_keys_singleton.mpr (equal ▸ bRegion)) inRest
  · refine ⟨fun inRest => ?_, comparable.distinctNew.head_apart inNew⟩
    obtain ⟨b, bMem, bKey, bRegion⟩ := comparable.parents.symm.region_stays comparable.distinctNew
      comparable.distinctOld (by simp) (mem_keys_singleton.mp inNew)
      (by rw [keys_cons]; exact List.mem_append_right _ inRest)
    have equal := comparable.distinctOld.tree_unique bMem (List.mem_cons_self)
      (bKey.trans same.symm)
    exact comparable.distinctOld.head_apart (mem_keys_singleton.mpr (equal ▸ bRegion)) inRest

end Comparable

section Stages

variable {recursion : List (ShadowNode D) → List (ShadowNode D) → Option (List (MountCall D))}

/-- The walk over two lists of children toggles every family as it should. -/
def Answered (recursion : List (ShadowNode D) → List (ShadowNode D) → Option (List (MountCall D)))
    (old new : List (ShadowNode D)) : Prop :=
  ∃ calls, recursion old new = some calls ∧ ∀ family, Toggled family old new (flagsOf family calls)

variable {calls : List (MountCall D)} {family : ShadowNodeFamily}

theorem toggled_mount {n : ShadowNode D} (fresh : n.getFamily ∉ keys familyOf n.getChildren)
    (below : Toggled family [] n.getChildren (flagsOf family calls)) :
    Toggled family [] [n] (flagsOf family ((n, true) :: calls)) := by
  have nothing : family ∉ keys familyOf ([] : List (ShadowNode D)) := by simp
  by_cases same : n.getFamily = family
  · rw [flagsOf_cons_same same, below.absent nothing (same ▸ fresh)]
    have present : family ∈ keys familyOf [n] := mem_keys_singleton.mpr (.inl same)
    exact ⟨fun absurdly => absurd absurdly nothing, fun _ _ => rfl,
      fun absurdly => absurd absurdly nothing, fun _ absent => absurd present absent⟩
  · rw [flagsOf_cons_other same]
    refine below.congr Iff.rfl ?_
    exact (mem_keys_singleton.trans (or_iff_right same)).symm

theorem toggled_unmount {o : ShadowNode D} (fresh : o.getFamily ∉ keys familyOf o.getChildren)
    (below : Toggled family o.getChildren [] (flagsOf family calls)) :
    Toggled family [o] [] (flagsOf family ((o, false) :: calls)) := by
  have nothing : family ∉ keys familyOf ([] : List (ShadowNode D)) := by simp
  by_cases same : o.getFamily = family
  · rw [flagsOf_cons_same same, below.absent (same ▸ fresh) nothing]
    have present : family ∈ keys familyOf [o] := mem_keys_singleton.mpr (.inl same)
    exact ⟨fun _ absurdly => absurd absurdly nothing, fun absent => absurd present absent,
      fun _ _ => rfl, fun absent => absurd present absent⟩
  · rw [flagsOf_cons_other same]
    refine below.congr ?_ Iff.rfl
    exact (mem_keys_singleton.trans (or_iff_right same)).symm

theorem toggled_update {o n : ShadowNode D} (sameFamily : o.getFamily = n.getFamily)
    (freshOld : o.getFamily ∉ keys familyOf o.getChildren)
    (freshNew : n.getFamily ∉ keys familyOf n.getChildren)
    (below : Toggled family o.getChildren n.getChildren (flagsOf family calls)) :
    Toggled family [o] [n] (flagsOf family ((n, true) :: (o, false) :: calls)) := by
  by_cases same : n.getFamily = family
  · have sameOld := sameFamily.trans same
    rw [flagsOf_cons_same same, flagsOf_cons_same sameOld,
      below.absent (sameOld ▸ freshOld) (same ▸ freshNew)]
    have inOld : family ∈ keys familyOf [o] := mem_keys_singleton.mpr (.inl sameOld)
    have inNew : family ∈ keys familyOf [n] := mem_keys_singleton.mpr (.inl same)
    exact ⟨fun _ _ => .inr rfl, fun absent => absurd inOld absent, fun _ absent => absurd inNew absent,
      fun absent => absurd inOld absent⟩
  · have otherOld : o.getFamily ≠ family := fun equal => same (sameFamily.symm.trans equal)
    rw [flagsOf_cons_other same, flagsOf_cons_other otherOld]
    refine below.congr ?_ ?_
    · exact (mem_keys_singleton.trans (or_iff_right otherOld)).symm
    · exact (mem_keys_singleton.trans (or_iff_right same)).symm

variable {parent : ShadowNodeFamily}

theorem mountChildren_answered (new : List (ShadowNode D)) (distinct : Distinct familyOf parent new)
    (each : ∀ n ∈ new, Answered recursion [] (ShadowNode.getChildren n)) :
    ∃ calls, mountChildren recursion new = some calls ∧
      ∀ family, Toggled family [] new (flagsOf family calls) := by
  induction new with
  | nil => exact ⟨[], rfl, fun family => by constructor <;> simp⟩
  | cons n _ ih =>
    obtain ⟨below, belowEq, belowToggled⟩ := each n (by simp)
    obtain ⟨calls, callsEq, toggled⟩ := ih distinct.tail
      fun other member => each other (by simp [member])
    refine ⟨(n, true) :: below ++ calls, by simp [mountChildren, belowEq, callsEq], fun family => ?_⟩
    rw [flagsOf_append]
    have fresh := (distinct.children (List.mem_cons_self)).root_not_mem
    refine (toggled_mount fresh (belowToggled family)).append (toggled family) fun here => ?_
    exact ⟨by simp, distinct.head_apart (by simpa using here)⟩

theorem unmountChildren_answered (old : List (ShadowNode D))
    (distinct : Distinct familyOf parent old)
    (each : ∀ o ∈ old, Answered recursion (ShadowNode.getChildren o) []) :
    ∃ calls, unmountChildren recursion old = some calls ∧
      ∀ family, Toggled family old [] (flagsOf family calls) := by
  induction old with
  | nil => exact ⟨[], rfl, fun family => by constructor <;> simp⟩
  | cons o _ ih =>
    obtain ⟨below, belowEq, belowToggled⟩ := each o (by simp)
    obtain ⟨calls, callsEq, toggled⟩ := ih distinct.tail
      fun other member => each other (by simp [member])
    refine ⟨(o, false) :: below ++ calls, by simp [unmountChildren, belowEq, callsEq],
      fun family => ?_⟩
    rw [flagsOf_append]
    have fresh := (distinct.children (List.mem_cons_self)).root_not_mem
    refine (toggled_unmount fresh (belowToggled family)).append (toggled family) fun here => ?_
    exact ⟨distinct.head_apart (by simpa using here), by simp⟩

variable [DecidableEq D]

theorem updateMountedChildren_answered (old new : List (ShadowNode D))
    (comparable : Comparable parent old new)
    (each : ∀ o n : ShadowNode D, o ∈ old → n ∈ new → o.getFamily = n.getFamily →
      Answered recursion o.getChildren n.getChildren) :
    ∃ calls oldRest newRest, updateMountedChildren recursion old new =
        some (calls, oldRest, newRest) ∧
      Comparable parent oldRest newRest ∧ oldRest ⊆ old ∧ newRest ⊆ new ∧
      ∀ family flags, Toggled family oldRest newRest flags →
        Toggled family old new (flagsOf family calls ++ flags) := by
  -- Induction over the old children; the walk stops at the first pair of different families.
  induction old generalizing new with
  | nil =>
    exact ⟨[], [], new, rfl, comparable, List.Subset.refl _, List.Subset.refl _,
      fun _ _ toggled => toggled⟩
  | cons o oldTail ih =>
    cases new with
    | nil =>
      exact ⟨[], o :: oldTail, [], rfl, comparable, List.Subset.refl _, List.Subset.refl _,
        fun _ _ toggled => toggled⟩
    | cons n newTail =>
      by_cases differ : o.getFamily ≠ n.getFamily
      · have distinctNodes : o ≠ n := fun same => differ (congrArg ShadowNode.getFamily same)
        refine ⟨[], o :: oldTail, n :: newTail, ?_, comparable, List.Subset.refl _,
          List.Subset.refl _, fun _ _ toggled => toggled⟩
        simp [updateMountedChildren, distinctNodes, ShadowNode.sameFamily, differ]
      · rw [not_not] at differ
        obtain ⟨calls, oldRest, newRest, callsEq, restComparable, oldSub, newSub, completes⟩ :=
          ih newTail comparable.tail fun o' n' oldMem newMem =>
            each o' n' (by simp [oldMem]) (by simp [newMem])
        have oldSub' := List.Subset.trans oldSub (List.subset_cons_self o oldTail)
        have newSub' := List.Subset.trans newSub (List.subset_cons_self n newTail)
        by_cases identical : o = n
        · -- The subtree is skipped; its families are in both trees.
          refine ⟨calls, oldRest, newRest, ?_, restComparable, oldSub', newSub', ?_⟩
          · simp [updateMountedChildren, identical, callsEq]
          · intro family flags toggled
            have skipped : Toggled family [o] [n] [] := by
              rw [identical]
              exact ⟨fun _ _ => .inl rfl, fun absent present => absurd present absent,
                fun present absent => absurd present absent, fun _ _ => rfl⟩
            exact skipped.append (completes family flags toggled) fun here =>
              comparable.apart differ here
        -- Another node of the family: both are toggled, and then the walk goes below.
        · obtain ⟨below, belowEq, belowToggled⟩ := each o n (by simp) (by simp) differ
          refine ⟨(n, true) :: (o, false) :: below ++ calls, oldRest, newRest, ?_, restComparable,
            oldSub', newSub', ?_⟩
          · simp [updateMountedChildren, identical, ShadowNode.sameFamily, differ, belowEq, callsEq]
          · intro family flags toggled
            have freshOld := (comparable.distinctOld.children (List.mem_cons_self)).root_not_mem
            have freshNew := (comparable.distinctNew.children (List.mem_cons_self)).root_not_mem
            rw [flagsOf_append, List.append_assoc]
            exact (toggled_update differ freshOld freshNew (belowToggled family)).append
              (completes family flags toggled) fun here => comparable.apart differ here

/-- **Every family is toggled as it should** by the walk over two comparable lists. -/
theorem updateMountedFlag_answered (fuel : Nat) (parent : ShadowNodeFamily)
    (old new : List (ShadowNode D)) (comparable : Comparable parent old new)
    (heightOld : forestHeight old < fuel) (heightNew : forestHeight new < fuel) :
    Answered (updateMountedFlag fuel) old new := by
  -- Induction on the fuel, which the heights of both trees keep below.
  induction fuel generalizing parent old new with
  | zero => omega
  | succ fuel ih =>
    have below : ∀ {forest : List (ShadowNode D)} {node : ShadowNode D},
        forestHeight forest < fuel + 1 → node ∈ forest →
          forestHeight node.getChildren < fuel ∧ 0 < fuel := by
      intro forest node bound member
      have height := height_le_forestHeight member
      rw [height_eq] at height
      simp only [ShadowNode.getChildren]
      omega
    by_cases identical : old = new
    · refine ⟨[], by rw [updateMountedFlag, if_pos identical], fun family => ?_⟩
      rw [identical]
      exact ⟨fun _ _ => .inl rfl, fun absent present => absurd present absent,
        fun present absent => absurd present absent, fun _ _ => rfl⟩
    · have nonempty : ¬ (old.length = 0 ∧ new.length = 0) := by
        rintro ⟨emptyOld, emptyNew⟩
        exact identical ((List.eq_nil_of_length_eq_zero emptyOld).trans
          (List.eq_nil_of_length_eq_zero emptyNew).symm)
      -- What the three stages toggle adds up, since the latter two only exchange their order.
      obtain ⟨updated, oldRest, newRest, updatedEq, rest, oldSub, newSub, completes⟩ :=
        updateMountedChildren_answered old new comparable fun o n oldMem newMem same =>
          ih n.getFamily o.getChildren n.getChildren (comparable.children oldMem newMem same)
            (below heightOld oldMem).1 (below heightNew newMem).1
      obtain ⟨mounted, mountedEq, mountedToggled⟩ := mountChildren_answered newRest rest.distinctNew
        fun n member => ih _ [] _ (rest.new_children member)
          (below heightNew (newSub member)).2 (below heightNew (newSub member)).1
      obtain ⟨unmounted, unmountedEq, unmountedToggled⟩ := unmountChildren_answered oldRest
        rest.distinctOld fun o member => ih _ _ [] (rest.old_children member)
          (below heightOld (oldSub member)).1 (below heightOld (oldSub member)).2
      refine ⟨updated ++ mounted ++ unmounted, ?_, fun family => ?_⟩
      · rw [updateMountedFlag, if_neg identical, if_neg nonempty]
        simp [updatedEq, mountedEq, unmountedEq]
      · rw [flagsOf_append, flagsOf_append, List.append_assoc]
        exact completes family _ ((mountedToggled family).exchange (unmountedToggled family))

end Stages

/-! ### What the calls do to an emitter -/

theorem setMounted_eventEmitter (families : Families D) (node : ShadowNode D) (mounted : Bool)
    (family : ShadowNodeFamily) :
    (families.setMounted (node, mounted)).eventEmitter family =
      if node.getFamily = family then (families.eventEmitter family).setEnabled mounted
      else families.eventEmitter family := by
  have kept : (if mounted then families.setMostRecentState node.getFamily node.getState
      else families).eventEmitter = families.eventEmitter := by
    unfold setMostRecentState
    split_ifs <;> rfl
  simp only [setMounted, kept, Function.update_apply]
  by_cases same : node.getFamily = family
  · simp [same]
  · rw [if_neg same, if_neg (Ne.symm same)]

theorem setAllMounted_eventEmitter (families : Families D) (calls : List (MountCall D))
    (family : ShadowNodeFamily) :
    (families.setAllMounted calls).eventEmitter family =
      (flagsOf family calls).foldl EventEmitter.setEnabled (families.eventEmitter family) := by
  induction calls generalizing families with
  | nil => rfl
  | cons call rest ih =>
    obtain ⟨node, mounted⟩ := call
    have first : families.setAllMounted ((node, mounted) :: rest) =
        (families.setMounted (node, mounted)).setAllMounted rest := rfl
    rw [first, ih, setMounted_eventEmitter]
    by_cases same : node.getFamily = family
    · rw [if_pos same, flagsOf_cons_same same, List.foldl_cons]
    · rw [if_neg same, flagsOf_cons_other same]

theorem flagsOf_take_prefix (family : ShadowNodeFamily) (calls : List (MountCall D)) (count : Nat) :
    flagsOf family (calls.take count) <+: flagsOf family calls :=
  (List.IsPrefix.filter _ ⟨_, List.take_append_drop count calls⟩).map _

namespace EventEmitter

variable (emitter : EventEmitter)

/-- The emitter of a family that is mounted once, or not at all. -/
def Counts (mounted : Prop) [Decidable mounted] : Prop :=
  emitter.enableCounter = (if mounted then 1 else 0) ∧ emitter.isEnabled = decide mounted

theorem setEnabled_first (counts : emitter.Counts False) :
    (emitter.setEnabled true).Counts True := by
  simp [Counts, setEnabled] at *
  omega

theorem setEnabled_last (counts : emitter.Counts True) :
    (emitter.setEnabled false).Counts False ∧ (emitter.setEnabled false).eventTarget = none := by
  simp [Counts, setEnabled] at *
  simp [counts]

theorem setEnabled_remount (counts : emitter.Counts True)
    {flags : List Bool} (remount : flags <+: [true, false]) :
    0 < (flags.foldl setEnabled emitter).enableCounter ∧
      (flags.foldl setEnabled emitter).eventTarget = emitter.eventTarget := by
  have cases : flags = [] ∨ flags = [true] ∨ flags = [true, false] := by
    obtain ⟨rest, split⟩ := remount
    match flags, rest, split with
    | [], _, _ => exact .inl rfl
    | [_], _, split => simp_all
    | [_, _], _, split => simp_all
  obtain ⟨counter, enabled⟩ := counts
  rcases cases with rfl | rfl | rfl <;> simp_all [setEnabled]

theorem setEnabled_remounted (counts : emitter.Counts True) :
    ([true, false].foldl setEnabled emitter).Counts True := by
  simp_all [setEnabled, Counts]

end EventEmitter

/-! ### Runs of commits -/

/-- The committed children of the root and what their families own. -/
structure MountedTree (D : Type) where
  children : List (ShadowNode D) := []
  families : Families D := {}

namespace MountedTree

/-- A family occurs once and keeps its parent family. -/
def KeepsFamilies (root : ShadowNodeFamily) (tree : MountedTree D)
    (newChildren : List (ShadowNode D)) : Prop :=
  Distinct familyOf root newChildren ∧ SameParents familyOf root tree.children newChildren

/-- Each emitter counts whether its family is in the tree. -/
def EmittersFollow (tree : MountedTree D) : Prop :=
  ∀ family, (tree.families.eventEmitter family).Counts (family ∈ keys familyOf tree.children)

/-- The emitter of a family while the calls are made one by one, and afterwards. -/
structure UpdatesEmitter (tree : MountedTree D) (newChildren : List (ShadowNode D))
    (calls : List (MountCall D)) (family : ShadowNodeFamily) : Prop where
  counts : ((tree.families.setAllMounted calls).eventEmitter family).Counts
    (family ∈ keys familyOf newChildren)
  /-- A family that stays keeps its event target throughout. -/
  stays : family ∈ keys familyOf tree.children → family ∈ keys familyOf newChildren → ∀ count,
      0 < ((tree.families.setAllMounted (calls.take count)).eventEmitter family).enableCounter ∧
      ((tree.families.setAllMounted (calls.take count)).eventEmitter family).eventTarget =
        (tree.families.eventEmitter family).eventTarget
  /-- A family that leaves releases it. -/
  leaves : family ∈ keys familyOf tree.children → family ∉ keys familyOf newChildren →
    ((tree.families.setAllMounted calls).eventEmitter family).eventTarget = none

variable {tree : MountedTree D} {newChildren : List (ShadowNode D)} {calls : List (MountCall D)}

theorem updatesEmitter {family : ShadowNodeFamily}
    (follows : (tree.families.eventEmitter family).Counts (family ∈ keys familyOf tree.children))
    (toggled : Toggled family tree.children newChildren (flagsOf family calls)) :
    UpdatesEmitter tree newChildren calls family := by
  -- Four cases, for where the family was and where it is.
  have final := setAllMounted_eventEmitter tree.families calls family
  by_cases inOld : family ∈ keys familyOf tree.children
  · simp only [inOld] at follows
    by_cases inNew : family ∈ keys familyOf newChildren
    · have flags := toggled.both inOld inNew
      constructor
      · rw [final]
        simp only [inNew]
        rcases flags with skipped | remounted
        · rw [skipped]
          exact follows
        · rw [remounted]
          exact EventEmitter.setEnabled_remounted _ follows
      · intro _ _ count
        rw [setAllMounted_eventEmitter]
        apply EventEmitter.setEnabled_remount _ follows
        have initial := flagsOf_take_prefix family calls count
        rcases flags with skipped | remounted
        · rw [skipped] at initial
          exact initial.trans ( List.nil_prefix)
        · rwa [remounted] at initial
      · intro _ absent
        exact absurd inNew absent
    · have flags := toggled.leaves inOld inNew
      rw [flags] at final
      have last := EventEmitter.setEnabled_last _ follows
      constructor
      · rw [final]
        simp only [inNew]
        exact last.1
      · intro _ present
        exact absurd present inNew
      · intro _ _
        rw [final]
        exact last.2
  · simp only [inOld] at follows
    refine ⟨?_, fun present => absurd present inOld, fun present => absurd present inOld⟩
    rw [final]
    by_cases inNew : family ∈ keys familyOf newChildren
    · rw [toggled.enters inOld inNew]
      simp only [inNew]
      exact EventEmitter.setEnabled_first _ follows
    · rw [toggled.absent inOld inNew]
      simp only [inNew]
      exact follows

variable [DecidableEq D] {root : ShadowNodeFamily}

def mountCalls (old new : List (ShadowNode D)) : Option (List (MountCall D)) :=
  updateMountedFlag (max (forestHeight old) (forestHeight new) + 1) old new

def commit (tree : MountedTree D) (newChildren : List (ShadowNode D)) : Option (MountedTree D) := do
  let calls ← mountCalls tree.children newChildren
  return { children := newChildren, families := tree.families.setAllMounted calls }

theorem commit_follows (distinct : Distinct familyOf root tree.children)
    (follows : tree.EmittersFollow) (keeps : KeepsFamilies root tree newChildren) :
    ∃ calls, mountCalls tree.children newChildren = some calls ∧
      ∀ family, UpdatesEmitter tree newChildren calls family := by
  have comparable : Comparable root tree.children newChildren := ⟨distinct, keeps.1, keeps.2⟩
  obtain ⟨calls, callsEq, toggled⟩ := updateMountedFlag_answered
    (max (forestHeight tree.children) (forestHeight newChildren) + 1) root tree.children newChildren
    comparable (by omega) (by omega)
  exact ⟨calls, callsEq, fun family => updatesEmitter (follows family) (toggled family)⟩

theorem commit_eq (walked : mountCalls tree.children newChildren = some calls) :
    commit tree newChildren = some ⟨newChildren, tree.families.setAllMounted calls⟩ := by
  simp [commit, walked]

theorem run_follows {commits : List (List (ShadowNode D))}
    (distinct : Distinct familyOf root tree.children) (follows : tree.EmittersFollow)
    (keep : Runs.Along commit (KeepsFamilies root) tree commits) :
    ∃ final, Runs.run commit tree commits = some final ∧
      Distinct familyOf root final.children ∧ final.EmittersFollow := by
  refine Runs.run_progress (fun tree newChildren inv keeps => ?_) ⟨distinct, follows⟩ keep
  obtain ⟨calls, walked, updates⟩ := commit_follows inv.1 inv.2 keeps
  exact ⟨_, commit_eq walked, keeps.1, fun family => (updates family).counts⟩

/-- **Event emitters follow mounting.** After any run of commits from an empty root
every counter is one or zero as the family is in the tree or not, and on the way
through any further commit a family that stays is never released. -/
theorem emittersFollow {commits : List (List (ShadowNode D))}
    (keep : Runs.Along commit (KeepsFamilies root) {} commits) :
    ∃ tree, Runs.run commit {} commits = some tree ∧ tree.EmittersFollow ∧
      ∀ newChildren, KeepsFamilies root tree newChildren →
        ∃ calls, mountCalls tree.children newChildren = some calls ∧
          commit tree newChildren = some ⟨newChildren, tree.families.setAllMounted calls⟩ ∧
          ∀ family, UpdatesEmitter tree newChildren calls family := by
  have initially : ({} : MountedTree D).EmittersFollow := by
    intro family
    exact ⟨by simp, by simp⟩
  obtain ⟨tree, ran, distinct, follows⟩ := run_follows (distinct_nil root) initially keep
  refine ⟨tree, ran, follows, fun newChildren keeps => ?_⟩
  obtain ⟨calls, walked, updates⟩ := commit_follows distinct follows keeps
  exact ⟨calls, walked, commit_eq walked, updates⟩

theorem commit_children {next : MountedTree D} (committed : commit tree newChildren = some next) :
    next.children = newChildren := by
  obtain ⟨_, _, result⟩ := bind_eq_some_iff.mp committed
  cases result
  rfl

theorem emittersFollow_reordered : let first := [statefulNode 1 2 none [], statefulNode 2 3 none []]
    let second := [statefulNode 2 3 none [], statefulNode 4 2 none [statefulNode 3 4 none []]]
    let third := [statefulNode 4 2 none [statefulNode 3 4 none []]]
    ∃ tree, Runs.run commit {} [first, second] = some tree ∧ tree.EmittersFollow ∧
      ∃ calls, mountCalls tree.children third = some calls ∧
        ∀ family, UpdatesEmitter tree third calls family := by
  intro first second third
  let root : ShadowNodeFamily := (statefulNode 0 1 none []).getFamily
  have keep : Runs.Along commit (KeepsFamilies root) {} [first, second] := by
    refine ⟨⟨by unfold Distinct; decide, by decide⟩, fun next stepped => ⟨?_, fun _ _ => trivial⟩⟩
    rw [KeepsFamilies, commit_children stepped]
    exact ⟨by unfold Distinct; decide, by decide⟩
  obtain ⟨tree, ran, follows, onwards⟩ := emittersFollow keep
  have reached : tree.children = second := by
    obtain ⟨next, _, rest⟩ := Runs.run_cons.mp ran
    obtain ⟨last, stepped, ⟨⟩⟩ := Runs.run_cons.mp rest
    exact commit_children stepped
  obtain ⟨calls, walked, _, updates⟩ := onwards third (by
    rw [KeepsFamilies, reached]
    exact ⟨by unfold Distinct; decide, by decide⟩)
  exact ⟨tree, ran, follows, calls, walked, updates⟩

end MountedTree

end ReactNative

