import ReactNative.Components.YogaDirty
import ReactNative.Core.ShadowNode
import Mathlib.Algebra.BigOperators.Group.List.Basic
import Mathlib.Tactic.Ring

/-! A node keeps the revision of its state plus the sum of its children. It is computed when the
node is made and adjusted when its own child list changes. -/
namespace ReactNative

open List Option Function

/-- Families are numbers. The states of a heap are told apart by their addresses. -/
structure RevisionHeap (D : Type) where
  heap : NodeHeap := {}
  family : NodeId → ℕ := fun _ => 0
  state : NodeId → Option (State D) := fun _ => none
  stateRevision : NodeId → ℤ := fun _ => 0
  mostRecentState : ℕ → Option (State D) := fun _ => none
  isObsolete : Pointer → Bool := fun _ => false

namespace NodeHeap

theorem replacedIndex_getElem? {children : List NodeId} {oldChild : NodeId} {suggestedIndex : ℤ}
    {index : ℕ} (found : replacedIndex children oldChild suggestedIndex = some index) :
    children[index]? = some oldChild := by
  unfold replacedIndex at found
  split at found
  next accurate =>
    cases found
    exact accurate.2.2.2
  next =>
    obtain ⟨bound, isOld, -⟩ := findIdx?_eq_some_iff_getElem.mp found
    rw [getElem?_eq_getElem bound, of_decide_eq_true isOld]

end NodeHeap

namespace RevisionHeap

variable {D : Type}

def computeStateRevision (state : Option (State D)) (children : List ℤ) : ℤ :=
  (state.elim 0 fun state => (state.revision : ℤ)) + children.sum

def getChildren (nodes : RevisionHeap D) (node : NodeId) : List NodeId := nodes.heap.getChildren node

variable (nodes : RevisionHeap D)

/-- An obsolete state is not committed again. -/
def setMostRecentState (family : ℕ) (state : Option (State D)) : RevisionHeap D :=
  if state.any fun state => nodes.isObsolete state.address then nodes
  else
    { nodes with
      isObsolete := (nodes.mostRecentState family).elim nodes.isObsolete fun replaced =>
        Function.update nodes.isObsolete replaced.address true
      mostRecentState := Function.update nodes.mostRecentState family state }

inductive Call (D : Type) where
  | makeList (contents : List NodeId)
  /-- The first constructor. -/
  | create (family : ℕ) (state : Option (State D)) (children : Option ℕ)
  | clone (source : NodeId) (state : Option (State D)) (children : Option ℕ)
  | appendChild (node child : NodeId)
  | replaceChild (node oldChild newChild : NodeId) (suggestedIndex : ℤ)
  | setMounted (node : NodeId)

def construct (next : NodeHeap) (family : ℕ) (state : Option (State D)) : RevisionHeap D :=
  let node := nodes.heap.nodeCount
  { nodes with
    heap := next
    family := Function.update nodes.family node family
    state := Function.update nodes.state node state
    stateRevision := Function.update nodes.stateRevision node
      (computeStateRevision state ((next.getChildren node).map nodes.stateRevision)) }

/-- A call whose assertions fail has no successor. -/
def step (nodes : RevisionHeap D) : Call D → Option (RevisionHeap D)
  | .makeList contents => (nodes.heap.step (.makeList contents)).map fun next =>
    { nodes with heap := next }
  | .create family state children => (nodes.heap.step (.create children)).map fun next =>
    (nodes.construct next family state).setMostRecentState family state
  | .clone source state children => (nodes.heap.step (.clone source children)).map fun next =>
    nodes.construct next (nodes.family source)
      (state.or (nodes.mostRecentState (nodes.family source)))
  | .appendChild node child => (nodes.heap.step (.appendChild node child)).map fun next =>
    { nodes with
      heap := next
      stateRevision := Function.update nodes.stateRevision node
        (nodes.stateRevision node + nodes.stateRevision child) }
  | .replaceChild node oldChild newChild suggestedIndex =>
    -- asserts that the old child is there
    if (NodeHeap.replacedIndex (nodes.getChildren node) oldChild suggestedIndex).isSome then
      (nodes.heap.step (.replaceChild node oldChild newChild suggestedIndex)).map fun next =>
        { nodes with
          heap := next
          stateRevision := Function.update nodes.stateRevision node (nodes.stateRevision node +
            (nodes.stateRevision newChild - nodes.stateRevision oldChild)) }
    else none
  | .setMounted node =>
    if node < nodes.heap.nodeCount then
      some (nodes.setMostRecentState (nodes.family node) (nodes.state node))
    else none

/-- The revision of a node is that of its state plus those of its children. -/
def ExactAt (node : NodeId) : Prop :=
  nodes.stateRevision node =
    computeStateRevision (nodes.state node) ((nodes.getChildren node).map nodes.stateRevision)

def Exact : Prop := ∀ node < nodes.heap.nodeCount, nodes.ExactAt node

/-- A clone still uses the list that the node copied for itself. -/
def Borrows (heap : NodeHeap) (other node : NodeId) : Prop :=
  (heap.nodes node).childrenAreShared = false ∧
    (heap.nodes other).children = (heap.nodes node).children

/-- Nothing else depends on the node: it is in no child list, its own new one included, and no other
node uses its list. -/
def Detached (node : NodeId) (change : List NodeId → List NodeId) : Prop :=
  node ∉ change (nodes.getChildren node) ∧ ∀ other < nodes.heap.nodeCount, other ≠ node →
      node ∉ nodes.getChildren other ∧ ¬Borrows nodes.heap other node

/-- A mutation changes the sum of a detached node only. -/
def KeepsSums : Call D → Prop
  | .appendChild node child => nodes.stateRevision child = 0 ∨
    nodes.Detached node fun children => children ++ [child]
  | .replaceChild node oldChild newChild suggestedIndex =>
    nodes.stateRevision newChild = nodes.stateRevision oldChild ∨
      nodes.Detached node (NodeHeap.replaceIn oldChild newChild suggestedIndex)
  | _ => True

/-! ### Lists and nodes that were made -/

structure Sane (heap : NodeHeap) : Prop where
  someList : 0 < heap.givenCount
  lists : ∀ address, ∀ child ∈ heap.lists address, child < heap.nodeCount
  given : ∀ node index, (heap.nodes node).children = .given index → index < heap.givenCount
  copied : ∀ node index, (heap.nodes node).children = .copied index → index < heap.copiedCount

theorem sane_empty : Sane {} where
  someList := by decide
  lists := by simp
  given := by
    intro node index same
    cases same
    decide
  copied := by
    intro node index same
    cases same

section Heap

variable {heap next : NodeHeap} {node other : NodeId} {change : List NodeId → List NodeId}

theorem Sane.child_lt (sane : Sane heap) {child : NodeId} (member : child ∈ heap.getChildren node) :
    child < heap.nodeCount := sane.lists _ child member

theorem Sane.makeList (sane : Sane heap) {contents : List NodeId}
    (made : ∀ child ∈ contents, child < heap.nodeCount) : Sane (heap.makeList contents) where
  someList := Nat.succ_pos _
  lists := by
    intro address child member
    by_cases new : address = .given heap.givenCount
    · subst new
      exact made child (by simpa [NodeHeap.makeList] using member)
    · exact sane.lists address child (by simpa [NodeHeap.makeList, new] using member)
  given := fun node index same => Nat.lt_succ_of_lt (sane.given node index same)
  copied := sane.copied

theorem makeList_getChildren (sane : Sane heap) (contents : List NodeId) :
    (heap.makeList contents).getChildren node = heap.getChildren node := by
  have differs : (heap.nodes node).children ≠ .given heap.givenCount := by
    intro same
    exact absurd (sane.given node _ same) (Nat.lt_irrefl _)
  simp [NodeHeap.makeList, NodeHeap.getChildren, differs]

theorem Sane.allocate (sane : Sane heap) {object : NodeObject}
    (given : ∀ index, object.children = .given index → index < heap.givenCount)
    (copied : ∀ index, object.children = .copied index → index < heap.copiedCount) :
    Sane (heap.allocate object) where
  someList := sane.someList
  lists := fun address child member => Nat.lt_succ_of_lt (sane.lists address child member)
  given := by
    intro node index same
    by_cases new : node = heap.nodeCount
    · exact given index (by simpa [NodeHeap.allocate, new] using same)
    · exact sane.given node index (by simpa [NodeHeap.allocate, new] using same)
  copied := by
    intro node index same
    by_cases new : node = heap.nodeCount
    · exact copied index (by simpa [NodeHeap.allocate, new] using same)
    · exact sane.copied node index (by simpa [NodeHeap.allocate, new] using same)

theorem allocate_getChildren {object : NodeObject} (old : node ≠ heap.nodeCount) :
    (heap.allocate object).getChildren node = heap.getChildren node := by
  simp [NodeHeap.allocate, NodeHeap.getChildren, old]

theorem Sane.mutate (sane : Sane heap)
    (children : ∀ child ∈ change (heap.getChildren node), child < heap.nodeCount) :
    Sane ((heap.cloneChildrenIfShared node).mutate node change) where
  someList := by
    rw [NodeHeap.mutation_givenCount]
    exact sane.someList
  lists := by
    intro address child member
    rw [show ((heap.cloneChildrenIfShared node).mutate node change).nodeCount = heap.nodeCount from
      NodeHeap.cloneChildrenIfShared_nodeCount heap node]
    rcases NodeHeap.mutation_lists heap node change address with written | ⟨source, kept⟩
    · exact children child (written ▸ member)
    · exact sane.lists source child (kept ▸ member)
  given := by
    intro other index same
    rw [NodeHeap.mutation_givenCount]
    exact NodeHeap.mutation_given heap node change sane.given other index same
  copied := by
    intro other index same
    -- only a node marked as sharing copies its list
    by_cases marked : (heap.nodes node).childrenAreShared = true
    · simp only [NodeHeap.cloneChildrenIfShared, marked, not_true, if_false, NodeHeap.mutate]
        at same ⊢
      by_cases self : other = node
      · simp only [self, update_self, ListAddress.copied.injEq] at same
        omega
      · rw [update_of_ne self] at same
        exact Nat.lt_succ_of_lt (sane.copied other index same)
    · simp only [NodeHeap.cloneChildrenIfShared, marked, NodeHeap.mutate] at same ⊢
      exact sane.copied other index same

theorem mutate_getChildren (sane : Sane heap) (differs : other ≠ node) : (Borrows heap other node →
      ((heap.cloneChildrenIfShared node).mutate node change).getChildren other =
          change (heap.getChildren node) ∧ heap.getChildren other = heap.getChildren node) ∧
      (¬Borrows heap other node →
        ((heap.cloneChildrenIfShared node).mutate node change).getChildren other =
          heap.getChildren other) := by
  by_cases marked : (heap.nodes node).childrenAreShared = true
  · -- the node gets a new list, which no other one uses
    have fresh : (heap.nodes other).children ≠ .copied heap.copiedCount := by
      intro same
      exact absurd (sane.copied other _ same) (Nat.lt_irrefl _)
    have alone : ¬Borrows heap other node := by
      intro borrows
      rw [borrows.1] at marked
      cases marked
    refine ⟨fun borrows => absurd borrows alone, fun _ => ?_⟩
    simp [NodeHeap.cloneChildrenIfShared, marked, NodeHeap.mutate, NodeHeap.getChildren, differs,
      fresh]
  · have own : (heap.nodes node).childrenAreShared = false := by simpa using marked
    refine ⟨fun borrows => ?_, fun alone => ?_⟩
    · simp [NodeHeap.cloneChildrenIfShared, own, NodeHeap.mutate, NodeHeap.getChildren, borrows.2]
    · have apart : (heap.nodes other).children ≠ (heap.nodes node).children :=
        fun same => alone ⟨own, same⟩
      simp [NodeHeap.cloneChildrenIfShared, own, NodeHeap.mutate, NodeHeap.getChildren, apart]

end Heap

section Sums

variable {nodes : RevisionHeap D} {node : NodeId} {change : List NodeId → List NodeId} {delta : ℤ}

variable (revisions : NodeId → ℤ)

theorem sum_map_update (node : NodeId) (delta : ℤ) (list : List NodeId) :
    (list.map (Function.update revisions node (revisions node + delta))).sum =
      (list.map revisions).sum + list.count node * delta := by
  induction list with
  | nil => simp
  | cons head _ ih =>
    rw [map_cons, sum_cons, ih, map_cons, sum_cons, count_cons]
    by_cases same : head = node
    · subst same
      simp
      ring
    · simp [same]
      ring

theorem computeStateRevision_add (state : Option (State D)) (children : List ℤ) :
    computeStateRevision state children = computeStateRevision state [] + children.sum := by
  simp [computeStateRevision]

theorem exactAt_iff {after : RevisionHeap D} {other : NodeId} {own : ℤ} {occurs : ℕ}
    (exact' : nodes.ExactAt other) (sameState : after.state other = nodes.state other)
    (revision : after.stateRevision other = nodes.stateRevision other + own)
    (sum : ((after.getChildren other).map after.stateRevision).sum =
      ((nodes.getChildren other).map nodes.stateRevision).sum + occurs * delta) :
    after.ExactAt other ↔ own = occurs * delta := by
  rw [ExactAt, computeStateRevision_add] at exact' ⊢
  rw [sameState, revision, sum]
  omega

theorem mutate_exact_iff {after : RevisionHeap D} (sane : Sane nodes.heap) (exact' : nodes.Exact)
    (made : node < nodes.heap.nodeCount)
    (heap : after.heap = (nodes.heap.cloneChildrenIfShared node).mutate node change)
    (sameState : after.state = nodes.state)
    (revisions : after.stateRevision =
      Function.update nodes.stateRevision node (nodes.stateRevision node + delta))
    (sum : ((change (nodes.getChildren node)).map nodes.stateRevision).sum =
      ((nodes.getChildren node).map nodes.stateRevision).sum + delta) :
    after.Exact ↔ delta = 0 ∨ nodes.Detached node change := by
  have count : after.heap.nodeCount = nodes.heap.nodeCount := by
    rw [heap]
    exact NodeHeap.cloneChildrenIfShared_nodeCount nodes.heap node
  -- the node's sum is adjusted by `delta`, which is wrong if the node is its own child
  have atNode : after.ExactAt node ↔ delta = 0 ∨ node ∉ change (nodes.getChildren node) := by
    have list : after.getChildren node = change (nodes.getChildren node) := by
      rw [getChildren, heap]
      exact NodeHeap.mutation_getChildren nodes.heap node change
    have exactly := @exactAt_iff _ nodes delta after node delta
      ((change (nodes.getChildren node)).count node + 1) (exact' node made) (by rw [sameState])
      (by rw [revisions, update_self]) (by
        rw [list, revisions, sum_map_update, sum]
        push_cast
        ring)
    rw [exactly, ← count_eq_zero, Nat.cast_add, Nat.cast_one, add_mul, one_mul,
      right_eq_add, mul_eq_zero, Nat.cast_eq_zero, or_comm]
  have atOther : ∀ other < nodes.heap.nodeCount, other ≠ node → (after.ExactAt other ↔ delta = 0 ∨
        (node ∉ nodes.getChildren other ∧ ¬Borrows nodes.heap other node)) := by
    intro other otherMade differs
    obtain ⟨borrowing, alone⟩ := @mutate_getChildren nodes.heap node other change sane differs
    have sameRevision : after.stateRevision other = nodes.stateRevision other + 0 := by
      rw [revisions, update_of_ne differs, add_zero]
    by_cases borrows : Borrows nodes.heap other node
    · -- the new list counts for this node as well, without its revision
      have list : after.getChildren other = change (nodes.getChildren node) := by
        rw [getChildren, heap]
        exact (borrowing borrows).1
      have exactly := @exactAt_iff _ nodes delta after other 0
        ((change (nodes.getChildren node)).count node + 1) (exact' other otherMade)
        (by rw [sameState]) sameRevision (by
          have sameList : nodes.getChildren other = nodes.getChildren node := (borrowing borrows).2
          rw [list, revisions, sum_map_update, sum, sameList]
          push_cast
          ring)
      have positive : ((change (nodes.getChildren node)).count node : ℤ) + 1 ≠ 0 := by omega
      rw [exactly, zero_eq_mul, Nat.cast_add, Nat.cast_one]
      simp [borrows, positive]
    · have list : after.getChildren other = nodes.getChildren other := by
        rw [getChildren, heap]
        exact alone borrows
      have exactly := @exactAt_iff _ nodes delta after other 0 ((nodes.getChildren other).count node)
        (exact' other otherMade) (by rw [sameState]) sameRevision
        (by rw [list, revisions, sum_map_update])
      rw [exactly, zero_eq_mul, Nat.cast_eq_zero, count_eq_zero, or_comm]
      simp [borrows]
  rw [Exact, count]
  constructor
  · intro exactAfter
    -- where the sum changes, each node that has this one in its list would be wrong
    by_cases noDelta : delta = 0
    · exact .inl noDelta
    · refine .inr ⟨(atNode.mp (exactAfter node made)).resolve_left noDelta, ?_⟩
      intro other otherMade differs
      exact ((atOther other otherMade differs).mp (exactAfter other otherMade)).resolve_left noDelta
  · intro keeps other otherMade
    by_cases same : other = node
    · subst same
      exact atNode.mpr (keeps.imp_right And.left)
    · exact (atOther other otherMade same).mpr
        (keeps.imp_right fun detached => detached.2 other otherMade same)

theorem sum_replaceIn {oldChild : NodeId} (newChild : NodeId)
    {suggestedIndex : ℤ} {children : List NodeId}
    (found : (NodeHeap.replacedIndex children oldChild suggestedIndex).isSome) :
    ((NodeHeap.replaceIn oldChild newChild suggestedIndex children).map revisions).sum =
      (children.map revisions).sum + (revisions newChild - revisions oldChild) := by
  obtain ⟨_, isIndex⟩ := isSome_iff_exists.mp found
  obtain ⟨bound, isOld⟩ := List.getElem?_eq_some_iff.mp (NodeHeap.replacedIndex_getElem? isIndex)
  rw [NodeHeap.replaceIn, isIndex]
  simp only [map_set, sum_set', length_map, bound, dif_pos, getElem_map, isOld]
  ring

end Sums

section Steps

variable {nodes next : RevisionHeap D} {call : Call D}

theorem construct_exact (object : NodeObject) (sane : Sane nodes.heap) (exact' : nodes.Exact)
    (family : ℕ) (state : Option (State D)) :
    (nodes.construct (nodes.heap.allocate object) family state).Exact := by
  -- no list has the new node
  have kept : ∀ list : List NodeId, (∀ child ∈ list, child < nodes.heap.nodeCount) →
      ∀ revision : ℤ, list.map (Function.update nodes.stateRevision nodes.heap.nodeCount revision) =
        list.map nodes.stateRevision := by
    intro list made revision
    apply map_congr_left
    intro child member
    rw [update_of_ne (Nat.ne_of_lt (made child member))]
  intro node made
  simp only [ExactAt, construct, getChildren]
  by_cases new : node = nodes.heap.nodeCount
  · -- its list was made before it
    subst new
    have inside : ∀ child ∈ (nodes.heap.allocate object).getChildren nodes.heap.nodeCount,
        child < nodes.heap.nodeCount := by
      intro child member
      exact sane.lists _ child member
    rw [update_self, update_self, kept _ inside]
  · have old : node < nodes.heap.nodeCount := by
      have bound : node < nodes.heap.nodeCount + 1 := made
      omega
    rw [update_of_ne new, update_of_ne new, allocate_getChildren new,
      kept _ fun child member => sane.child_lt member]
    exact exact' node old

theorem setMostRecentState_heap (family : ℕ) (state : Option (State D)) :
    (nodes.setMostRecentState family state).heap = nodes.heap ∧
      (nodes.setMostRecentState family state).state = nodes.state ∧
      (nodes.setMostRecentState family state).stateRevision = nodes.stateRevision := by
  rw [setMostRecentState]
  split <;> exact ⟨rfl, rfl, rfl⟩

theorem setMostRecentState_exact_iff (family : ℕ) (state : Option (State D)) :
    (nodes.setMostRecentState family state).Exact ↔ nodes.Exact := by
  obtain ⟨heap, states, revisions⟩ := @setMostRecentState_heap _ nodes family state
  simp only [Exact, ExactAt, getChildren, heap, states, revisions]

theorem step_sane (sane : Sane nodes.heap) (stepped : nodes.step call = some next) :
    Sane next.heap := by
  -- One case for each call: a new node has a known list, and a mutation only known children.
  cases call with
  | makeList =>
    simp only [step, NodeHeap.step, map_eq_some_iff, ite_none_right_eq_some] at stepped
    obtain ⟨_, ⟨made, ⟨⟩⟩, rfl⟩ := stepped
    exact sane.makeList made
  | create family state children =>
    simp only [step, NodeHeap.step, map_eq_some_iff, ite_none_right_eq_some] at stepped
    obtain ⟨_, ⟨lists, ⟨⟩⟩, rfl⟩ := stepped
    rw [(setMostRecentState_heap family state).1]
    apply sane.allocate
    · intro index same
      cases children with
      | none =>
        cases same
        exact sane.someList
      | some list =>
        cases same
        exact lists _ rfl
    · intro index same
      cases children <;> cases same
  | clone source state children =>
    simp only [step, NodeHeap.step, map_eq_some_iff, ite_none_right_eq_some] at stepped
    obtain ⟨_, ⟨⟨-, lists⟩, ⟨⟩⟩, rfl⟩ := stepped
    apply sane.allocate
    · intro index same
      cases children with
      | none => exact sane.given source index same
      | some list =>
        cases same
        exact lists _ rfl
    · intro index same
      cases children with
      | none => exact sane.copied source index same
      | some list => cases same
  | appendChild node child =>
    simp only [step, NodeHeap.step, map_eq_some_iff, ite_none_right_eq_some] at stepped
    obtain ⟨_, ⟨made, ⟨⟩⟩, rfl⟩ := stepped
    refine @Sane.mutate _ node (fun children => children ++ [child]) sane ?_
    intro other member
    rcases mem_append.mp member with before | new
    · exact sane.child_lt before
    · rw [mem_singleton.mp new]
      exact made.2
  | replaceChild node oldChild newChild suggestedIndex =>
    simp only [step, NodeHeap.step, ite_none_right_eq_some, map_eq_some_iff] at stepped
    obtain ⟨-, _, ⟨made, ⟨⟩⟩, rfl⟩ := stepped
    refine @Sane.mutate _ node (NodeHeap.replaceIn oldChild newChild suggestedIndex) sane ?_
    intro other member
    rw [NodeHeap.replaceIn] at member
    split at member
    next =>
      rcases mem_or_eq_of_mem_set member with before | rfl
      · exact sane.child_lt before
      · exact made.2.2
    next => exact sane.child_lt member
  | setMounted node =>
    simp only [step, ite_none_right_eq_some] at stepped
    obtain ⟨-, ⟨⟩⟩ := stepped
    rw [(setMostRecentState_heap _ _).1]
    exact sane

theorem step_exact_iff (sane : Sane nodes.heap) (exact' : nodes.Exact)
    (stepped : nodes.step call = some next) : next.Exact ↔ nodes.KeepsSums call := by
  cases call with
  | makeList =>
    simp only [step, NodeHeap.step, map_eq_some_iff, ite_none_right_eq_some] at stepped
    obtain ⟨_, ⟨made, ⟨⟩⟩, rfl⟩ := stepped
    refine iff_of_true ?_ trivial
    intro node isMade
    rw [ExactAt, getChildren, makeList_getChildren sane]
    exact exact' node isMade
  | create family state children =>
    simp only [step, NodeHeap.step, map_eq_some_iff, ite_none_right_eq_some] at stepped
    obtain ⟨_, ⟨-, ⟨⟩⟩, rfl⟩ := stepped
    refine iff_of_true ((setMostRecentState_exact_iff family state).mpr ?_) trivial
    exact construct_exact _ sane exact' family state
  | clone _ state children =>
    simp only [step, NodeHeap.step, map_eq_some_iff, ite_none_right_eq_some] at stepped
    obtain ⟨_, ⟨-, ⟨⟩⟩, rfl⟩ := stepped
    exact iff_of_true (construct_exact _ sane exact' _ _) trivial
  | appendChild node =>
    simp only [step, NodeHeap.step, map_eq_some_iff, ite_none_right_eq_some] at stepped
    obtain ⟨_, ⟨made, ⟨⟩⟩, rfl⟩ := stepped
    refine mutate_exact_iff sane exact' made.1 rfl rfl rfl ?_
    rw [map_append, sum_append, map_singleton, sum_singleton]
  | replaceChild node _ newChild =>
    simp only [step, NodeHeap.step, ite_none_right_eq_some, map_eq_some_iff] at stepped
    obtain ⟨found, _, ⟨made, ⟨⟩⟩, rfl⟩ := stepped
    rw [KeepsSums, ← sub_eq_zero]
    exact mutate_exact_iff sane exact' made.1 rfl rfl rfl (sum_replaceIn _ newChild found)
  | setMounted node =>
    simp only [step, ite_none_right_eq_some] at stepped
    obtain ⟨-, ⟨⟩⟩ := stepped
    exact iff_of_true ((setMostRecentState_exact_iff _ _).mpr exact') trivial

end Steps

/-! ### Runs -/

/-- **The sums stay exact** in every state of a run exactly if each mutation that changes a sum is
one of a node on which nothing else depends. -/
theorem stateRevisions_exact_iff (calls : List (Call D)) :
    (∀ taken rest middle, calls = taken ++ rest → Runs.run step ({} : RevisionHeap D) taken =
        some middle → middle.Exact) ↔
      Runs.Along step (fun nodes call => (step nodes call).isSome → nodes.KeepsSums call) {} calls := by
  refine @Runs.always_iff_along _ _ step KeepsSums (fun nodes => Sane nodes.heap) Exact {} calls
    ?_ ?_ sane_empty ?_
  · intro nodes call next sane _ stepped
    exact step_sane sane stepped
  · intro nodes call next sane exact' stepped
    exact step_exact_iff sane exact' stepped
  · intro node made
    exact absurd made (Nat.not_lt_zero node)

def newerGrandchild : List (Call Unit) :=
  [.create 0 (some ⟨0, (), 1⟩) none, .makeList [0], .create 1 none (some 1), .makeList [1],
    .create 2 none (some 2), .clone 0 (some ⟨1, (), 2⟩) none, .replaceChild 1 0 3 0]

theorem newerGrandchild_not_exact : ∃ nodes,
    Runs.run step ({} : RevisionHeap Unit) newerGrandchild = some nodes ∧
      nodes.stateRevision 1 = 2 ∧ nodes.stateRevision 2 = 1 ∧ ¬nodes.Exact := by
  refine ⟨_, rfl, rfl, rfl, ?_⟩
  intro exact'
  exact absurd (exact' 2 (by decide)) (by unfold ExactAt; decide)

end RevisionHeap

end ReactNative


