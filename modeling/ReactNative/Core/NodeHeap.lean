import ReactNative.Foundation.Runs
import Mathlib.Data.List.Induction
import Mathlib.Data.List.Nodup

/-! Shadow nodes hold their children through a pointer to a list object. A clone starts with the
list of its source, and the trait `ChildrenAreShared` of a node says that its list must be copied
before the first mutation. -/
namespace ReactNative

open Function Option

abbrev NodeId := Nat

/-- A list object made by a caller, or one that a node copied for itself. -/
inductive ListAddress where
  | given (index : Nat)
  | copied (index : Nat)
  deriving DecidableEq

structure NodeObject where
  children : ListAddress := .given 0
  childrenAreShared : Bool := true

/-- Nodes and list objects by number. The list `given 0` is
`emptySharedShadowNodeSharedList`. -/
structure NodeHeap where
  nodes : NodeId → NodeObject := fun _ => {}
  nodeCount : Nat := 0
  lists : ListAddress → List NodeId := fun _ => []
  givenCount : Nat := 1
  copiedCount : Nat := 0

namespace NodeHeap

variable (heap : NodeHeap)

def getChildren (node : NodeId) : List NodeId := heap.lists (heap.nodes node).children

def makeList (contents : List NodeId) : NodeHeap :=
  { heap with
    lists := update heap.lists (.given heap.givenCount) contents
    givenCount := heap.givenCount + 1 }

def allocate (object : NodeObject) : NodeHeap :=
  { heap with
    nodes := update heap.nodes heap.nodeCount object
    nodeCount := heap.nodeCount + 1 }

def create (children : Option ListAddress) : NodeHeap :=
  heap.allocate { children := children.getD (.given 0), childrenAreShared := true }

def clone (source : NodeId) (children : Option ListAddress) : NodeHeap :=
  heap.allocate
    { children := children.getD (heap.nodes source).children, childrenAreShared := true }

def cloneChildrenIfShared (node : NodeId) : NodeHeap :=
  if ¬ (heap.nodes node).childrenAreShared then heap
  else
    { heap with
      nodes := update heap.nodes node
        { children := .copied heap.copiedCount, childrenAreShared := false }
      lists := update heap.lists (.copied heap.copiedCount) (heap.getChildren node)
      copiedCount := heap.copiedCount + 1 }

def mutate (node : NodeId) (change : List NodeId → List NodeId) : NodeHeap :=
  let address := (heap.nodes node).children
  { heap with lists := update heap.lists address (change (heap.lists address)) }

def appendChild (node child : NodeId) : NodeHeap :=
  (heap.cloneChildrenIfShared node).mutate node fun children => children ++ [child]

/-- Where `replaceChild` writes: at the suggested index if that is accurate, else at
the first occurrence. -/
def replacedIndex (children : List NodeId) (oldChild : NodeId) (suggestedIndex : Int) :
    Option Nat :=
  -- Compared with an unsigned size, a negative index is a large one.
  if suggestedIndex ≠ -1 ∧ 0 ≤ suggestedIndex ∧ suggestedIndex < children.length ∧
      children[suggestedIndex.toNat]? = some oldChild then some suggestedIndex.toNat
  else children.findIdx? (· = oldChild)

def replaceIn (oldChild newChild : NodeId) (suggestedIndex : Int) (children : List NodeId) :
    List NodeId :=
  match replacedIndex children oldChild suggestedIndex with
  | some index => children.set index newChild
  | none => children

def replaceChild (node oldChild newChild : NodeId) (suggestedIndex : Int) : NodeHeap :=
  (heap.cloneChildrenIfShared node).mutate node (replaceIn oldChild newChild suggestedIndex)

theorem replaceIn_of_nodup {before after : List NodeId} {child : NodeId}
    (nodup : (before ++ child :: after).Nodup) (clone : NodeId) (suggestedIndex : Int) :
    (replacedIndex (before ++ child :: after) child suggestedIndex).isNone = false ∧
      replaceIn child clone suggestedIndex (before ++ child :: after) =
        before ++ clone :: after := by
  have position : replacedIndex (before ++ child :: after) child suggestedIndex =
      some before.length := by
    have first : child ∉ before := by
      simp only [List.nodup_append, List.mem_cons] at nodup
      intro member
      exact nodup.2.2 child member child (.inl rfl) rfl
    unfold replacedIndex
    split
    · next accurate =>
      -- The suggested index holds the child, which stands in one place only.
      obtain ⟨-, -, -, found⟩ := accurate
      obtain ⟨_, found⟩ := List.getElem?_eq_some_iff.mp found
      have same : (before ++ child :: after)[suggestedIndex.toNat] =
          (before ++ child :: after)[before.length] := by
        rw [found]
        simp
      rw [(nodup.getElem_inj_iff).mp same]
    · rw [List.findIdx?_eq_some_iff_getElem]
      refine ⟨by simp, by simp, fun index earlier => ?_⟩
      rw [List.getElem_append_left earlier]
      simp only [decide_eq_true_eq]
      intro same
      exact first (same ▸ List.getElem_mem earlier)
  constructor
  · rw [position]
    rfl
  · simp [replaceIn, position]

/-! ### Operations -/

inductive Operation where
  /-- A caller makes a list of nodes, to be passed in fragments. -/
  | makeList (contents : List NodeId)
  | create (children : Option Nat)
  | clone (source : NodeId) (children : Option Nat)
  | appendChild (node child : NodeId)
  | replaceChild (node oldChild newChild : NodeId) (suggestedIndex : Int)

/-- Operations are called on nodes and lists made so far. -/
def step : Operation → Option NodeHeap
  | .makeList contents =>
    if ∀ node ∈ contents, node < heap.nodeCount then some (heap.makeList contents) else none
  | .create children =>
    if ∀ list ∈ children, list < heap.givenCount then some (heap.create (children.map .given))
    else none
  | .clone source children =>
    if source < heap.nodeCount ∧ ∀ list ∈ children, list < heap.givenCount then
      some (heap.clone source (children.map .given))
    else none
  | .appendChild node child =>
    if node < heap.nodeCount ∧ child < heap.nodeCount then some (heap.appendChild node child)
    else none
  | .replaceChild node oldChild newChild suggestedIndex =>
    if node < heap.nodeCount ∧ oldChild < heap.nodeCount ∧ newChild < heap.nodeCount then
      some (heap.replaceChild node oldChild newChild suggestedIndex)
    else none

/-- The node that an operation mutates and what it does to the list there. -/
def Operation.mutation : Operation → Option (NodeId × (List NodeId → List NodeId))
  | .appendChild node child => some (node, fun children => children ++ [child])
  | .replaceChild node oldChild newChild suggestedIndex =>
    some (node, replaceIn oldChild newChild suggestedIndex)
  | _ => none

/-- A mutation changes the child list of its node and of no other one. -/
def Isolated (before after : NodeHeap) (operation : Operation) : Prop :=
  ∀ mutation ∈ operation.mutation,
    after.getChildren mutation.1 = mutation.2 (before.getChildren mutation.1) ∧
      ∀ other < before.nodeCount, other ≠ mutation.1 →
        after.getChildren other = before.getChildren other

/-! ### Lineage -/

/-- Who took over whose list, read off the operations alone. -/
structure Lineage where
  nodeCount : Nat := 0
  mutated : NodeId → Bool := fun _ => false
  /-- The node whose copy a clone still uses: the clone was made, keeping the children,
  after that node was mutated, and was not mutated itself since. -/
  source : NodeId → Option NodeId := fun _ => none

def Lineage.record (lineage : Lineage) : Operation → Lineage
  | .makeList _ => lineage
  | .create _ => { lineage with nodeCount := lineage.nodeCount + 1 }
  | .clone source children =>
    { lineage with
      nodeCount := lineage.nodeCount + 1
      source := update lineage.source lineage.nodeCount
        (if children.isSome then none
        else if lineage.mutated source then some source
        else lineage.source source) }
  | .appendChild node _ | .replaceChild node _ _ _ =>
    { lineage with
      mutated := update lineage.mutated node true
      source := update lineage.source node none }

def lineage (operations : List Operation) : Lineage := operations.foldl Lineage.record {}

/-- No clone still uses the list that the operation mutates. -/
def Lineage.Unborrowed (lineage : Lineage) (operation : Operation) : Prop :=
  ∀ mutation ∈ operation.mutation, ∀ clone < lineage.nodeCount,
    lineage.source clone ≠ some mutation.1

/-- The lineage knows the flags, and every node that uses the list of a mutated one. -/
structure Tracks (lineage : Lineage) : Prop where
  count : lineage.nodeCount = heap.nodeCount
  shared : ∀ node, (heap.nodes node).childrenAreShared = !lineage.mutated node
  copies : ∀ node index, (heap.nodes node).children = .copied index → index < heap.copiedCount
  mutated : ∀ node, lineage.mutated node = true →
    (∃ index, (heap.nodes node).children = .copied index) ∧ lineage.source node = none
  users : ∀ node other, lineage.mutated node = true → other ≠ node →
    (heap.nodes other).children = (heap.nodes node).children → lineage.source other = some node
  unmade : ∀ node, heap.nodeCount ≤ node →
    heap.nodes node = {} ∧ lineage.mutated node = false ∧ lineage.source node = none

theorem tracks_empty : Tracks {} {} where
  count := rfl
  shared _ := rfl
  copies _ _ absurdly := by cases absurdly
  mutated _ absurdly := by cases absurdly
  users _ _ absurdly := by cases absurdly
  unmade _ _ := ⟨rfl, rfl, rfl⟩

namespace Tracks

variable {heap : NodeHeap} {lineage : Lineage}

section

variable (tracks : Tracks heap lineage)
include tracks

theorem allocate {children : ListAddress} {source : Option NodeId}
    (copies : ∀ index, children = .copied index → index < heap.copiedCount)
    (users : ∀ node, lineage.mutated node = true → children = (heap.nodes node).children →
      source = some node) :
    Tracks (heap.allocate { children, childrenAreShared := true })
      { lineage with
        nodeCount := lineage.nodeCount + 1
        source := update lineage.source lineage.nodeCount source } := by
  have fresh := tracks.unmade heap.nodeCount (Nat.le_refl _)
  -- A node that was mutated is older than the new one.
  have notNew : ∀ node, lineage.mutated node = true → node ≠ heap.nodeCount := by
    rintro node isMutated rfl
    simp [fresh.2.1] at isMutated
  constructor
  · simp [NodeHeap.allocate, tracks.count]
  · intro node
    by_cases new : node = heap.nodeCount
    · subst new
      simp [NodeHeap.allocate, fresh.2.1]
    · simpa [NodeHeap.allocate, new] using tracks.shared node
  · intro node index found
    by_cases new : node = heap.nodeCount
    · subst new
      exact copies index (by simpa [NodeHeap.allocate] using found)
    · exact tracks.copies node index (by simpa [NodeHeap.allocate, new] using found)
  · intro node isMutated
    have old := notNew node isMutated
    simpa [NodeHeap.allocate, old, tracks.count] using tracks.mutated node isMutated
  -- If the new node shares the list of a mutated one, `users` says from whom it has it.
  · intro node other isMutated differ same
    have old := notNew node isMutated
    by_cases new : other = heap.nodeCount
    · subst new
      simp only [tracks.count, update_self]
      exact users node isMutated (by simpa [NodeHeap.allocate, old] using same)
    · simp only [tracks.count, update_of_ne new]
      exact tracks.users node other isMutated differ
        (by simpa [NodeHeap.allocate, old, new] using same)
  · intro node unmade
    simp only [NodeHeap.allocate] at unmade ⊢
    have old : node ≠ heap.nodeCount := by omega
    rw [update_of_ne old, tracks.count, update_of_ne old]
    exact tracks.unmade node (by omega)

theorem allocate_given (children : Option Nat) :
    Tracks (heap.allocate
        { children := (children.map ListAddress.given).getD (.given 0), childrenAreShared := true })
      { lineage with
        nodeCount := lineage.nodeCount + 1
        source := update lineage.source lineage.nodeCount none } := by
  have given : ∃ index, (children.map ListAddress.given).getD (.given 0) = .given index := by
    cases children <;> simp
  obtain ⟨_, isGiven⟩ := given
  rw [isGiven]
  apply tracks.allocate
  · nofun
  · intro node isMutated same
    obtain ⟨⟨index, copied⟩, -⟩ := tracks.mutated node isMutated
    rw [copied] at same
    cases same

theorem cloneChildrenIfShared {node : NodeId} (made : node < heap.nodeCount) :
    Tracks (heap.cloneChildrenIfShared node)
      { lineage with
        mutated := update lineage.mutated node true
        source := update lineage.source node none } := by
  by_cases already : lineage.mutated node = true
  · -- The flag is unset and nothing happens.
    have unmarked : (heap.nodes node).childrenAreShared = false := by
      rw [tracks.shared, already]
      rfl
    have keep : heap.cloneChildrenIfShared node = heap := by
      simp [NodeHeap.cloneChildrenIfShared, unmarked]
    have sameMutated : update lineage.mutated node true = lineage.mutated := by
      rw [← already, update_eq_self]
    have sameSource : update lineage.source node none = lineage.source := by
      rw [← (tracks.mutated node already).2, update_eq_self]
    rw [keep, sameMutated, sameSource]
    exact tracks
  · have marked : (heap.nodes node).childrenAreShared = true := by
      rw [tracks.shared]
      simpa using already
    -- No node uses the list object that is made now.
    have fresh : ∀ other, (heap.nodes other).children ≠ .copied heap.copiedCount := by
      intro other same
      exact absurd (tracks.copies other _ same) (Nat.lt_irrefl _)
    simp only [NodeHeap.cloneChildrenIfShared, marked, not_true, if_false]
    constructor
    · exact tracks.count
    · intro other
      by_cases same : other = node
      · simp [same]
      · simpa [same] using tracks.shared other
    · intro other index found
      by_cases same : other = node
      · simp only [same, update_self, ListAddress.copied.injEq] at found
        simp only
        omega
      · simp only [update_of_ne same] at found
        have bound := tracks.copies other index found
        simp only
        omega
    · intro other isMutated
      by_cases same : other = node
      · simp [same]
      · simp only [update_of_ne same] at isMutated ⊢
        exact tracks.mutated other isMutated
    · intro owner other isMutated differ same
      by_cases ownerNew : owner = node
      · subst ownerNew
        simp only [update_self, update_of_ne differ] at same
        exact absurd same (fresh other)
      · simp only [update_of_ne ownerNew] at isMutated same
        by_cases otherNew : other = node
        · subst otherNew
          simp only [update_self] at same
          exact absurd same.symm (fresh owner)
        · simp only [update_of_ne otherNew] at same ⊢
          exact tracks.users owner other isMutated differ same
    · intro other unmade
      have old : other ≠ node := Nat.ne_of_gt (Nat.lt_of_lt_of_le made unmade)
      simp only [update_of_ne old]
      exact tracks.unmade other unmade

theorem mutate (node : NodeId) (change : List NodeId → List NodeId) :
    Tracks (heap.mutate node change) lineage :=
  ⟨tracks.count, tracks.shared, tracks.copies, tracks.mutated, tracks.users, tracks.unmade⟩

end

end Tracks

theorem cloneChildrenIfShared_nodeCount (heap : NodeHeap) (node : NodeId) :
    (heap.cloneChildrenIfShared node).nodeCount = heap.nodeCount := by
  unfold cloneChildrenIfShared
  split <;> rfl

variable {heap : NodeHeap} {operation : Operation}

theorem step_tracks {next : NodeHeap} {lineage : Lineage}
    (tracks : Tracks heap lineage) (stepped : heap.step operation = some next) :
    Tracks next (lineage.record operation) := by
  cases operation with
  | makeList =>
    simp only [step, ite_none_right_eq_some] at stepped
    obtain ⟨-, ⟨⟩⟩ := stepped
    exact ⟨tracks.count, tracks.shared, tracks.copies, tracks.mutated, tracks.users, tracks.unmade⟩
  | create children =>
    simp only [step, ite_none_right_eq_some] at stepped
    obtain ⟨-, ⟨⟩⟩ := stepped
    have unused := (tracks.unmade heap.nodeCount (Nat.le_refl _)).2.2
    have sameSource : update lineage.source lineage.nodeCount none = lineage.source := by
      rw [tracks.count, ← unused, update_eq_self]
    have result := tracks.allocate_given children
    rwa [sameSource] at result
  | clone source children =>
    simp only [step, ite_none_right_eq_some] at stepped
    obtain ⟨-, ⟨⟩⟩ := stepped
    cases children with
    | some list => exact tracks.allocate_given (some list)
    | none =>
      refine tracks.allocate (tracks.copies source) fun node isMutated same => ?_
      -- The new node uses the list of its source, whoever owns that.
      by_cases own : lineage.mutated source = true
      · by_cases self : node = source
        · simp [own, self]
        · have borrowed := tracks.users node source isMutated (Ne.symm self) same
          rw [(tracks.mutated source own).2] at borrowed
          exact absurd borrowed (by simp)
      · have self : source ≠ node := by
          rintro rfl
          exact own isMutated
        simpa [own] using tracks.users node source isMutated self same
  | appendChild node =>
    simp only [step, ite_none_right_eq_some] at stepped
    obtain ⟨made, ⟨⟩⟩ := stepped
    exact (tracks.cloneChildrenIfShared made.1).mutate node _
  | replaceChild node =>
    simp only [step, ite_none_right_eq_some] at stepped
    obtain ⟨made, ⟨⟩⟩ := stepped
    exact (tracks.cloneChildrenIfShared made.1).mutate node _

theorem mutation_getChildren (heap : NodeHeap) (node : NodeId)
    (change : List NodeId → List NodeId) :
    ((heap.cloneChildrenIfShared node).mutate node change).getChildren node =
      change (heap.getChildren node) := by
  by_cases shared : (heap.nodes node).childrenAreShared = true
  · simp [mutate, cloneChildrenIfShared, getChildren, shared]
  · simp [mutate, cloneChildrenIfShared, getChildren, shared]

theorem mutation_isolated {lineage : Lineage} (tracks : Tracks heap lineage)
    {node : NodeId} (change : List NodeId → List NodeId)
    (unborrowed : ∀ clone < lineage.nodeCount, lineage.source clone ≠ some node) :
    ((heap.cloneChildrenIfShared node).mutate node change).getChildren node =
        change (heap.getChildren node) ∧
      ∀ other < heap.nodeCount, other ≠ node →
        ((heap.cloneChildrenIfShared node).mutate node change).getChildren other =
          heap.getChildren other := by
  refine ⟨mutation_getChildren heap node change, fun other made differ => ?_⟩
  by_cases own : lineage.mutated node = true
  · have unmarked : (heap.nodes node).childrenAreShared = false := by
      rw [tracks.shared, own]
      rfl
    have keep : heap.cloneChildrenIfShared node = heap := by
      simp [cloneChildrenIfShared, unmarked]
    rw [keep]
    have apart : (heap.nodes other).children ≠ (heap.nodes node).children := by
      intro same
      exact unborrowed other (tracks.count ▸ made) (tracks.users node other own differ same)
    simp [mutate, getChildren, apart]
  · have marked : (heap.nodes node).childrenAreShared = true := by
      rw [tracks.shared]
      simpa using own
    have fresh : ∀ other, (heap.nodes other).children ≠ .copied heap.copiedCount := by
      intro other same
      exact absurd (tracks.copies other _ same) (Nat.lt_irrefl _)
    simp [cloneChildrenIfShared, marked, mutate, getChildren, differ, fresh other]

section

variable (heap : NodeHeap) (node : NodeId) (change : List NodeId → List NodeId)

theorem mutation_lists (address : ListAddress) :
    ((heap.cloneChildrenIfShared node).mutate node change).lists address =
        change (heap.getChildren node) ∨
      ∃ other, ((heap.cloneChildrenIfShared node).mutate node change).lists address =
        heap.lists other := by
  by_cases marked : (heap.nodes node).childrenAreShared = true
  · simp only [cloneChildrenIfShared, marked, not_true, if_false, mutate, update_self]
    by_cases same : address = .copied heap.copiedCount
    · simp [same]
    · right
      exact ⟨address, by simp [same]⟩
  · simp only [cloneChildrenIfShared, marked, mutate]
    by_cases same : address = (heap.nodes node).children
    · simp [same, getChildren]
    · right
      exact ⟨address, by simp [same]⟩

theorem mutation_givenCount :
    ((heap.cloneChildrenIfShared node).mutate node change).givenCount = heap.givenCount := by
  simp only [mutate, cloneChildrenIfShared]
  split <;> rfl

theorem mutation_given {bound : Nat}
    (given : ∀ other index, (heap.nodes other).children = .given index → index < bound)
    (other : NodeId) (index : Nat)
    (isGiven : (((heap.cloneChildrenIfShared node).mutate node change).nodes other).children =
      .given index) : index < bound := by
  by_cases marked : (heap.nodes node).childrenAreShared = true
  · simp only [cloneChildrenIfShared, marked, not_true, if_false, mutate] at isGiven
    by_cases same : other = node
    · simp [same] at isGiven
    · exact given other index (by simpa [same] using isGiven)
  · simp only [cloneChildrenIfShared, marked, mutate] at isGiven
    exact given other index isGiven

end

theorem step_isolated {next : NodeHeap} {lineage : Lineage}
    (tracks : Tracks heap lineage) (unborrowed : lineage.Unborrowed operation)
    (stepped : heap.step operation = some next) : Isolated heap next operation := by
  intro mutation isMutation
  cases operation with
  | makeList _ | create _ | clone _ _ => simp [Operation.mutation] at isMutation
  | appendChild _ _ | replaceChild _ _ _ _ =>
    simp only [step, ite_none_right_eq_some] at stepped
    obtain ⟨-, ⟨⟩⟩ := stepped
    cases isMutation
    exact mutation_isolated tracks _ (unborrowed _ rfl)

theorem run_tracks {operations : List Operation}
    (ran : Runs.run step {} operations = some heap) : Tracks heap (lineage operations) := by
  induction operations using List.reverseRecOn generalizing heap with
  | nil =>
    cases ran
    exact tracks_empty
  | append_singleton first last ih =>
    rw [Runs.run_append] at ran
    obtain ⟨_, ranFirst, ranLast⟩ := bind_eq_some_iff.mp ran
    obtain ⟨_, stepped, ⟨⟩⟩ := Runs.run_cons.mp ranLast
    have recorded : lineage (first ++ [last]) = (lineage first).record last := by
      simp [lineage]
    rw [recorded]
    exact step_tracks (ih ranFirst) stepped

theorem unborrowed_along {lineage : Lineage} {first rest : List Operation}
    (along : Runs.Along (fun lineage operation => some (lineage.record operation))
      Lineage.Unborrowed lineage (first ++ operation :: rest)) :
    (first.foldl Lineage.record lineage).Unborrowed operation := by
  induction first generalizing lineage with
  | nil => exact along.1
  | cons _ _ ih => exact ih (along.2 _ rfl)

/-- **Clones are isolated from their source**, in every run in which no node is
mutated while a clone still uses the list that it copied for itself before. -/
theorem run_isolated {operations first rest : List Operation} {operation : Operation}
    {before after : NodeHeap}
    (unborrowed : Runs.Along (fun lineage operation => some (lineage.record operation))
      Lineage.Unborrowed {} operations) (position : operations = first ++ operation :: rest)
    (ran : Runs.run step {} first = some before) (stepped : before.step operation = some after) :
    Isolated before after operation := by
  subst position
  exact step_isolated (run_tracks ran) (unborrowed_along unborrowed) stepped

theorem run_isolated_mutated_clone :
    let operations := [.create none, .create none, .appendChild 0 1, .clone 0 none,
      .appendChild 2 1, .appendChild 0 1]
    ∃ before after, Runs.run step {} (operations.take 5) = some before ∧
      before.step (.appendChild 0 1) = some after ∧
      Isolated before after (.appendChild 0 1) := by
  intro operations
  obtain ⟨before, ran⟩ : ∃ before, Runs.run step {} (operations.take 5) = some before := ⟨_, rfl⟩
  obtain ⟨after, stepped⟩ : ∃ after, before.step (.appendChild 0 1) = some after := by
    cases ran
    exact ⟨_, rfl⟩
  refine ⟨before, after, ran, stepped, ?_⟩
  refine @run_isolated operations (operations.take 5) [] _ _ _ ?_ rfl ran stepped
  -- One condition for each of the six operations.
  iterate 6
    refine ⟨by unfold Lineage.Unborrowed; decide, ?_⟩
    rintro _ ⟨⟩
  trivial

theorem source_mutates_clone : ∃ before after,
      Runs.run step {} [.create none, .create none, .appendChild 0 1, .clone 0 none] = some before ∧
      before.step (.appendChild 0 1) = some after ∧ ¬ Isolated before after (.appendChild 0 1) := by
  refine ⟨_, _, rfl, rfl, fun isolated => ?_⟩
  have clone := (isolated _ rfl).2 2 (by decide) (by decide)
  exact absurd clone (by decide)

end NodeHeap

end ReactNative

