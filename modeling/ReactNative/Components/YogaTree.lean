import ReactNative.Core.NodeHeap

/-! A Yoga-layoutable shadow node contains a Yoga node with a child list of its own. The
constructors, `appendChild` and a callback of the layout engine edit the two lists. -/
namespace ReactNative

open Function NodeHeap List

structure YogaNode where
  yogaLayoutableKind : Bool := false
  leafYogaNode : Bool := false
  children : List NodeId := []
  owner : Option NodeId := none

structure YogaTree where
  heap : NodeHeap := {}
  yoga : NodeId → YogaNode := fun _ => {}
  /-- The nodes that were cloned so far; no code reads it. -/
  cloned : NodeId → Bool := fun _ => false

namespace YogaTree

def getChildren (tree : YogaTree) (node : NodeId) : List NodeId := tree.heap.getChildren node

variable (tree : YogaTree) (node : NodeId)

def isLayoutable : Bool := (tree.yoga node).yogaLayoutableKind

variable (source : NodeId)

/-- The Yoga node takes everything from its source but the owner. -/
def cloneNode (children : Option ListAddress) : YogaTree where
  heap := tree.heap.clone source children
  yoga := update tree.yoga tree.heap.nodeCount { tree.yoga source with owner := none }
  cloned := update tree.cloned source true

/-- Fails where the code asserts that the child is found. -/
def replaceChild (tree : YogaTree) (node oldChild newChild : NodeId) (suggestedIndex : Int) :
    Option YogaTree :=
  if (replacedIndex (tree.getChildren node) oldChild suggestedIndex).isNone then none
  else some { tree with heap := tree.heap.replaceChild node oldChild newChild suggestedIndex }

def cloneAndReplaceChild (node child : NodeId) (suggestedIndex : Int) :
    Option (YogaTree × NodeId) := do
  let clonedChild := tree.heap.nodeCount
  let tree ← (tree.cloneNode child none).replaceChild node child clonedChild suggestedIndex
  return (tree, clonedChild)

def setOwner (node owner : NodeId) : YogaTree :=
  { tree with
    yoga := update tree.yoga node { tree.yoga node with owner := some owner } }

def setYogaChildren (children : List NodeId) : YogaTree :=
  { tree with yoga := update tree.yoga node { tree.yoga node with children } }

/-- Fails where the code asserts that the inserted node has no owner. -/
def appendChildYogaNode (node child : NodeId) : Option YogaTree :=
  if (tree.yoga node).leafYogaNode then some tree
  else do
    let (tree, child) ← if (tree.yoga child).owner ≠ none then
        tree.cloneAndReplaceChild node child (tree.yoga node).children.length
      else some (tree, child)
    if (tree.yoga child).owner ≠ none then none
    else
      let tree := tree.setOwner child node
      return tree.setYogaChildren node ((tree.yoga node).children ++ [child])

def appendYogaChildren (tree : YogaTree) (node : NodeId) : List NodeId → Option YogaTree
  | [] => some tree
  | child :: rest =>
    if ¬ tree.isLayoutable child then tree.appendYogaChildren node rest
    else do
      let tree ← tree.appendChildYogaNode node child
      tree.appendYogaChildren node rest

def updateYogaChildren : Option YogaTree :=
  if (tree.yoga node).leafYogaNode then some tree
  else (tree.setYogaChildren node []).appendYogaChildren node (tree.getChildren node)

def create (tree : YogaTree) (yogaLayoutableKind leafYogaNode : Bool)
    (children : Option ListAddress) : Option YogaTree :=
  let node := tree.heap.nodeCount
  let tree := { tree with
    heap := tree.heap.create children
    yoga := update tree.yoga node { yogaLayoutableKind, leafYogaNode } }
  if yogaLayoutableKind then tree.updateYogaChildren node else some tree

def clone (children : Option ListAddress) : Option YogaTree :=
  let node := tree.heap.nodeCount
  let tree := tree.cloneNode source children
  if tree.isLayoutable node ∧ children.isSome then tree.updateYogaChildren node else some tree

def appendChild (tree : YogaTree) (node child : NodeId) : Option YogaTree :=
  let tree := { tree with heap := tree.heap.appendChild node child }
  if tree.isLayoutable node ∧ tree.isLayoutable child then tree.appendChildYogaNode node child
  else some tree

def cloneChildIfNeeded (parent : NodeId) (childIndex : Nat) : Option YogaTree := do
  let child ← (tree.yoga parent).children[childIndex]?
  if (tree.yoga child).owner ≠ some parent then do
    let (tree, clonedChild) ← tree.cloneAndReplaceChild parent child childIndex
    let tree := tree.setYogaChildren parent
      ((tree.yoga parent).children.set childIndex clonedChild)
    return tree.setOwner clonedChild parent
  else some tree

/-! ### Operations -/

inductive Operation where
  | makeList (contents : List NodeId)
  | create (yogaLayoutableKind leafYogaNode : Bool) (children : Option Nat)
  | clone (source : NodeId) (children : Option Nat)
  | appendChild (node child : NodeId)
  | cloneChildIfNeeded (parent : NodeId) (childIndex : Nat)

/-- No result where an assertion of the code fails. -/
def step : Operation → Option YogaTree
  | .makeList contents => some { tree with heap := tree.heap.makeList contents }
  | .create yogaLayoutableKind leafYogaNode children =>
    tree.create yogaLayoutableKind leafYogaNode (children.map .given)
  | .clone source children => tree.clone source (children.map .given)
  | .appendChild node child => tree.appendChild node child
  | .cloneChildIfNeeded parent childIndex => tree.cloneChildIfNeeded parent childIndex

/-- The node is cloned when it is inserted among the Yoga children of the other. -/
def insertClones (node child : NodeId) : Prop :=
  tree.isLayoutable node ∧ tree.isLayoutable child ∧ ¬ (tree.yoga node).leafYogaNode ∧
    (tree.yoga child).owner ≠ none

/-- Operations are called on what was made so far, and a node is not mutated any more
once it has been cloned; a node that is inserted into itself must not be cloned for it. -/
def Permitted : Operation → Prop
  | .makeList contents => ∀ node ∈ contents, node < tree.heap.nodeCount
  | .create _ _ children => ∀ list ∈ children, list < tree.heap.givenCount
  | .clone source children =>
    source < tree.heap.nodeCount ∧ ∀ list ∈ children, list < tree.heap.givenCount
  | .appendChild node child =>
    node < tree.heap.nodeCount ∧ child < tree.heap.nodeCount ∧ tree.cloned node = false ∧
      (tree.insertClones node child → child ≠ node)
  | .cloneChildIfNeeded parent childIndex =>
    parent < tree.heap.nodeCount ∧ childIndex < (tree.yoga parent).children.length ∧
      ∀ child ∈ (tree.yoga parent).children[childIndex]?, (tree.yoga child).owner ≠ some parent →
        tree.cloned parent = false ∧ child ≠ parent

instance (tree : YogaTree) (operation : Operation) : Decidable (tree.Permitted operation) :=
  match operation with
  | .makeList contents =>
    inferInstanceAs (Decidable (∀ node ∈ contents, node < tree.heap.nodeCount))
  | .create _ _ children =>
    inferInstanceAs (Decidable (∀ list ∈ children, list < tree.heap.givenCount))
  | .clone source children =>
    inferInstanceAs (Decidable (source < tree.heap.nodeCount ∧
      ∀ list ∈ children, list < tree.heap.givenCount))
  | .appendChild node child =>
    inferInstanceAs (Decidable (node < tree.heap.nodeCount ∧ child < tree.heap.nodeCount ∧
      tree.cloned node = false ∧
      (tree.isLayoutable node ∧ tree.isLayoutable child ∧ ¬ (tree.yoga node).leafYogaNode ∧
        (tree.yoga child).owner ≠ none → child ≠ node)))
  | .cloneChildIfNeeded parent childIndex =>
    inferInstanceAs (Decidable (parent < tree.heap.nodeCount ∧
      childIndex < (tree.yoga parent).children.length ∧
      ∀ child ∈ (tree.yoga parent).children[childIndex]?,
        (tree.yoga child).owner ≠ some parent → tree.cloned parent = false ∧ child ≠ parent))

/-- No node is put twice into a list of children. -/
def NoRepeats : Operation → Prop
  | .makeList contents => contents.Nodup
  | .appendChild node child => child ∉ tree.getChildren node
  | _ => True

/-- The Yoga children of the node are those of the list; a node without a Yoga node and
a declared leaf have none. -/
def MirrorsAt (children : List NodeId) : Prop :=
  (tree.yoga node).children =
    if tree.isLayoutable node ∧ ¬ (tree.yoga node).leafYogaNode then
      children.filter tree.isLayoutable
    else []

structure Mirrors : Prop where
  children : ∀ node, tree.MirrorsAt node (tree.getChildren node)
  owners : ∀ node owner, (tree.yoga node).owner = some owner → node ∈ (tree.yoga owner).children

/-- A tree with one more node; the constructors make nodes without an owner. -/
def added (object : NodeObject) (yogaNode : YogaNode) (cloned : NodeId → Bool) : YogaTree where
  heap := tree.heap.allocate object
  yoga := update tree.yoga tree.heap.nodeCount yogaNode
  cloned := cloned

theorem cloneNode_eq_added (children : Option ListAddress) : tree.cloneNode source children =
      tree.added { children := children.getD (tree.heap.nodes source).children }
        { tree.yoga source with owner := none } (update tree.cloned source true) := rfl

/-! ### Lists and who uses them -/

/-- Lists hold nodes made so far, each once; a list that a node copied for itself is
used by others only once the node has been cloned. -/
structure Sound : Prop where
  tracked : ∃ lineage, Tracks tree.heap lineage ∧
    ∀ clone node, lineage.source clone = some node → tree.cloned node = true
  nodup : ∀ address, (tree.heap.lists address).Nodup
  made : ∀ address, ∀ child ∈ tree.heap.lists address, child < tree.heap.nodeCount
  given : ∀ node index, (tree.heap.nodes node).children = .given index →
    index < tree.heap.givenCount
  unmade : ∀ node, tree.heap.nodeCount ≤ node → tree.yoga node = {} ∧ tree.cloned node = false

namespace Sound

variable {tree : YogaTree}

theorem child_made (sound : tree.Sound) {node child : NodeId}
    (member : child ∈ tree.getChildren node) : child < tree.heap.nodeCount :=
  sound.made _ child member

theorem added (sound : tree.Sound) {object : NodeObject} {yogaNode : YogaNode}
    {cloned : NodeId → Bool} {lineage : Lineage}
    (tracks : Tracks (tree.heap.allocate object) lineage)
    (borrowed : ∀ clone node, lineage.source clone = some node → cloned node = true)
    (given : ∀ index, object.children = .given index → index < tree.heap.givenCount)
    (unmade : ∀ node, tree.heap.nodeCount < node → cloned node = false) :
    (tree.added object yogaNode cloned).Sound := by
  constructor
  · exact ⟨lineage, tracks, borrowed⟩
  · exact sound.nodup
  · intro address child member
    exact Nat.lt_succ_of_lt (sound.made address child member)
  · intro node index isGiven
    by_cases new : node = tree.heap.nodeCount
    · apply given
      simpa [YogaTree.added, allocate, new] using isGiven
    · apply sound.given node
      simpa [YogaTree.added, allocate, new] using isGiven
  · intro node later
    have old : node ≠ tree.heap.nodeCount := Nat.ne_of_gt later
    refine ⟨?_, unmade node later⟩
    simp only [YogaTree.added, update_of_ne old]
    exact (sound.unmade node (Nat.le_of_lt later)).1

theorem cloneNode (sound : tree.Sound) {source : NodeId} (made : source < tree.heap.nodeCount)
    (children : Option Nat) (list : ∀ list ∈ children, list < tree.heap.givenCount) :
    (tree.cloneNode source (children.map .given)).Sound := by
  obtain ⟨lineage, tracks, borrowed⟩ := sound.tracked
  have stepped : tree.heap.step (.clone source children) =
      some (tree.heap.clone source (children.map .given)) := if_pos ⟨made, list⟩
  have later : ∀ node, tree.cloned node = true → update tree.cloned source true node = true := by
    intro node isCloned
    by_cases same : node = source
    · simp [same]
    · simpa [same] using isCloned
  apply sound.added (step_tracks tracks stepped)
  · intro clone node uses
    by_cases new : clone = lineage.nodeCount
    · simp only [Lineage.record, new, update_self] at uses
      split at uses
      · exact absurd uses (by simp)
      · split at uses
        · cases uses
          simp
        · exact later _ (borrowed _ _ uses)
    · simp only [Lineage.record, update_of_ne new] at uses
      exact later _ (borrowed _ _ uses)
  · intro index isGiven
    cases children with
    | none => exact sound.given source index isGiven
    | some =>
      cases isGiven
      exact list _ rfl
  · intro node unmade
    have old : node ≠ source := Nat.ne_of_gt (Nat.lt_trans made unmade)
    rw [update_of_ne old]
    exact (sound.unmade node (Nat.le_of_lt unmade)).2

theorem mutate (sound : tree.Sound) {node : NodeId} (made : node < tree.heap.nodeCount)
    (notCloned : tree.cloned node = false) (change : List NodeId → List NodeId)
    (nodup : (change (tree.getChildren node)).Nodup)
    (children : ∀ child ∈ change (tree.getChildren node), child < tree.heap.nodeCount) :
    let heap := (tree.heap.cloneChildrenIfShared node).mutate node change
    Sound { tree with heap } ∧ heap.nodeCount = tree.heap.nodeCount ∧
      heap.getChildren node = change (tree.getChildren node) ∧
      ∀ other < tree.heap.nodeCount, other ≠ node →
        heap.getChildren other = tree.getChildren other := by
  intro heap
  obtain ⟨lineage, tracks, borrowed⟩ := sound.tracked
  have count : heap.nodeCount = tree.heap.nodeCount :=
    cloneChildrenIfShared_nodeCount tree.heap node
  -- No clone still reads the list of a node that was not cloned.
  have unborrowed : ∀ clone < lineage.nodeCount, lineage.source clone ≠ some node := by
    intro clone _ uses
    rw [borrowed clone node uses] at notCloned
    cases notCloned
  have isolated := mutation_isolated tracks change unborrowed
  have lists := mutation_lists tree.heap node change
  refine ⟨⟨?_, ?_, ?_, ?_, ?_⟩, count, isolated⟩
  -- The fields in the order of `Sound`: the lists' owners, then what holds of each list.
  · refine ⟨_, (tracks.cloneChildrenIfShared made).mutate node change, fun clone owner uses => ?_⟩
    by_cases same : clone = node
    · simp [same] at uses
    · simp only [update_of_ne same] at uses
      exact borrowed clone owner uses
  · intro address
    rcases lists address with changed | ⟨other, kept⟩
    · rw [changed]
      exact nodup
    · rw [kept]
      exact sound.nodup other
  · intro address child member
    simp only [count]
    rcases lists address with changed | ⟨other, kept⟩
    · rw [changed] at member
      exact children child member
    · rw [kept] at member
      exact sound.made other child member
  · intro other index isGiven
    rw [mutation_givenCount tree.heap node change]
    exact mutation_given tree.heap node change sound.given other index isGiven
  · intro other unmade
    exact sound.unmade other (count ▸ unmade)

end Sound

section Added

variable {tree : YogaTree} (object : NodeObject) (yogaNode : YogaNode) (cloned : NodeId → Bool)

variable {list : List NodeId}

theorem added_filter (made : ∀ child ∈ list, child < tree.heap.nodeCount) :
    list.filter (tree.added object yogaNode cloned).isLayoutable =
      list.filter tree.isLayoutable := by
  apply filter_congr
  intro child member
  simp [isLayoutable, added, Nat.ne_of_lt (made child member)]

theorem added_getChildren {node : NodeId} (old : node ≠ tree.heap.nodeCount) :
    (tree.added object yogaNode cloned).getChildren node = tree.getChildren node := by
  simp [added, getChildren, allocate, NodeHeap.getChildren, old]

theorem added_getChildren_new :
    (tree.added object yogaNode cloned).getChildren tree.heap.nodeCount =
      tree.heap.lists object.children := by
  simp [added, getChildren, allocate, NodeHeap.getChildren]

theorem added_mirrorsAt {node : NodeId} (old : node ≠ tree.heap.nodeCount)
    (made : ∀ child ∈ list, child < tree.heap.nodeCount) (mirror : tree.MirrorsAt node list) :
    (tree.added object yogaNode cloned).MirrorsAt node list := by
  unfold MirrorsAt at mirror ⊢
  rw [added_filter object yogaNode cloned made]
  simpa [added, isLayoutable, old] using mirror

theorem added_mirrorsAt_new (made : ∀ child ∈ list, child < tree.heap.nodeCount)
    (mirror : yogaNode.children =
      if yogaNode.yogaLayoutableKind ∧ ¬ yogaNode.leafYogaNode then list.filter tree.isLayoutable
      else []) :
    (tree.added object yogaNode cloned).MirrorsAt tree.heap.nodeCount list := by
  unfold MirrorsAt
  rw [added_filter object yogaNode cloned made]
  simpa [added, isLayoutable] using mirror

theorem added_owners (sound : tree.Sound) (free : yogaNode.owner = none)
    (owners : ∀ node owner, (tree.yoga node).owner = some owner → node ∈ (tree.yoga owner).children)
    (node owner : NodeId) (owned : ((tree.added object yogaNode cloned).yoga node).owner = some owner) :
    node ∈ ((tree.added object yogaNode cloned).yoga owner).children := by
  by_cases new : node = tree.heap.nodeCount
  · simp [added, new, free] at owned
  · have member := owners node owner (by simpa [added, new] using owned)
    have old : owner ≠ tree.heap.nodeCount := by
      rintro rfl
      rw [(sound.unmade _ (Nat.le_refl _)).1] at member
      cases member
    simpa [added, old] using member

end Added

section Setters

variable (tree : YogaTree) (node other owner : NodeId) (list : List NodeId)

theorem setOwner_yoga : (tree.setOwner node owner).yoga other =
      { tree.yoga other with
        owner := if other = node then some owner else (tree.yoga other).owner } := by
  by_cases same : other = node
  · subst same
    simp [setOwner]
  · simp [setOwner, same]

theorem setYogaChildren_yoga : (tree.setYogaChildren node list).yoga other =
      { tree.yoga other with
        children := if other = node then list else (tree.yoga other).children } := by
  by_cases same : other = node
  · subst same
    simp [setYogaChildren]
  · simp [setYogaChildren, same]

@[simp] theorem setOwner_children :
    ((tree.setOwner node owner).yoga other).children = (tree.yoga other).children := by
  rw [setOwner_yoga]

@[simp] theorem setOwner_isLayoutable :
    (tree.setOwner node owner).isLayoutable = tree.isLayoutable := by
  funext other
  simp only [isLayoutable, setOwner_yoga]

@[simp] theorem setYogaChildren_isLayoutable :
    (tree.setYogaChildren node list).isLayoutable = tree.isLayoutable := by
  funext other
  simp only [isLayoutable, setYogaChildren_yoga]

@[simp] theorem setOwner_getChildren :
    (tree.setOwner node owner).getChildren other = tree.getChildren other := rfl

@[simp] theorem setYogaChildren_getChildren :
    (tree.setYogaChildren node list).getChildren other = tree.getChildren other := rfl

theorem setOwner_setYogaChildren (child : NodeId) :
    (tree.setYogaChildren node list).setOwner child owner =
      (tree.setOwner child owner).setYogaChildren node list := by
  have same : ((tree.setYogaChildren node list).setOwner child owner).yoga =
      ((tree.setOwner child owner).setYogaChildren node list).yoga := by
    funext other
    simp only [setOwner_yoga, setYogaChildren_yoga]
  simp only [setOwner, setYogaChildren] at same ⊢
  rw [same]

end Setters

/-! ### A node that is being edited -/

/-- All nodes but one mirror their lists; the Yoga node of that one shows the nodes of
another list. -/
structure Editing (tree : YogaTree) (node : NodeId) (shown : List NodeId) : Prop where
  sound : tree.Sound
  made : node < tree.heap.nodeCount
  notCloned : tree.cloned node = false
  others : ∀ other, other ≠ node → tree.MirrorsAt other (tree.getChildren other)
  here : tree.MirrorsAt node shown
  shownMade : ∀ child ∈ shown, child < tree.heap.nodeCount
  owners : ∀ child owner, (tree.yoga child).owner = some owner → child ∈ (tree.yoga owner).children

theorem Mirrors.editing {tree : YogaTree} (mirrors : tree.Mirrors) (sound : tree.Sound)
    {node : NodeId} (made : node < tree.heap.nodeCount) (notCloned : tree.cloned node = false) :
    Editing tree node (tree.getChildren node) where
  sound := sound
  made := made
  notCloned := notCloned
  others other _ := mirrors.children other
  here := mirrors.children node
  shownMade _ member := sound.child_made member
  owners := mirrors.owners

namespace Editing

variable {tree : YogaTree} {node child : NodeId} {shown before after : List NodeId}

section

variable (editing : Editing tree node shown)
include editing

theorem mirrors (list : tree.getChildren node = shown) : tree.Mirrors := by
  constructor
  · intro other
    by_cases same : other = node
    · rw [same, list]
      exact editing.here
    · exact editing.others other same
  · exact editing.owners

theorem cloneNode (made : child < tree.heap.nodeCount) (differ : child ≠ node) :
    Editing (tree.cloneNode child none) node shown := by
  have old : node ≠ tree.heap.nodeCount := Nat.ne_of_lt editing.made
  constructor
  · exact editing.sound.cloneNode made none (by simp)
  · exact Nat.lt_succ_of_lt editing.made
  · simpa [YogaTree.cloneNode, Ne.symm differ] using editing.notCloned
  · intro other notHere
    by_cases new : other = tree.heap.nodeCount
    · subst new
      rw [cloneNode_eq_added, added_getChildren_new]
      exact added_mirrorsAt_new _ _ _ (editing.sound.made _) (editing.others child differ)
    · rw [cloneNode_eq_added, added_getChildren _ _ _ new]
      exact added_mirrorsAt _ _ _ new (editing.sound.made _) (editing.others other notHere)
  · exact added_mirrorsAt _ _ _ old editing.shownMade editing.here
  · intro x member
    exact Nat.lt_succ_of_lt (editing.shownMade x member)
  · exact added_owners _ _ _ editing.sound rfl editing.owners

theorem mutate (change : List NodeId → List NodeId) (nodup : (change (tree.getChildren node)).Nodup)
    (children : ∀ x ∈ change (tree.getChildren node), x < tree.heap.nodeCount) :
    let heap := (tree.heap.cloneChildrenIfShared node).mutate node change
    Editing { tree with heap } node shown ∧
      heap.getChildren node = change (tree.getChildren node) := by
  intro heap
  obtain ⟨sound, count, here, others⟩ :=
    editing.sound.mutate editing.made editing.notCloned change nodup children
  refine ⟨⟨sound, ?_, editing.notCloned, ?_, editing.here, ?_, editing.owners⟩, here⟩
  · exact count ▸ editing.made
  · intro other notHere
    have mirror := editing.others other notHere
    by_cases made : other < tree.heap.nodeCount
    · have same : getChildren { tree with heap } other = tree.getChildren other :=
        others other made notHere
      rw [same]
      exact mirror
    · -- A node that was not made yet has no Yoga node.
      have unmade := (editing.sound.unmade other (Nat.le_of_not_lt made)).1
      simp [MirrorsAt, isLayoutable, unmade]
  · intro x member
    exact count ▸ editing.shownMade x member

theorem display {list : List NodeId} (layoutable : tree.isLayoutable node = true)
    (notLeaf : (tree.yoga node).leafYogaNode = false)
    (listMade : ∀ x ∈ list, x < tree.heap.nodeCount) (taken : child ∈ list.filter tree.isLayoutable)
    (kept : ∀ x, (tree.yoga x).owner = some node → x ∈ list.filter tree.isLayoutable) :
    Editing ((tree.setOwner child node).setYogaChildren node (list.filter tree.isLayoutable))
      node list := by
  constructor
  -- Only `node` and `child` have changed, and both are already made.
  · refine { editing.sound with unmade := fun other unmade => ⟨?_, ?_⟩ }
    swap
    · exact (editing.sound.unmade other unmade).2
    have notNode : other ≠ node := Nat.ne_of_gt (Nat.lt_of_lt_of_le editing.made unmade)
    have notChild : other ≠ child :=
      Nat.ne_of_gt (Nat.lt_of_lt_of_le (listMade child (mem_filter.mp taken).1) unmade)
    rw [setYogaChildren_yoga, setOwner_yoga]
    simp [notNode, notChild, (editing.sound.unmade other unmade).1]
  · exact editing.made
  · exact editing.notCloned
  · intro other notHere
    have mirror := editing.others other notHere
    unfold MirrorsAt at mirror ⊢
    simpa [setYogaChildren_yoga, setOwner_yoga, notHere] using mirror
  · simp [MirrorsAt, setYogaChildren_yoga, setOwner_yoga, layoutable, notLeaf]
  · exact listMade
  -- The child taken belongs to `node` now; of the others those of `node` were kept.
  · intro x owner owned
    simp only [setYogaChildren_yoga, setOwner_yoga] at owned ⊢
    by_cases isTaken : x = child
    · subst isTaken
      rw [if_pos rfl] at owned
      cases owned
      rw [if_pos rfl]
      exact taken
    · rw [if_neg isTaken] at owned
      by_cases here : owner = node
      · subst here
        rw [if_pos rfl]
        exact kept x owned
      · rw [if_neg here]
        exact editing.owners x owner owned

theorem cloneAndReplaceChild (list : tree.getChildren node = before ++ child :: after)
    (differ : child ≠ node) (suggestedIndex : Int) :
    ∃ next, tree.cloneAndReplaceChild node child suggestedIndex = some (next, tree.heap.nodeCount) ∧
      Editing next node shown ∧
      next.getChildren node = before ++ tree.heap.nodeCount :: after ∧
      next.yoga = update tree.yoga tree.heap.nodeCount
        { tree.yoga child with owner := none } := by
  have childMember : child ∈ tree.getChildren node := by simp [list]
  have childMade := editing.sound.child_made childMember
  have nodup : (before ++ child :: after).Nodup := list ▸ editing.sound.nodup _
  have cloned := editing.cloneNode childMade differ
  have isOld : node ≠ tree.heap.nodeCount := Nat.ne_of_lt editing.made
  have sameList : (tree.cloneNode child none).getChildren node = before ++ child :: after := by
    rw [← list]
    simp [YogaTree.cloneNode, getChildren, NodeHeap.clone, allocate, NodeHeap.getChildren, isOld]
  obtain ⟨index, replaced⟩ := replaceIn_of_nodup nodup tree.heap.nodeCount suggestedIndex
  -- The new node is in no list yet, so that the changed list has no repeats either.
  have listMade : ∀ x ∈ before ++ child :: after, x < tree.heap.nodeCount := by
    intro x member
    exact editing.sound.child_made (list ▸ member)
  have fresh : tree.heap.nodeCount ∉ before ++ child :: after := fun member =>
    Nat.lt_irrefl _ (listMade _ member)
  have changed : (before ++ tree.heap.nodeCount :: after).Nodup := by
    grind
  have changedMade : ∀ x ∈ before ++ tree.heap.nodeCount :: after,
      x < (tree.cloneNode child none).heap.nodeCount := by
    intro x member
    simp only [mem_append, mem_cons] at member
    rcases member with early | rfl | late
    · exact Nat.lt_succ_of_lt (listMade x (by simp [early]))
    · exact Nat.lt_succ_self _
    · exact Nat.lt_succ_of_lt (listMade x (by simp [late]))
  rw [← replaced, ← sameList] at changed changedMade
  obtain ⟨editing', here⟩ := cloned.mutate _ changed changedMade
  refine ⟨_, ?_, editing', ?_, rfl⟩
  · simp only [YogaTree.cloneAndReplaceChild, replaceChild, sameList, index]
    rfl
  · exact here.trans (by rw [sameList, replaced])

end

section

variable (editing : Editing tree node before)
  (list : tree.getChildren node = before ++ child :: after)
  (layoutable : tree.isLayoutable node = true) (notLeaf : (tree.yoga node).leafYogaNode = false)
  (childLayoutable : tree.isLayoutable child = true)
include editing list layoutable notLeaf childLayoutable

theorem insertLast :
    Editing ((tree.setOwner child node).setYogaChildren node
      (((tree.setOwner child node).yoga node).children ++ [child])) node (before ++ [child]) := by
  have children : (tree.yoga node).children = before.filter tree.isLayoutable := by
    have here := editing.here
    rwa [MirrorsAt, if_pos ⟨layoutable, by simp [notLeaf]⟩] at here
  have filtered : (before ++ [child]).filter tree.isLayoutable =
      before.filter tree.isLayoutable ++ [child] := by
    simp [childLayoutable]
  have listMade : ∀ x ∈ before ++ [child], x < tree.heap.nodeCount := by
    intro x member
    apply editing.sound.child_made
    rw [list]
    simp only [mem_append, mem_cons, not_mem_nil, or_false] at member ⊢
    rcases member with early | last
    · exact .inl early
    · exact .inr (.inl last)
  rw [setOwner_children, children, ← filtered]
  apply editing.display layoutable notLeaf listMade
  · rw [filtered]
    simp
  · intro x owned
    rw [filtered, ← children]
    exact mem_append_left _ (editing.owners x node owned)

/-- **Insertion of a Yoga child.** The child that comes next among the shadow children,
or its clone in the same place, becomes the last Yoga child. -/
theorem appendChildYogaNode (differ : (tree.yoga child).owner ≠ none → child ≠ node) :
    ∃ next inserted, tree.appendChildYogaNode node child = some next ∧
      next.getChildren node = before ++ inserted :: after ∧
      Editing next node (before ++ [inserted]) ∧
      next.isLayoutable node = true ∧ (next.yoga node).leafYogaNode = false := by
  by_cases free : (tree.yoga child).owner = none
  · refine ⟨_, child, ?_, ?_, editing.insertLast list layoutable notLeaf childLayoutable, ?_, ?_⟩
    · simp [YogaTree.appendChildYogaNode, notLeaf, free]
    · exact list
    · simpa using layoutable
    · simpa [setYogaChildren_yoga, setOwner_yoga] using notLeaf
  · obtain ⟨cloned, cloneEq, editing', list', yoga⟩ :=
      editing.cloneAndReplaceChild list (differ free) (tree.yoga node).children.length
    have layoutable' : cloned.isLayoutable node = true := by
      rw [isLayoutable, yoga, update_of_ne (Nat.ne_of_lt editing.made)]
      exact layoutable
    have notLeaf' : (cloned.yoga node).leafYogaNode = false := by
      rwa [yoga, update_of_ne (Nat.ne_of_lt editing.made)]
    have cloneLayoutable : cloned.isLayoutable tree.heap.nodeCount = true := by
      rw [isLayoutable, yoga, update_self]
      exact childLayoutable
    have cloneFree : (cloned.yoga tree.heap.nodeCount).owner = none := by
      rw [yoga, update_self]
    refine ⟨_, tree.heap.nodeCount, ?_, ?_,
      editing'.insertLast list' layoutable' notLeaf' cloneLayoutable, ?_, ?_⟩
    · simp [YogaTree.appendChildYogaNode, notLeaf, free, cloneEq, cloneFree]
    · exact list'
    · simpa using layoutable'
    · simpa [setYogaChildren_yoga, setOwner_yoga] using notLeaf'

end

theorem appendYogaChildren (editing : Editing tree node before)
    (list : tree.getChildren node = before ++ after)
    (layoutable : tree.isLayoutable node = true) (notLeaf : (tree.yoga node).leafYogaNode = false)
    (notOwn : node ∉ after) :
    ∃ next, tree.appendYogaChildren node after = some next ∧ next.Mirrors ∧ next.Sound := by
  induction after generalizing tree before with
  | nil =>
    rw [append_nil] at list
    exact ⟨tree, rfl, editing.mirrors list, editing.sound⟩
  | cons child rest ih =>
    have differ : child ≠ node := fun same => notOwn (by simp [same])
    have notOwnRest : node ∉ rest := fun member => notOwn (by simp [member])
    by_cases childLayoutable : tree.isLayoutable child = true
    · obtain ⟨next, _, nextEq, list', editing', layoutable', notLeaf'⟩ :=
        editing.appendChildYogaNode list layoutable notLeaf childLayoutable fun _ => differ
      rw [append_cons] at list'
      obtain ⟨final, finalEq, result⟩ := ih editing' list' layoutable' notLeaf' notOwnRest
      refine ⟨final, ?_, result⟩
      simp [YogaTree.appendYogaChildren, childLayoutable, nextEq, finalEq]
    · -- A child without a Yoga node is passed over.
      have skipped : Editing tree node (before ++ [child]) := by
        refine { editing with here := ?_, shownMade := ?_ }
        · have here := editing.here
          rw [MirrorsAt] at here ⊢
          simpa [childLayoutable] using here
        · intro x member
          apply editing.sound.child_made
          rw [list, append_cons]
          exact mem_append_left _ member
      rw [append_cons] at list
      obtain ⟨final, finalEq, result⟩ := ih skipped list layoutable notLeaf notOwnRest
      refine ⟨final, ?_, result⟩
      simp [YogaTree.appendYogaChildren, childLayoutable, finalEq]

end Editing

section Steps

variable {tree : YogaTree} (mirrors : tree.Mirrors) (sound : tree.Sound)
include mirrors sound

variable {object : NodeObject} {yogaNode : YogaNode} {cloned : NodeId → Bool}

theorem added_mirrors (free : yogaNode.owner = none) (mirror : yogaNode.children =
      if yogaNode.yogaLayoutableKind ∧ ¬ yogaNode.leafYogaNode then
        (tree.heap.lists object.children).filter tree.isLayoutable
      else []) : (tree.added object yogaNode cloned).Mirrors := by
  constructor
  · intro node
    by_cases new : node = tree.heap.nodeCount
    · subst new
      rw [added_getChildren_new]
      exact added_mirrorsAt_new _ _ _ (sound.made _) mirror
    · rw [added_getChildren _ _ _ new]
      exact added_mirrorsAt _ _ _ new (sound.made _) (mirrors.children node)
  · exact added_owners _ _ _ sound free mirrors.owners

theorem added_updateYogaChildren (addedSound : (tree.added object yogaNode cloned).Sound)
    (free : yogaNode.owner = none) (layoutable : yogaNode.yogaLayoutableKind = true)
    (notLeaf : yogaNode.leafYogaNode = false) (notCloned : cloned tree.heap.nodeCount = false) :
    ∃ next, (tree.added object yogaNode cloned).updateYogaChildren tree.heap.nodeCount =
        some next ∧ next.Mirrors ∧ next.Sound := by
  have emptied : (tree.added object yogaNode cloned).setYogaChildren tree.heap.nodeCount [] =
      tree.added object { yogaNode with children := [] } cloned := by
    simp [setYogaChildren, added]
  have list := @added_getChildren_new tree object { yogaNode with children := [] } cloned
  have editing : Editing (tree.added object { yogaNode with children := [] } cloned)
      tree.heap.nodeCount [] := by
    constructor
    · refine { addedSound with unmade := fun node later => ⟨?_, (addedSound.unmade node later).2⟩ }
      have old : node ≠ tree.heap.nodeCount := Nat.ne_of_gt later
      simpa [added, old] using (addedSound.unmade node later).1
    · exact Nat.lt_succ_self _
    · exact notCloned
    · intro other notHere
      rw [added_getChildren _ _ _ notHere]
      exact added_mirrorsAt _ _ _ notHere (sound.made _) (mirrors.children other)
    · simp [MirrorsAt, added]
    · simp
    · exact added_owners _ _ _ sound free mirrors.owners
  have notOwn : tree.heap.nodeCount ∉ tree.heap.lists object.children := fun member =>
    Nat.lt_irrefl _ (sound.made _ _ member)
  obtain ⟨next, nextEq, result⟩ := editing.appendYogaChildren (by simpa using list)
    (by simp [isLayoutable, added, layoutable]) (by simp [added, notLeaf]) notOwn
  refine ⟨next, ?_, result⟩
  rw [updateYogaChildren, if_neg (by simp [added, notLeaf]), emptied, added_getChildren_new, nextEq]

theorem create_mirrors (yogaLayoutableKind leafYogaNode : Bool) (children : Option Nat)
    (list : ∀ list ∈ children, list < tree.heap.givenCount) :
    ∃ next, tree.create yogaLayoutableKind leafYogaNode (children.map .given) = some next ∧
      next.Mirrors ∧ next.Sound := by
  obtain ⟨_, tracks, borrowed⟩ := sound.tracked
  have stepped : tree.heap.step (.create children) =
      some (tree.heap.create (children.map .given)) := if_pos list
  have first := sound.unmade tree.heap.nodeCount (Nat.le_refl _)
  have addedSound : (tree.added { children := (children.map ListAddress.given).getD (.given 0) }
      { yogaLayoutableKind, leafYogaNode } tree.cloned).Sound := by
    apply sound.added (step_tracks tracks stepped) borrowed
    · intro index isGiven
      cases children with
      | none =>
        -- The empty list is given from the start.
        cases isGiven
        obtain ⟨_, tracks', -⟩ := sound.tracked
        apply sound.given tree.heap.nodeCount
        rw [(tracks'.unmade _ (Nat.le_refl _)).1]
      | some =>
        cases isGiven
        exact list _ rfl
    · intro node later
      exact (sound.unmade node (Nat.le_of_lt later)).2
  by_cases rebuilds : yogaLayoutableKind = true ∧ leafYogaNode = false
  · obtain ⟨next, nextEq, result⟩ := added_updateYogaChildren mirrors sound addedSound rfl
      rebuilds.1 rebuilds.2 first.2
    refine ⟨next, ?_, result⟩
    rw [create, if_pos rebuilds.1]
    exact nextEq
  · refine ⟨_, ?_, added_mirrors mirrors sound rfl ?_, addedSound⟩
    · unfold create
      split
      · next layoutable =>
        have leaf : leafYogaNode = true := by
          simpa [layoutable] using rebuilds
        rw [updateYogaChildren, if_pos]
        · rfl
        · simpa using leaf
      · rfl
    · rw [if_neg]
      simpa using rebuilds

theorem clone_mirrors {source : NodeId} (made : source < tree.heap.nodeCount)
    (children : Option Nat) (list : ∀ list ∈ children, list < tree.heap.givenCount) :
    ∃ next, tree.clone source (children.map .given) = some next ∧ next.Mirrors ∧ next.Sound := by
  have addedSound := sound.cloneNode made children list
  have old : tree.heap.nodeCount ≠ source := Nat.ne_of_gt made
  have notCloned : update tree.cloned source true tree.heap.nodeCount = false := by
    rw [update_of_ne old]
    exact (sound.unmade _ (Nat.le_refl _)).2
  have layoutable : (tree.cloneNode source (children.map .given)).isLayoutable
      tree.heap.nodeCount = tree.isLayoutable source := by
    simp [isLayoutable, cloneNode]
  have mirror := mirrors.children source
  -- Without a list of the caller the clone shows what its source shows.
  cases children with
  | none =>
    refine ⟨tree.cloneNode source none, by simp [clone], added_mirrors mirrors sound rfl ?_,
      addedSound⟩
    exact mirror
  | some fromCaller =>
    -- With one, a layoutable node that is no leaf builds its Yoga children again.
    by_cases rebuilds : tree.isLayoutable source = true ∧ (tree.yoga source).leafYogaNode = false
    · obtain ⟨next, nextEq, result⟩ := added_updateYogaChildren mirrors sound addedSound rfl
        rebuilds.1 rebuilds.2 notCloned
      refine ⟨next, ?_, result⟩
      rw [clone, if_pos ⟨layoutable.trans rebuilds.1, rfl⟩]
      exact nextEq
    · -- The source has no Yoga children, and so has the clone.
      have without : ¬ (tree.isLayoutable source = true ∧
          ¬ (tree.yoga source).leafYogaNode = true) := by
        simpa using rebuilds
      rw [MirrorsAt, if_neg without] at mirror
      refine ⟨tree.cloneNode source (some (.given fromCaller)), ?_,
        added_mirrors mirrors sound rfl ?_, addedSound⟩
      · simp only [clone, Option.map_some]
        split
        · next rebuilt =>
          have leaf : (tree.yoga source).leafYogaNode = true := by
            have isLayoutable := layoutable.symm.trans rebuilt.1
            simpa [isLayoutable] using rebuilds
          rw [updateYogaChildren, if_pos]
          simpa [cloneNode] using leaf
        · rfl
      · exact mirror.trans (if_neg without).symm

theorem makeList_mirrors {contents : List NodeId}
    (made : ∀ node ∈ contents, node < tree.heap.nodeCount) (nodup : contents.Nodup) :
    Mirrors { tree with heap := tree.heap.makeList contents } ∧
      Sound { tree with heap := tree.heap.makeList contents } := by
  -- The new list is used by no node yet.
  have kept : ∀ node, (tree.heap.makeList contents).getChildren node = tree.getChildren node := by
    intro node
    have unused : (tree.heap.nodes node).children ≠ .given tree.heap.givenCount := fun isGiven =>
      Nat.lt_irrefl _ (sound.given node _ isGiven)
    simp [NodeHeap.makeList, NodeHeap.getChildren, getChildren, unused]
  constructor
  · constructor
    · intro node
      have same : getChildren { tree with heap := tree.heap.makeList contents } node =
          tree.getChildren node := kept node
      rw [same]
      exact mirrors.children node
    · exact mirrors.owners
  · obtain ⟨_, tracks, borrowed⟩ := sound.tracked
    have stepped : tree.heap.step (.makeList contents) = some (tree.heap.makeList contents) :=
      if_pos made
    constructor
    · exact ⟨_, step_tracks tracks stepped, borrowed⟩
    · intro address
      by_cases new : address = .given tree.heap.givenCount
      · simpa [NodeHeap.makeList, new] using nodup
      · simpa [NodeHeap.makeList, new] using sound.nodup address
    · intro address child member
      by_cases new : address = .given tree.heap.givenCount
      · exact made child (by simpa [NodeHeap.makeList, new] using member)
      · exact sound.made address child (by simpa [NodeHeap.makeList, new] using member)
    · intro node index isGiven
      exact Nat.lt_succ_of_lt (sound.given node index isGiven)
    · exact sound.unmade

theorem appendChild_mirrors {node child : NodeId} (permitted : tree.Permitted (.appendChild node child))
    (noRepeats : child ∉ tree.getChildren node) :
    ∃ next, tree.appendChild node child = some next ∧ next.Mirrors ∧ next.Sound := by
  obtain ⟨made, childMade, notCloned, differ⟩ := permitted
  have nodup : (tree.getChildren node ++ [child]).Nodup := by
    rw [nodup_append]
    refine ⟨sound.nodup _, by simp, fun x member y last => ?_⟩
    rw [mem_singleton] at last
    rintro rfl
    exact noRepeats (last ▸ member)
  have listMade : ∀ x ∈ tree.getChildren node ++ [child], x < tree.heap.nodeCount := by
    intro x member
    rcases mem_append.mp member with early | last
    · exact sound.child_made early
    · rw [mem_singleton] at last
      exact last ▸ childMade
  obtain ⟨editing, list⟩ := (mirrors.editing sound made notCloned).mutate
    (fun children => children ++ [child]) nodup listMade
  -- Where no Yoga child is inserted, none was to be shown.
  have unchanged : ¬ (tree.isLayoutable node = true ∧ tree.isLayoutable child = true ∧
      (tree.yoga node).leafYogaNode = false) →
      tree.MirrorsAt node (tree.getChildren node ++ [child]) := by
    intro inserts
    have mirror := mirrors.children node
    unfold MirrorsAt at mirror ⊢
    by_cases shows : tree.isLayoutable node = true ∧ ¬ (tree.yoga node).leafYogaNode = true
    · have hidden : tree.isLayoutable child = false := by
        simpa [shows.1, shows.2] using inserts
      simpa [hidden] using mirror
    · rw [if_neg shows] at mirror ⊢
      exact mirror
  by_cases inserts : tree.isLayoutable node = true ∧ tree.isLayoutable child = true ∧
      (tree.yoga node).leafYogaNode = false
  · obtain ⟨layoutable, childLayoutable, notLeaf⟩ := inserts
    obtain ⟨next, _, nextEq, list', editing', -⟩ :=
      editing.appendChildYogaNode list layoutable notLeaf childLayoutable fun owned =>
        differ ⟨layoutable, childLayoutable, by simp [notLeaf], owned⟩
    refine ⟨next, ?_, editing'.mirrors list', editing'.sound⟩
    rw [appendChild, if_pos ⟨layoutable, childLayoutable⟩]
    exact nextEq
  · have shown : Editing { tree with heap := tree.heap.appendChild node child } node
        (tree.getChildren node ++ [child]) :=
      { editing with
        here := unchanged inserts
        shownMade := fun x member => editing.sound.child_made (list ▸ member) }
    refine ⟨_, ?_, shown.mirrors list, shown.sound⟩
    by_cases both : tree.isLayoutable node = true ∧ tree.isLayoutable child = true
    · have leaf : (tree.yoga node).leafYogaNode = true := by
        simpa [both.1, both.2] using inserts
      exact (if_pos both).trans (if_pos leaf)
    · exact if_neg both

theorem cloneChildIfNeeded_mirrors {parent : NodeId} {childIndex : Nat}
    (permitted : tree.Permitted (.cloneChildIfNeeded parent childIndex)) :
    ∃ next, tree.cloneChildIfNeeded parent childIndex = some next ∧ next.Mirrors ∧ next.Sound := by
  obtain ⟨made, inRange, spared⟩ := permitted
  obtain ⟨child, found⟩ : ∃ child, (tree.yoga parent).children[childIndex]? = some child :=
    ⟨_, getElem?_eq_getElem inRange⟩
  by_cases owned : (tree.yoga child).owner = some parent
  · exact ⟨tree, by simp [cloneChildIfNeeded, found, owned], mirrors, sound⟩
  obtain ⟨notCloned, differ⟩ := spared child found owned
  have mirror := mirrors.children parent
  have shows : tree.isLayoutable parent = true ∧ ¬ (tree.yoga parent).leafYogaNode = true := by
    by_contra hides
    rw [MirrorsAt, if_neg hides] at mirror
    simp [mirror] at found
  rw [MirrorsAt, if_pos shows] at mirror
  have member : child ∈ (tree.yoga parent).children := mem_of_getElem? found
  rw [mirror] at member
  obtain ⟨inList, childLayoutable⟩ := mem_filter.mp member
  obtain ⟨before, after, list⟩ := append_of_mem inList
  obtain ⟨cloned, cloneEq, editing, list', yoga⟩ :=
    (mirrors.editing sound made notCloned).cloneAndReplaceChild list differ childIndex
  have childMade := sound.child_made inList
  have nodup : ((tree.yoga parent).children).Nodup := by
    rw [mirror]
    exact (sound.nodup _).filter _
  have parentSame : cloned.yoga parent = tree.yoga parent := by
    rw [yoga, update_of_ne (Nat.ne_of_lt made)]
  have cloneLayoutable : cloned.isLayoutable tree.heap.nodeCount = true := by
    rw [isLayoutable, yoga, update_self]
    exact childLayoutable
  have kept : ∀ part : List NodeId, (∀ x ∈ part, x ∈ tree.getChildren parent) →
      part.filter cloned.isLayoutable = part.filter tree.isLayoutable := by
    intro part inside
    apply filter_congr
    intro x inPart
    have old := Nat.ne_of_lt (sound.child_made (inside x inPart))
    rw [isLayoutable, yoga, update_of_ne old]
    rfl
  -- The Yoga children around the replaced one.
  have split : (tree.yoga parent).children = before.filter cloned.isLayoutable ++
      child :: after.filter cloned.isLayoutable := by
    rw [mirror, kept before (fun x inPart => by simp [list, inPart]),
      kept after (fun x inPart => by simp [list, inPart]), list]
    simp [childLayoutable]
  have shown : (cloned.yoga parent).children.set childIndex tree.heap.nodeCount =
      (before ++ tree.heap.nodeCount :: after).filter cloned.isLayoutable := by
    rw [parentSame, split]
    have index : childIndex = (before.filter cloned.isLayoutable).length := by
      rw [split] at found nodup
      obtain ⟨_, found⟩ := List.getElem?_eq_some_iff.mp found
      have same : (before.filter cloned.isLayoutable ++
            child :: after.filter cloned.isLayoutable)[childIndex] =
          (before.filter cloned.isLayoutable ++ child :: after.filter cloned.isLayoutable)[
            (before.filter cloned.isLayoutable).length] := by
        rw [found]
        simp
      exact nodup.getElem_inj_iff.mp same
    rw [index]
    simp [cloneLayoutable]
  have displayed : Editing ((cloned.setOwner tree.heap.nodeCount parent).setYogaChildren parent
      ((before ++ tree.heap.nodeCount :: after).filter cloned.isLayoutable)) parent
      (before ++ tree.heap.nodeCount :: after) := by
    apply editing.display
    · rw [isLayoutable, parentSame]
      exact shows.1
    · rw [parentSame]
      simpa using shows.2
    · intro x inNew
      exact editing.sound.child_made (list' ▸ inNew)
    · simp [cloneLayoutable]
    · intro x ownedHere
      have stays := editing.owners x parent ownedHere
      rw [parentSame, split] at stays
      have notChild : x ≠ child := by
        rintro rfl
        rw [yoga, update_of_ne (Nat.ne_of_lt childMade)] at ownedHere
        exact owned ownedHere
      simp only [mem_append, mem_cons, notChild, false_or] at stays
      simp only [filter_append, mem_append, filter_cons, cloneLayoutable, if_true, mem_cons]
      rcases stays with early | late
      · exact .inl early
      · exact .inr (.inr late)
  refine ⟨_, ?_, displayed.mirrors list', displayed.sound⟩
  simp only [cloneChildIfNeeded, found, Option.bind_eq_bind, Option.bind_some, ne_eq, owned,
    not_false_eq_true, if_true, cloneEq, Option.pure_def, shown, setOwner_setYogaChildren]

end Steps

theorem step_mirrors {tree : YogaTree} {operation : Operation} (mirrors : tree.Mirrors)
    (sound : tree.Sound) (permitted : tree.Permitted operation)
    (noRepeats : tree.NoRepeats operation) :
    ∃ next, tree.step operation = some next ∧ next.Mirrors ∧ next.Sound := by
  cases operation with
  | makeList => exact ⟨_, rfl, makeList_mirrors mirrors sound permitted noRepeats⟩
  | create yogaLayoutableKind leafYogaNode children =>
    exact create_mirrors mirrors sound yogaLayoutableKind leafYogaNode children permitted
  | clone _ children =>
    exact clone_mirrors mirrors sound permitted.1 children permitted.2
  | appendChild => exact appendChild_mirrors mirrors sound permitted noRepeats
  | cloneChildIfNeeded =>
    exact cloneChildIfNeeded_mirrors mirrors sound permitted

theorem empty_mirrors : ({} : YogaTree).Mirrors := by
  constructor
  · simp [MirrorsAt, isLayoutable]
  · nofun

theorem empty_sound : ({} : YogaTree).Sound := by
  constructor
  · exact ⟨{}, tracks_empty, fun _ _ absurdly => (by cases absurdly)⟩
  · intro address
    exact nodup_nil
  · nofun
  · rintro node index ⟨⟩
    exact Nat.one_pos
  · intro node _
    exact ⟨rfl, rfl⟩

theorem run_yogaMirrors {operations : List Operation} (permitted : Runs.Along step
      (fun tree operation => tree.Permitted operation ∧ tree.NoRepeats operation) {} operations) :
    ∃ tree, Runs.run step {} operations = some tree ∧ tree.Mirrors ∧ tree.Sound :=
  Runs.run_progress (fun _ _ inv permitted => step_mirrors inv.1 inv.2 permitted.1 permitted.2)
    ⟨empty_mirrors, empty_sound⟩ permitted

/-- **The Yoga tree mirrors the shadow tree** after every run of operations that mutates
no node once it has been cloned and puts no node twice into a list of children; no
assertion fails on the way. -/
theorem yogaTree_mirrors {operations : List Operation}
    (permitted : Runs.Along step (fun tree operation =>
      tree.Permitted operation ∧ tree.NoRepeats operation) {} operations) :
    ∃ tree, Runs.run step {} operations = some tree ∧ tree.Mirrors := by
  obtain ⟨tree, ran, mirrors, -⟩ := run_yogaMirrors permitted
  exact ⟨tree, ran, mirrors⟩

theorem yogaTree_mirrors_cloned :
    ∃ tree, Runs.run step {} [.create false false none, .create true false none,
        .makeList [0, 1], .create true false (some 1), .clone 2 none, .cloneChildIfNeeded 3 0] =
      some tree ∧ tree.Mirrors := by
  apply yogaTree_mirrors
  iterate 6
    refine ⟨⟨by decide, by unfold NoRepeats; decide⟩, ?_⟩
    rintro _ ⟨⟩
  trivial

theorem repeated_child_breaks_mirror :
    let operations : List Operation := [.create false false none, .create true false none,
      .create true false none, .appendChild 2 0, .appendChild 2 1, .appendChild 2 1]
    Runs.Along step Permitted {} operations ∧
      ∃ tree, Runs.run step {} operations = some tree ∧ ¬ tree.Mirrors := by
  intro operations
  constructor
  · iterate 6
      refine ⟨by decide, ?_⟩
      rintro _ ⟨⟩
    trivial
  · refine ⟨_, rfl, fun mirrors => ?_⟩
    have parent := mirrors.children 2
    unfold MirrorsAt at parent
    exact absurd parent (by decide)

end YogaTree

end ReactNative


