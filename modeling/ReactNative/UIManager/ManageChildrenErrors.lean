import ReactNative.UIManager.ManageChildren

/-! What `UIImplementation.manageChildren` does to the shadow nodes when it throws. The children
that leave are looked up before anything is changed; everything else is checked on the way, and
nothing is put back. -/
namespace ReactNative

open List

/-- An array that is null is an empty one. -/
structure ReadableArrays where
  moveFrom : List ℤ := []
  moveTo : List ℤ := []
  addChildTags : List Tag := []
  addAtIndices : List ℤ := []
  removeFrom : List ℤ := []

structure ViewToAdd where
  tag : Tag
  index : ℤ
  deriving DecidableEq

/-- The merged and sorted arrays. -/
structure ChildrenChange where
  indicesToRemove : List ℤ
  tagsToRemove : List Tag
  viewsToAdd : List ViewToAdd
  tagsToDelete : List Tag

/-- `noYogaNode` is about a virtual child of a node that is laid out. `brokenHierarchy` stands for a
loop over the nodes above that does not end, and for nodes that the optimizer misses. -/
inductive ShadowNodeException where
  | illegalViewOperation (message : String)
  | indexOutOfBounds (index : ℤ)
  | illegalState (message : String)
  | noYogaNode (child node : Tag)
  | nullPointer
  | brokenHierarchy
  deriving DecidableEq

/-- The shadow nodes with their Yoga nodes, which virtual nodes lack. The lists of children of Yoga
nodes are created with the first child. -/
structure ShadowNodes extends UIImplementation where
  yogaChildren : Tag → Option (List Tag) := fun _ => none
  yogaOwner : Tag → Option Tag := fun _ => none

/-- An exception, and the nodes as they are when it is thrown. -/
structure Aborted where
  exception : ShadowNodeException
  nodes : ShadowNodes

namespace ShadowNodes

variable (nodes : ShadowNodes) (node : Tag)

def yogaRemoveChildAt (index : ℕ) : Except Aborted ShadowNodes :=
  match nodes.yogaChildren node with
  | none => .error ⟨.illegalState
      "Trying to remove a child of a YogaNode that does not have children", nodes⟩
  | some children =>
    match children[index]? with
    | none => .error ⟨.indexOutOfBounds index, nodes⟩
    | some removed => .ok { nodes with
        yogaChildren := Function.update nodes.yogaChildren node (some (children.eraseIdx index))
        yogaOwner := Function.update nodes.yogaOwner removed none }

def yogaAddChildAt (node child : Tag) (index : ℕ) : Except Aborted ShadowNodes :=
  if nodes.yogaOwner child ≠ none then
    .error ⟨.illegalState "Child already has a parent, it must be removed first.", nodes⟩
  else
    let children := (nodes.yogaChildren node).getD []
    if children.length < index then .error ⟨.indexOutOfBounds index, nodes⟩
    else .ok { nodes with
      yogaChildren := Function.update nodes.yogaChildren node (some (children.insertIdx index child))
      yogaOwner := Function.update nodes.yogaOwner child (some node) }

/-- The native children are counted last. -/
def count (delta : ℤ) : Except Aborted ShadowNodes :=
  match nodes.shadow.countChild node delta with
  | none => .error ⟨.brokenHierarchy, nodes⟩
  | some shadow => .ok { nodes with shadow := shadow }

def getChildAt (index : ℤ) : Except ShadowNodeException Tag :=
  if index < 0 then .error (.indexOutOfBounds index)
  else
    match (nodes.shadow.children node)[index.toNat]? with
    | none => .error (.indexOutOfBounds index)
    | some child => .ok child

/-- The link to a child, without what hangs on it. -/
def link (node child : Tag) (parent : Option Tag) (children : List Tag) : ShadowNodes :=
  { nodes with shadow := { nodes.shadow with
      children := Function.update nodes.shadow.children node children
      parent := Function.update nodes.shadow.parent child parent } }

/-- A leaf of Yoga manages no Yoga children. -/
def detachYogaNode (index : ℕ) : Except Aborted ShadowNodes :=
  if nodes.shadow.managesYogaChildren node then nodes.yogaRemoveChildAt node index else .ok nodes

def attachYogaNode (node child : Tag) (index : ℕ) : Except Aborted ShadowNodes :=
  if nodes.shadow.managesYogaChildren node then
    if (nodes.shadow.nodeClass child).isVirtual then .error ⟨.noYogaNode child node, nodes⟩
    else nodes.yogaAddChildAt node child index
  else .ok nodes

def removeChildAt (index : ℤ) : Except Aborted ShadowNodes :=
  match nodes.getChildAt node index with
  | .error exception => .error ⟨exception, nodes⟩
  | .ok removed => do
    let taken := nodes.link node removed none ((nodes.shadow.children node).eraseIdx index.toNat)
    let detached ← taken.detachYogaNode node index.toNat
    detached.count node (-detached.shadow.getTotalNativeNodeContributionToParent removed)

def addChildAt (node child : Tag) (index : ℤ) : Except Aborted ShadowNodes :=
  if index < 0 ∨ (nodes.shadow.children node).length < index then
    .error ⟨.indexOutOfBounds index, nodes⟩
  else do
    let added :=
      nodes.link node child (some node) ((nodes.shadow.children node).insertIdx index.toNat child)
    let attached ← added.attachYogaNode node child index.toNat
    attached.count node (attached.shadow.getTotalNativeNodeContributionToParent child)

end ShadowNodes

namespace ReadableArrays

/-- Children of a node that is not there cannot be looked up. -/
def lookUp (nodes : ShadowNodes) (viewTag : Tag) (index : ℤ) : Except ShadowNodeException Tag :=
  if viewTag ∉ nodes.shadow.registry then .error .nullPointer else nodes.getChildAt viewTag index

/-- Everything that is checked first. Moves are an addition and a removal. -/
def change (arrays : ReadableArrays) (nodes : ShadowNodes) (viewTag : Tag) :
    Except ShadowNodeException ChildrenChange := do
  let numToMove := arrays.moveFrom.length
  let numToAdd := arrays.addChildTags.length
  if numToMove ≠ 0 ∧ numToMove ≠ arrays.moveTo.length then
    .error (.illegalViewOperation "Size of moveFrom != size of moveTo!")
  else if numToAdd ≠ 0 ∧ numToAdd ≠ arrays.addAtIndices.length then
    .error (.illegalViewOperation "Size of addChildTags != size of addAtIndices!")
  else
    let tagsToMove ← arrays.moveFrom.mapM (lookUp nodes viewTag)
    let tagsToDelete ← arrays.removeFrom.mapM (lookUp nodes viewTag)
    let viewsToAdd := zipWith ViewToAdd.mk tagsToMove arrays.moveTo ++
      zipWith ViewToAdd.mk arrays.addChildTags arrays.addAtIndices
    return {
      indicesToRemove := (arrays.moveFrom ++ arrays.removeFrom).insertionSort (· ≤ ·)
      tagsToRemove := tagsToMove ++ tagsToDelete
      viewsToAdd := viewsToAdd.insertionSort (·.index ≤ ·.index)
      tagsToDelete := tagsToDelete }

end ReadableArrays

namespace ShadowNodes

def repeatedIndices (viewTag : Tag) : ShadowNodeException :=
  .illegalViewOperation ("Repeated indices in Removal list for view tag: " ++ toString viewTag)

def unknownViewTag (tag : Tag) : ShadowNodeException :=
  .illegalViewOperation ("Trying to add unknown view tag: " ++ toString tag)

def removeIndices (viewTag : Tag) : List ℤ → ℤ → ShadowNodes → Except Aborted ShadowNodes
  | [], _, nodes => .ok nodes
  | indexToRemove :: rest, lastIndexRemoved, nodes =>
    if indexToRemove = lastIndexRemoved then .error ⟨repeatedIndices viewTag, nodes⟩
    else (nodes.removeChildAt viewTag indexToRemove).bind (removeIndices viewTag rest indexToRemove)

def addViews (viewTag : Tag) : List ViewToAdd → ShadowNodes → Except Aborted ShadowNodes
  | [], nodes => .ok nodes
  | viewAtIndex :: rest, nodes =>
    if viewAtIndex.tag ∉ nodes.shadow.registry then
      .error ⟨unknownViewTag viewAtIndex.tag, nodes⟩
    else if viewTag ∉ nodes.shadow.registry then .error ⟨.nullPointer, nodes⟩
    else (nodes.addChildAt viewTag viewAtIndex.tag viewAtIndex.index).bind (addViews viewTag rest)

/-- The optimizer looks the tags up in the registry. -/
def handleManageChildren (nodes : ShadowNodes) (viewTag : Tag) (change : ChildrenChange) :
    Except Aborted ShadowNodes :=
  if change.tagsToRemove.any (· ∉ nodes.shadow.registry) then .error ⟨.nullPointer, nodes⟩
  else
    match Optimizer.handleManageChildren nodes.shadow viewTag change.tagsToRemove
        (change.viewsToAdd.map fun view => ⟨view.tag, view.index.toNat⟩) change.tagsToDelete
        nodes.native with
    | none => .error ⟨.brokenHierarchy, nodes⟩
    | some native => .ok { nodes with native := native }

variable (nodes : ShadowNodes)

def changeChildren (viewTag : Tag) (change : ChildrenChange) : Except Aborted ShadowNodes := do
  let removed ← nodes.removeIndices viewTag change.indicesToRemove.reverse (-1)
  let added ← removed.addViews viewTag change.viewsToAdd
  added.handleManageChildren viewTag change

/-- The nodes below are taken apart. That a root is no child of another node is left to the caller. -/
def deleteNode (tag : Tag) : ShadowNodes :=
  let deleted := nodes.shadow.subtree nodes.shadow.depth tag
  { nodes with shadow := { nodes.shadow.removeShadowNode tag with
      children := fun node => if node ∈ deleted then [] else nodes.shadow.children node } }

def deleteNodes : List Tag → ShadowNodes → Except Aborted ShadowNodes
  | [], nodes => .ok nodes
  | tag :: rest, nodes =>
    if tag ∉ nodes.shadow.registry then .error ⟨.nullPointer, nodes⟩
    else deleteNodes rest (nodes.deleteNode tag)

def manageChildren (viewTag : Tag) (arrays : ReadableArrays) : Except Aborted ShadowNodes :=
  match arrays.change nodes viewTag with
  | .error exception => .error ⟨exception, nodes⟩
  | .ok change => (nodes.changeChildren viewTag change).bind (deleteNodes change.tagsToDelete)

/-! ### What each call does to the lists of children -/

def outcome : Except Aborted ShadowNodes → ShadowNodes
  | .ok nodes => nodes
  | .error thrown => thrown.nodes

/-- Only the list of one node has changed. -/
structure Edited (nodes after : ShadowNodes) (node : Tag) (children : List Tag) : Prop where
  managed : after.shadow.children node = children
  others : ∀ other, other ≠ node → after.shadow.children other = nodes.shadow.children other
  registry : after.shadow.registry = nodes.shadow.registry

variable {nodes : ShadowNodes} {node : Tag} {index : ℤ}

theorem edited_refl (nodes : ShadowNodes) (node : Tag) :
    Edited nodes nodes node (nodes.shadow.children node) :=
  ⟨rfl, fun _ _ => rfl, rfl⟩

variable {middle after : ShadowNodes} {children : List Tag}

theorem Edited.trans {before : List Tag} (first : Edited nodes middle node before)
    (second : Edited middle after node children) : Edited nodes after node children :=
  ⟨second.managed, fun other differs => (second.others other differs).trans (first.others other differs),
    second.registry.trans first.registry⟩

theorem link_edited (nodes : ShadowNodes) (node child : Tag) (parent : Option Tag)
    (children : List Tag) : Edited nodes (nodes.link node child parent children) node children :=
  ⟨Function.update_self .., fun _ differs => Function.update_of_ne differs .., rfl⟩

def KeepsLinks (nodes after : ShadowNodes) : Prop :=
  after.shadow.children = nodes.shadow.children ∧ after.shadow.registry = nodes.shadow.registry

theorem KeepsLinks.edited (keeps : KeepsLinks middle after)
    (edited : Edited nodes middle node children) : Edited nodes after node children := by
  obtain ⟨links, registry⟩ := keeps
  exact ⟨(congrFun links node).trans edited.managed,
    fun other differs => (congrFun links other).trans (edited.others other differs),
    registry.trans edited.registry⟩

theorem KeepsLinks.trans (first : KeepsLinks nodes middle) (second : KeepsLinks middle after) :
    KeepsLinks nodes after :=
  ⟨second.1.trans first.1, second.2.trans first.2⟩

theorem detachYogaNode_keeps (nodes : ShadowNodes) (node : Tag) (index : ℕ) :
    KeepsLinks nodes (outcome (nodes.detachYogaNode node index)) := by
  unfold detachYogaNode yogaRemoveChildAt
  split
  · split
    · exact ⟨rfl, rfl⟩
    · split <;> exact ⟨rfl, rfl⟩
  · exact ⟨rfl, rfl⟩

theorem attachYogaNode_keeps (nodes : ShadowNodes) (node child : Tag) (index : ℕ) :
    KeepsLinks nodes (outcome (nodes.attachYogaNode node child index)) := by
  unfold attachYogaNode yogaAddChildAt
  split
  · split
    · exact ⟨rfl, rfl⟩
    · split
      · exact ⟨rfl, rfl⟩
      · dsimp only
        split <;> exact ⟨rfl, rfl⟩
  · exact ⟨rfl, rfl⟩

theorem attachYogaNode_shadow {nodes attached : ShadowNodes} {node child : Tag} {index : ℕ}
    (done : nodes.attachYogaNode node child index = .ok attached) :
    attached.shadow = nodes.shadow := by
  unfold attachYogaNode yogaAddChildAt at done
  split at done
  · split at done
    · cases done
    · split at done
      · cases done
      · dsimp only at done
        split at done
        · cases done
        · cases done
          rfl
  · cases done
    rfl

theorem count_keeps (nodes : ShadowNodes) (node : Tag) (delta : ℤ) :
    KeepsLinks nodes (outcome (nodes.count node delta)) := by
  unfold count
  split
  · exact ⟨rfl, rfl⟩
  next shadow counted =>
    have links := ShadowTree.countChild_links counted
    have children : shadow.children = nodes.shadow.children := by rw [links]
    have registry : shadow.registry = nodes.shadow.registry := by rw [links]
    exact ⟨children, registry⟩

theorem bind_keeps {first : Except Aborted ShadowNodes} {next : ShadowNodes → Except Aborted ShadowNodes}
    (keeps : KeepsLinks nodes (outcome first))
    (keepsNext : ∀ middle, KeepsLinks middle (outcome (next middle))) :
    KeepsLinks nodes (outcome (first >>= next)) := by
  cases first with
  | error => exact keeps
  | ok middle => exact keeps.trans (keepsNext middle)

def InRange (nodes : ShadowNodes) (node : Tag) (index : ℤ) : Prop :=
  0 ≤ index ∧ index < (nodes.shadow.children node).length

theorem getChildAt_ok {child : Tag} (found : nodes.getChildAt node index = .ok child) :
    nodes.InRange node index := by
  unfold getChildAt at found
  split at found
  · cases found
  next notNegative =>
    split at found
    · cases found
    next there =>
      obtain ⟨below, -⟩ := List.getElem?_eq_some_iff.mp there
      exact ⟨by omega, by omega⟩

theorem getChildAt_of_inRange (inRange : nodes.InRange node index) :
    ∃ child, nodes.getChildAt node index = .ok child := by
  obtain ⟨notNegative, below⟩ := inRange
  have there := getElem?_eq_getElem
    (show index.toNat < (nodes.shadow.children node).length by omega)
  exact ⟨_, by rw [getChildAt, if_neg (by omega), there]⟩

theorem removeChildAt_edited (inRange : nodes.InRange node index) :
    Edited nodes (outcome (nodes.removeChildAt node index)) node
      ((nodes.shadow.children node).eraseIdx index.toNat) := by
  obtain ⟨child, found⟩ := getChildAt_of_inRange inRange
  rw [removeChildAt, found]
  exact KeepsLinks.edited (bind_keeps (detachYogaNode_keeps _ node _)
    fun detached => count_keeps detached node _) (link_edited nodes node child none _)

theorem addChildAt_edited (nodes : ShadowNodes) (node child : Tag) (index : ℤ) :
    nodes.addChildAt node child index = .error ⟨.indexOutOfBounds index, nodes⟩ ∨
    Edited nodes (outcome (nodes.addChildAt node child index)) node
      ((nodes.shadow.children node).insertIdx index.toNat child) := by
  unfold addChildAt
  split
  · exact .inl rfl
  · exact .inr (KeepsLinks.edited (bind_keeps (attachYogaNode_keeps _ node child _)
      fun attached => count_keeps attached node _) (link_edited nodes node child (some node) _))

/-- Yoga and the shadow tree get the child together: what Yoga does not refuse changes the shadow
tree as `ShadowTree.addChildAt` does. -/
theorem addChildAt_shadow {child : Tag} (added : nodes.addChildAt node child index = .ok after) :
    nodes.shadow.addChildAt node child index.toNat = some after.shadow := by
  unfold addChildAt at added
  split at added
  · cases added
  next inRange =>
    have fits : ¬ (nodes.shadow.children node).length < index.toNat := by omega
    rw [ShadowTree.addChildAt, if_neg fits]
    dsimp only at added
    cases attached : (nodes.link node child (some node)
        ((nodes.shadow.children node).insertIdx index.toNat child)).attachYogaNode node child
          index.toNat with
    | error thrown =>
      rw [attached] at added
      cases added
    | ok middle =>
      rw [attached] at added
      have same := attachYogaNode_shadow attached
      change middle.count node _ = _ at added
      unfold count at added
      split at added
      · cases added
      next shadow counted =>
        cases added
        rw [same] at counted
        exact counted

/-! ### The loops -/

def eraseAll (indices : List ℤ) (children : List Tag) : List Tag :=
  indices.foldl (fun children index => children.eraseIdx index.toNat) children

def insertAll (views : List ViewToAdd) (children : List Tag) : List Tag :=
  views.foldl (fun children view => children.insertIdx view.index.toNat view.tag) children

/-- How far a loop over so many entries got: to its end, or to where it was stopped. -/
structure GotTo (count done : ℕ) (result : Except Aborted ShadowNodes) : Prop where
  within : done ≤ count
  all : ∀ after, result = .ok after → done = count

theorem gotTo_start (count : ℕ) (thrown : Aborted) : GotTo count 0 (.error thrown) :=
  ⟨Nat.zero_le count, nofun⟩

variable {result : Except Aborted ShadowNodes}

theorem gotTo_next {count done : ℕ} (later : GotTo count done result) :
    GotTo (count + 1) (done + 1) result :=
  ⟨Nat.succ_le_succ later.within, fun after same => congrArg Nat.succ (later.all after same)⟩

theorem gotTo_one (count : ℕ) (thrown : Aborted) : GotTo (count + 1) 1 (.error thrown) :=
  ⟨Nat.le_add_left 1 count, nofun⟩

theorem outcome_ok (same : result = .ok after) : outcome result = after := by
  rw [same]
  rfl

theorem outcome_error {thrown : Aborted} (same : result = .error thrown) :
    outcome result = thrown.nodes := by
  rw [same]
  rfl

theorem removeIndices_edited {viewTag : Tag} {indices : List ℤ} {last : ℤ}
    (descending : indices.Pairwise (· ≥ ·))
    (inRange : ∀ index ∈ indices, 0 ≤ index ∧
      (index = last ∨ index < (nodes.shadow.children viewTag).length)) :
    ∃ done, GotTo indices.length done (removeIndices viewTag indices last nodes) ∧
      Edited nodes (outcome (removeIndices viewTag indices last nodes)) viewTag
        (eraseAll (indices.take done) (nodes.shadow.children viewTag)) ∧
      (done = 0 → indices = [] ∨ last ∈ indices) := by
  induction indices generalizing nodes last with
  | nil => exact ⟨0, ⟨le_rfl, fun _ _ => rfl⟩, edited_refl nodes viewTag, fun _ => .inl rfl⟩
  | cons index rest ih =>
    obtain ⟨least, descendingRest⟩ := pairwise_cons.mp descending
    rw [removeIndices]
    split
    next same =>
      exact ⟨0, gotTo_start _ _, edited_refl nodes viewTag, fun _ => .inr (same ▸ mem_cons_self)⟩
    next differs =>
      obtain ⟨notNegative, isLast | below⟩ := inRange index mem_cons_self
      · exact absurd isLast differs
      · have edited := removeChildAt_edited ⟨notNegative, below⟩
        cases removed : nodes.removeChildAt viewTag index with
        | error thrown =>
          rw [outcome_error removed] at edited
          exact ⟨1, gotTo_one _ thrown, edited, fun none => absurd none Nat.one_ne_zero⟩
        | ok middle =>
          rw [outcome_ok removed] at edited
          -- What is left to remove was in front of the child, or is that index again.
          have inRangeRest : ∀ other ∈ rest, 0 ≤ other ∧
              (other = index ∨ other < (middle.shadow.children viewTag).length) := by
            intro other member
            have notAbove := least other member
            refine ⟨(inRange other (mem_cons_of_mem index member)).1, ?_⟩
            rw [edited.managed, length_eraseIdx_of_lt (by omega)]
            omega
          obtain ⟨done, gotTo, later, -⟩ := ih descendingRest inRangeRest
          rw [edited.managed] at later
          exact ⟨done + 1, gotTo_next gotTo, edited.trans later,
            fun none => absurd none (Nat.succ_ne_zero done)⟩

theorem addViews_edited (viewTag : Tag) (views : List ViewToAdd) :
    ∃ done, GotTo views.length done (addViews viewTag views nodes) ∧
      Edited nodes (outcome (addViews viewTag views nodes)) viewTag
        (insertAll (views.take done) (nodes.shadow.children viewTag)) := by
  induction views generalizing nodes with
  | nil => exact ⟨0, ⟨le_rfl, fun _ _ => rfl⟩, edited_refl nodes viewTag⟩
  | cons view rest ih =>
    have refused : ∀ exception, ∃ done, GotTo (rest.length + 1) done (.error ⟨exception, nodes⟩) ∧
          Edited nodes (outcome (.error ⟨exception, nodes⟩)) viewTag
            (insertAll ((view :: rest).take done) (nodes.shadow.children viewTag)) :=
      fun exception => ⟨0, gotTo_start _ _, edited_refl nodes viewTag⟩
    rw [addViews]
    split
    · exact refused _
    · split
      · exact refused _
      · rcases addChildAt_edited nodes viewTag view.tag view.index with outOfRange | edited
        · rw [outOfRange]
          exact refused _
        · cases added : nodes.addChildAt viewTag view.tag view.index with
          | error thrown =>
            rw [outcome_error added] at edited
            exact ⟨1, gotTo_one _ thrown, edited⟩
          | ok middle =>
            rw [outcome_ok added] at edited
            obtain ⟨done, gotTo, later⟩ := @ih middle
            rw [edited.managed] at later
            exact ⟨done + 1, gotTo_next gotTo, edited.trans later⟩

theorem handleManageChildren_keeps (nodes : ShadowNodes) (viewTag : Tag) (change : ChildrenChange) :
    KeepsLinks nodes (outcome (nodes.handleManageChildren viewTag change)) := by
  unfold handleManageChildren
  split
  · exact ⟨rfl, rfl⟩
  · split <;> exact ⟨rfl, rfl⟩

theorem mapM_ok {α β ε : Type} {lookUp : α → Except ε β} {entries : List α} {found : List β}
    (all : entries.mapM lookUp = .ok found) : ∀ entry ∈ entries, ∃ one, lookUp entry = .ok one := by
  induction entries generalizing found with
  | nil =>
    intro entry member
    cases member
  | cons first rest ih =>
    rw [mapM_cons] at all
    cases here : lookUp first with
    | error exception =>
      rw [here] at all
      cases all
    | ok one =>
      rw [here] at all
      cases there : rest.mapM lookUp with
      | error exception =>
        rw [there] at all
        cases all
      | ok =>
        intro entry member
        rcases mem_cons.mp member with rfl | later
        · exact ⟨one, here⟩
        · exact ih there entry later

variable {viewTag : Tag} {change : ChildrenChange}

theorem change_ok {arrays : ReadableArrays} (checked : arrays.change nodes viewTag = .ok change) :
    change.indicesToRemove.Pairwise (· ≤ ·) ∧
      ∀ index ∈ change.indicesToRemove, nodes.InRange viewTag index := by
  have inRange : ∀ {indices : List ℤ} {tags : List Tag},
      indices.mapM (ReadableArrays.lookUp nodes viewTag) = .ok tags →
        ∀ index ∈ indices, nodes.InRange viewTag index := by
    intro indices tags all index member
    obtain ⟨_, found⟩ := mapM_ok all index member
    unfold ReadableArrays.lookUp at found
    split at found
    · cases found
    · exact getChildAt_ok found
  unfold ReadableArrays.change at checked
  dsimp only at checked
  split at checked
  · cases checked
  · split at checked
    · cases checked
    · cases moved : arrays.moveFrom.mapM (ReadableArrays.lookUp nodes viewTag) with
      | error exception =>
        rw [moved] at checked
        cases checked
      | ok =>
        rw [moved] at checked
        cases deleted : arrays.removeFrom.mapM (ReadableArrays.lookUp nodes viewTag) with
        | error exception =>
          simp only [deleted] at checked
          cases checked
        | ok =>
          simp only [deleted] at checked
          cases checked
          refine ⟨pairwise_insertionSort _ _, ?_⟩
          intro index member
          have isIndex := (perm_insertionSort (· ≤ ·) _).mem_iff.mp member
          rcases mem_append.mp isIndex with isMove | isRemoval
          · exact inRange moved index isMove
          · exact inRange deleted index isRemoval

theorem changeChildren_edited (ascending : change.indicesToRemove.Pairwise (· ≤ ·))
    (inRange : ∀ index ∈ change.indicesToRemove, nodes.InRange viewTag index) :
    ∃ removals additions, Edited nodes (outcome (nodes.changeChildren viewTag change)) viewTag
        (insertAll (change.viewsToAdd.take additions)
          (eraseAll (change.indicesToRemove.reverse.take removals)
            (nodes.shadow.children viewTag))) ∧
      (removals = 0 → change.indicesToRemove = []) ∧
      (removals < change.indicesToRemove.length → additions = 0) := by
  obtain ⟨removals, gotTo, edited, first⟩ := @removeIndices_edited nodes viewTag
    change.indicesToRemove.reverse (-1) (pairwise_reverse.mpr ascending) (by
      intro index member
      have there := inRange index (mem_reverse.mp member)
      exact ⟨there.1, .inr there.2⟩)
  have atLeastOne : removals = 0 → change.indicesToRemove = [] := by
    intro none
    rcases first none with empty | isLast
    · exact reverse_eq_nil_iff.mp empty
    · exact absurd (inRange (-1) (mem_reverse.mp isLast)).1 (by decide)
  rw [changeChildren]
  cases removed : nodes.removeIndices viewTag change.indicesToRemove.reverse (-1) with
  | error thrown =>
    rw [outcome_error removed] at edited
    exact ⟨removals, 0, edited, atLeastOne, fun _ => rfl⟩
  | ok middle =>
    rw [outcome_ok removed] at edited
    have all := gotTo.all middle removed
    rw [length_reverse] at all
    obtain ⟨additions, -, later⟩ := @addViews_edited middle viewTag change.viewsToAdd
    rw [edited.managed] at later
    refine ⟨removals, additions, ?_, atLeastOne, fun less => absurd all less.ne⟩
    change Edited nodes (outcome (middle.addViews viewTag change.viewsToAdd >>= fun added =>
      added.handleManageChildren viewTag change)) viewTag _
    cases added : middle.addViews viewTag change.viewsToAdd with
    | error thrown =>
      rw [outcome_error added] at later
      exact edited.trans later
    | ok last =>
      rw [outcome_ok added] at later
      exact (handleManageChildren_keeps last viewTag change).edited (edited.trans later)

theorem deleteNodes_error {tags : List Tag} {thrown : Aborted}
    (failed : deleteNodes tags nodes = .error thrown) : thrown.exception = .nullPointer := by
  induction tags generalizing nodes with
  | nil => cases failed
  | cons _ _ ih =>
    rw [deleteNodes] at failed
    split at failed
    · cases failed
      rfl
    · exact ih failed

def twoChildren : ShadowNodes where
  shadow := { (UIImplementation.initial {1, 2, 3, 4, 5}).shadow with
    children := fun tag => if tag = 1 then [2, 3] else []
    parent := fun tag => if tag = 2 ∨ tag = 3 then some 1 else none
    totalNativeChildren := fun tag => if tag = 1 then 2 else 0 }
  yogaChildren := fun tag => if tag = 1 then some [2, 3] else none
  yogaOwner := fun tag => if tag = 2 ∨ tag = 3 then some 1 else none

/-- What the list of the node is when the call throws. -/
def childrenAtError (nodes : ShadowNodes) (viewTag : Tag) (arrays : ReadableArrays) :
    Option (ShadowNodeException × List Tag) :=
  match nodes.manageChildren viewTag arrays with
  | .ok _ => none
  | .error thrown => some (thrown.exception, thrown.nodes.shadow.children viewTag)

def firstTwice : ReadableArrays where
  removeFrom := [0, 0]

end ShadowNodes

end ReactNative

