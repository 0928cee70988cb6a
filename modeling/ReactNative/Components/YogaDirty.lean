import ReactNative.Components.YogaLayout

/-! `updateYogaChildren` inserts the Yoga-layoutable children one by one, clones of those that are
owned, and sets the flag to what it found on the way. What it finds and what it inserts can be told
from the layout before it starts. -/
namespace ReactNative

open List

namespace NodeHeap

theorem replacedIndex_of_mem {children : List NodeId} {oldChild : NodeId}
    (member : oldChild ∈ children) (suggestedIndex : Int) :
    ∃ index, ∃ bound : index < children.length,
      replacedIndex children oldChild suggestedIndex = some index ∧ children[index] = oldChild := by
  unfold replacedIndex
  split
  · next accurate =>
    obtain ⟨bound, found⟩ := List.getElem?_eq_some_iff.mp accurate.2.2.2
    exact ⟨_, bound, rfl, found⟩
  · cases first : children.findIdx? (· = oldChild) with
    | none =>
      have absent := findIdx?_eq_none_iff.mp first oldChild member
      simp at absent
    | some index =>
      obtain ⟨bound, found, -⟩ := findIdx?_eq_some_iff_getElem.mp first
      exact ⟨index, bound, rfl, by simpa using found⟩

end NodeHeap

namespace YogaTree

/-- The nodes in the lists were made. -/
structure Closed (tree : YogaTree) : Prop where
  lists : ∀ address, ∀ child ∈ tree.heap.lists address, child < tree.heap.nodeCount
  yoga : ∀ node, ∀ child ∈ (tree.yoga node).children, child < tree.heap.nodeCount

theorem Closed.of_mirrors {tree : YogaTree} (mirrors : tree.Mirrors) (sound : tree.Sound) :
    tree.Closed where
  lists := sound.made
  yoga := by
    intro node child member
    have mirror := mirrors.children node
    rw [mirror] at member
    split at member
    · exact sound.child_made (mem_filter.mp member).1
    · cases member

theorem cloneAndReplaceChild_eq {tree : YogaTree} {node child : NodeId}
    (made : node < tree.heap.nodeCount) (member : child ∈ tree.getChildren node)
    (suggestedIndex : Int) :
    ∃ next, tree.cloneAndReplaceChild node child suggestedIndex = some (next, tree.heap.nodeCount) ∧
      next.heap.nodeCount = tree.heap.nodeCount + 1 ∧
      next.yoga = (tree.cloneNode child none).yoga ∧
      ∀ other, (tree.getChildren node).count other ≤
        (next.getChildren node).count other + [child].count other := by
  have old : node ≠ tree.heap.nodeCount := Nat.ne_of_lt made
  have same : (tree.cloneNode child none).getChildren node = tree.getChildren node := by
    simp [cloneNode, getChildren, NodeHeap.clone, NodeHeap.allocate, NodeHeap.getChildren, old]
  obtain ⟨index, bound, found, here⟩ := NodeHeap.replacedIndex_of_mem member suggestedIndex
  refine ⟨{ tree.cloneNode child none with
    heap := (tree.cloneNode child none).heap.replaceChild node child tree.heap.nodeCount
      suggestedIndex }, ?_, ?_, rfl, ?_⟩
  · simp [cloneAndReplaceChild, replaceChild, same, found]
  · exact NodeHeap.cloneChildrenIfShared_nodeCount _ _
  · intro other
    have replaced := NodeHeap.mutation_getChildren (tree.cloneNode child none).heap node
      (NodeHeap.replaceIn child tree.heap.nodeCount suggestedIndex)
    have lists : (tree.cloneNode child none).heap.getChildren node = tree.getChildren node := same
    rw [lists, NodeHeap.replaceIn, found] at replaced
    have counted := @count_set _ _ tree.heap.nodeCount other _ _ bound
    rw [here] at counted
    simp only [getChildren, NodeHeap.replaceChild, replaced, count_singleton] at counted ⊢
    split at counted
    · next same =>
      simp only [same, if_true]
      omega
    · omega

end YogaTree

namespace YogaLayout

variable {Style : Type}

section Inserted

variable (adopt : NodeId → NodeLayout Style → NodeLayout Style)

/-- The layouts of the Yoga children that the loop inserts. A child that is owned is
cloned, also when it is its first occurrence in the list that is owned. -/
def insertedLayouts (layout : YogaLayout Style) :
    (NodeId → Bool) → List NodeId → List (NodeLayout Style)
  | _, [] => []
  | owned, child :: rest =>
    (if owned child then adopt child (layout.state child) else layout.state child) ::
      insertedLayouts layout (Function.update owned child true) rest

variable (layout : YogaLayout Style)

theorem insertedLayouts_length (owned : NodeId → Bool) (children : List NodeId) :
    (layout.insertedLayouts adopt owned children).length = children.length := by
  induction children generalizing owned with
  | nil => rfl
  | cons _ _ ih => simp [insertedLayouts, ih]

theorem insertedLayouts_congr {layout other : YogaLayout Style} {owned owned' : NodeId → Bool}
    {children : List NodeId}
    (same : ∀ child ∈ children, layout.state child = other.state child ∧ owned child = owned' child) :
    layout.insertedLayouts adopt owned children = other.insertedLayouts adopt owned' children := by
  induction children generalizing owned owned' with
  | nil => rfl
  | cons child _ ih =>
    have first := same child (by simp)
    simp only [insertedLayouts, first.1, first.2, List.cons.injEq, true_and]
    apply ih
    intro later member
    have kept := same later (by simp [member])
    by_cases again : later = child
    · simp [again, first.1]
    · simp [again, kept]

structure Appended (before after : YogaLayout Style) (node : NodeId)
    (children inserted : List NodeId) : Prop where
  grown : before.nodeCount ≤ after.nodeCount
  shown : after.yogaChildren node = before.yogaChildren node ++ inserted
  layouts : inserted.map after.state = before.insertedLayouts adopt before.isOwned children
  made : ∀ child ∈ inserted, child < after.nodeCount ∧ child ≠ node
  style : (after.state node).style = (before.state node).style
  leaf : after.isLeaf node = before.isLeaf node
  kept : ∀ other < before.nodeCount, other ≠ node → after.state other = before.state other
  kinds : ∀ other < before.nodeCount, after.isLayoutable other = before.isLayoutable other
  owned : ∀ other < before.nodeCount,
    after.isOwned other = (before.isOwned other || decide (other ∈ children))
  remaining : ∀ other, (before.getChildren node).count other ≤
    (after.getChildren node).count other + children.count other

theorem Appended.refl (node : NodeId) : Appended adopt layout layout node [] [] := by
  constructor <;> simp [insertedLayouts]

variable {adopt} {before middle after : YogaLayout Style} {node child first : NodeId}
  {rest inserted : List NodeId}

theorem Appended.cons (one : Appended adopt before middle node [child] [first])
    (more : Appended adopt middle after node rest inserted)
    (children : ∀ child ∈ rest, child < before.nodeCount ∧ child ≠ node) :
    Appended adopt before after node (child :: rest) (first :: inserted) := by
  have firstMade := one.made first (by simp)
  -- The fields in the order of `Appended`; the first child is not touched again by the rest.
  constructor
  · exact Nat.le_trans one.grown more.grown
  · rw [more.shown, one.shown, append_assoc, singleton_append]
  · have head := one.layouts
    simp only [map_cons, map_nil, insertedLayouts, List.cons.injEq, and_true] at head
    rw [map_cons, more.kept first firstMade.1 firstMade.2, head, more.layouts, insertedLayouts]
    congr 1
    apply insertedLayouts_congr
    intro later member
    obtain ⟨old, notNode⟩ := children later member
    refine ⟨one.kept later old notNode, ?_⟩
    rw [one.owned later old, Function.update_apply]
    split <;> simp [*]
  · intro other member
    rcases mem_cons.mp member with rfl | later
    · exact ⟨Nat.lt_of_lt_of_le firstMade.1 more.grown, firstMade.2⟩
    · exact more.made other later
  · rw [more.style, one.style]
  · rw [more.leaf, one.leaf]
  · intro other old notNode
    rw [more.kept other (Nat.lt_of_lt_of_le old one.grown) notNode, one.kept other old notNode]
  · intro other old
    rw [more.kinds other (Nat.lt_of_lt_of_le old one.grown), one.kinds other old]
  · intro other old
    rw [more.owned other (Nat.lt_of_lt_of_le old one.grown), one.owned other old]
    -- A child becomes owned by its own turn or by a later one.
    by_cases same : other = child <;> simp [same]
  · intro other
    have head := one.remaining other
    have tail := more.remaining other
    rw [count_cons]
    rw [count_singleton] at head
    omega

def insertLast (layout : YogaLayout Style) (node child : NodeId) : YogaLayout Style :=
  let tree := layout.tree.setOwner child node
  { layout with tree := tree.setYogaChildren node ((tree.yoga node).children ++ [child]) }

section InsertLast

variable (layout : YogaLayout Style) (node child other : NodeId)

@[simp] theorem insertLast_nodeCount :
    (layout.insertLast node child).nodeCount = layout.nodeCount := rfl

@[simp] theorem insertLast_state : (layout.insertLast node child).state = layout.state := rfl

@[simp] theorem insertLast_getChildren :
    (layout.insertLast node child).getChildren other = layout.getChildren other := rfl

@[simp] theorem insertLast_yogaChildren :
    (layout.insertLast node child).yogaChildren node = layout.yogaChildren node ++ [child] := by
  simp [insertLast, yogaChildren, YogaTree.setYogaChildren_yoga]

@[simp] theorem insertLast_isLayoutable :
    (layout.insertLast node child).isLayoutable other = layout.isLayoutable other := by
  simp [insertLast, isLayoutable]

@[simp] theorem insertLast_isLeaf :
    (layout.insertLast node child).isLeaf other = layout.isLeaf other := by
  simp [insertLast, isLeaf, YogaTree.setYogaChildren_yoga, YogaTree.setOwner_yoga]

@[simp] theorem insertLast_isOwned :
    (layout.insertLast node child).isOwned other = (layout.isOwned other || decide (other = child)) := by
  by_cases same : other = child <;>
    simp [insertLast, isOwned, YogaTree.setYogaChildren_yoga, YogaTree.setOwner_yoga, same]

end InsertLast

section SetDirty

variable (layout : YogaLayout Style) (node other : NodeId) (isDirty : Bool)

@[simp] theorem setDirty_nodeCount : (layout.setDirty node isDirty).nodeCount = layout.nodeCount := rfl

@[simp] theorem setDirty_tree : (layout.setDirty node isDirty).tree = layout.tree := rfl

@[simp] theorem setDirty_isOwned :
    (layout.setDirty node isDirty).isOwned other = layout.isOwned other := rfl

@[simp] theorem setDirty_yogaChildren :
    (layout.setDirty node isDirty).yogaChildren other = layout.yogaChildren other := rfl

@[simp] theorem setDirty_style :
    ((layout.setDirty node isDirty).state other).style = (layout.state other).style := by
  by_cases same : other = node <;> simp [setDirty, same]

theorem setDirty_state (differ : other ≠ node) :
    (layout.setDirty node isDirty).state other = layout.state other := by
  simp [setDirty, differ]

end SetDirty

variable (adopt) in
theorem cloneAndReplaceChild_eq {layout : YogaLayout Style} (made : node < layout.nodeCount)
    (member : child ∈ layout.getChildren node) (suggestedIndex : Int) :
    ∃ cloned, layout.cloneAndReplaceChild adopt node child suggestedIndex =
        some (cloned, layout.nodeCount) ∧
      cloned.nodeCount = layout.nodeCount + 1 ∧
      cloned.isOwned layout.nodeCount = false ∧
      cloned.state layout.nodeCount = adopt child (layout.state child) ∧
      (∀ other < layout.nodeCount, cloned.tree.yoga other = layout.tree.yoga other ∧
        cloned.state other = layout.state other) ∧
      ∀ other, (layout.getChildren node).count other ≤
        (cloned.getChildren node).count other + [child].count other := by
  obtain ⟨next, replaced, count, yoga, remaining⟩ :=
    YogaTree.cloneAndReplaceChild_eq made member suggestedIndex
  refine ⟨{ tree := next
            state := Function.update (layout.cloneNode child none none).state layout.nodeCount
              (adopt child ((layout.cloneNode child none none).state layout.nodeCount)) },
    ?_, count, ?_, ?_, ?_, remaining⟩
  · simp [cloneAndReplaceChild, replaced, nodeCount]
  · simp [isOwned, yoga, YogaTree.cloneNode, nodeCount]
  · simp [cloneNode, nodeCount]
  · intro other old
    have notNew : other ≠ layout.tree.heap.nodeCount := Nat.ne_of_lt old
    simp [yoga, YogaTree.cloneNode, cloneNode, nodeCount, notNew]

theorem appendChildYogaNode_appended {layout : YogaLayout Style}
    (made : node < layout.nodeCount) (notLeaf : layout.isLeaf node = false)
    (childMade : child < layout.nodeCount) (differ : child ≠ node)
    (member : child ∈ layout.getChildren node) :
    ∃ after inserted, layout.appendChildYogaNode adopt node child = some after ∧
      Appended adopt layout after node [child] [inserted] := by
  by_cases owned : layout.isOwned child = true
  -- An owned child is cloned, and the clone put in its place: it is the node after the last.
  · obtain ⟨cloned, replaced, count, free, adopted, kept, remaining⟩ :=
      cloneAndReplaceChild_eq adopt (show node < (layout.setDirty node true).nodeCount from made)
        member (layout.yogaChildren node).length
    simp only [setDirty_nodeCount, setDirty_tree] at replaced count free adopted kept
    have isNew : layout.nodeCount ≠ node := Nat.ne_of_gt made
    refine ⟨cloned.insertLast node layout.nodeCount, layout.nodeCount, ?_, ?_⟩
    · simp [appendChildYogaNode, notLeaf, owned, replaced, free, insertLast]
    constructor
    · simp [count]
    · rw [insertLast_yogaChildren]
      simp [yogaChildren, kept node made]
    · simp [insertedLayouts, owned, adopted, setDirty_state, differ]
    · simp [count, isNew]
    · simp [kept node made]
    · rw [insertLast_isLeaf]
      simp [isLeaf, kept node made]
    · intro other old notNode
      simp [kept other old, setDirty_state, notNode]
    · intro other old
      rw [insertLast_isLayoutable]
      simp [isLayoutable, YogaTree.isLayoutable, kept other old]
    · intro other old
      rw [insertLast_isOwned]
      by_cases same : other = child
      · subst same
        simpa [isOwned, kept other old, Nat.ne_of_lt old] using owned
      · simp [isOwned, kept other old, same, Nat.ne_of_lt old]
    · exact remaining
  -- A child without an owner is inserted as it is.
  · refine ⟨(layout.setDirty node true).insertLast node child, child, ?_, ?_⟩
    · simp [appendChildYogaNode, notLeaf, owned, insertLast]
    constructor
    · simp
    · simp
    · simp [insertedLayouts, owned, setDirty_state, differ]
    · simp [childMade, differ]
    · simp
    · rw [insertLast_isLeaf]
      simp [isLeaf]
    · intro other _ notNode
      simp [setDirty_state, notNode]
    · intro other _
      rw [insertLast_isLayoutable]
      simp [isLayoutable]
    · simp
    · intro other
      exact Nat.le_add_right _ _

variable [BEq Style]

/-- Whether each Yoga child is clean and has the style of the old child in its place. -/
def foundClean (layout : YogaLayout Style) : List NodeId → List NodeId → Bool
  | [], _ => true
  | child :: rest, oldChildren =>
    !(layout.state child).isDirty &&
      (oldChildren.head?.any fun old => (layout.state child).style == (layout.state old).style) &&
      layout.foundClean rest oldChildren.tail

variable (layout : YogaLayout Style)

theorem foundClean_iff {children oldChildren : List NodeId}
    (enough : children.length ≤ oldChildren.length) :
    layout.foundClean children oldChildren = true ↔
      ∀ pair ∈ children.zip oldChildren, (layout.state pair.1).isDirty = false ∧
        ((layout.state pair.1).style == (layout.state pair.2).style) = true := by
  induction children generalizing oldChildren with
  | nil => simp [foundClean]
  | cons _ rest ih =>
    cases oldChildren with
    | nil => simp at enough
    | cons _ others =>
      have shorter : rest.length ≤ others.length := by simpa using enough
      simp [foundClean, ih shorter]

omit [BEq Style] in
theorem foundClean_congr [BEq Style] {layout other : YogaLayout Style}
    {children oldChildren : List NodeId}
    (same : ∀ child ∈ children ++ oldChildren, layout.state child = other.state child) :
    layout.foundClean children oldChildren = other.foundClean children oldChildren := by
  induction children generalizing oldChildren with
  | nil => rfl
  | cons child rest ih =>
    have head := same child (by simp)
    cases oldChildren with
    | nil => simp [foundClean]
    | cons old others =>
      have tail : layout.foundClean rest others = other.foundClean rest others := by
        apply ih
        intro later member
        apply same
        simp only [mem_append, mem_cons] at member ⊢
        tauto
      simp [foundClean, head, same old (by simp), tail]

/-- **The walk over the children.** It finds what could be seen beforehand. -/
theorem appendYogaChildren_appended (children oldChildren : List NodeId)
    (isClean : Bool) (made : node < layout.nodeCount) (notLeaf : layout.isLeaf node = false)
    (childrenMade : ∀ child ∈ children, child < layout.nodeCount ∧ child ≠ node)
    (oldMade : ∀ child ∈ oldChildren, child < layout.nodeCount ∧ child ≠ node)
    (present : ∀ child, children.count child ≤ (layout.getChildren node).count child) :
    ∃ after inserted,
      appendYogaChildren adopt node children oldChildren isClean layout = some (after,
        isClean && layout.foundClean (children.filter layout.isLayoutable) oldChildren) ∧
      Appended adopt layout after node (children.filter layout.isLayoutable) inserted := by
  induction children generalizing layout oldChildren isClean with
  | nil => exact ⟨layout, [], by simp [appendYogaChildren, foundClean], .refl adopt layout node⟩
  | cons child rest ih =>
    have restMade : ∀ child ∈ rest, child < layout.nodeCount ∧ child ≠ node := fun other member =>
      childrenMade other (mem_cons_of_mem _ member)
    by_cases layoutable : layout.isLayoutable child = true
    · obtain ⟨childMade, differ⟩ := childrenMade child (by simp)
      have member : child ∈ layout.getChildren node := by
        apply count_pos_iff.mp
        exact Nat.lt_of_lt_of_le (count_pos_iff.mpr (by simp)) (present child)
      obtain ⟨middle, first, middleEq, one⟩ :=
        @appendChildYogaNode_appended _ adopt _ _ _ made notLeaf childMade differ member
      -- The insertion left alone all that the rest of the walk looks at.
      have made' : ∀ other < layout.nodeCount, other < middle.nodeCount := fun other old =>
        Nat.lt_of_lt_of_le old one.grown
      have kinds : rest.filter middle.isLayoutable = rest.filter layout.isLayoutable := by
        apply filter_congr
        intro other later
        exact one.kinds other (restMade other later).1
      have present' : ∀ other, rest.count other ≤ (middle.getChildren node).count other := by
        intro other
        have before := present other
        have remaining := one.remaining other
        rw [count_cons] at before
        rw [count_singleton] at remaining
        omega
      have same : ∀ other ∈ rest.filter layout.isLayoutable ++ oldChildren.tail,
          middle.state other = layout.state other := by
        intro other place
        rcases mem_append.mp place with later | old
        · obtain ⟨isMade, notNode⟩ := restMade other (mem_filter.mp later).1
          exact one.kept other isMade notNode
        · obtain ⟨isMade, notNode⟩ := oldMade other (mem_of_mem_tail old)
          exact one.kept other isMade notNode
      have here : middle.state child = layout.state child := one.kept child childMade differ
      have headSame : (oldChildren.head?.any fun old =>
          (middle.state child).style == (middle.state old).style) =
          oldChildren.head?.any fun old =>
            (layout.state child).style == (layout.state old).style := by
        cases oldChildren with
        | nil => rfl
        | cons old =>
          obtain ⟨isMade, notNode⟩ := oldMade old (by simp)
          simp [here, one.kept old isMade notNode]
      obtain ⟨after, inserted, afterEq, more⟩ := ih middle oldChildren.tail
        (isClean && !(layout.state child).isDirty && oldChildren.head?.any fun old =>
          (layout.state child).style == (layout.state old).style)
        (made' node made) (one.leaf.trans notLeaf)
        (fun other later => ⟨made' other (restMade other later).1, (restMade other later).2⟩)
        (fun other later => ⟨made' other (oldMade other (mem_of_mem_tail later)).1,
          (oldMade other (mem_of_mem_tail later)).2⟩)
        present'
      rw [kinds, foundClean_congr same] at afterEq
      rw [kinds] at more
      have filtered : (child :: rest).filter layout.isLayoutable =
          child :: rest.filter layout.isLayoutable := by simp [layoutable]
      rw [filtered]
      refine ⟨after, first :: inserted, ?_, one.cons more ?_⟩
      · simp only [appendYogaChildren, layoutable, not_true, if_false, middleEq, Option.bind_eq_bind,
          Option.bind_some]
        rw [headSame, here, afterEq]
        simp [foundClean, Bool.and_assoc]
      · intro other later
        exact restMade other (mem_filter.mp later).1
    · have restPresent : ∀ other, rest.count other ≤ (layout.getChildren node).count other := by
        intro other
        exact Nat.le_trans (count_le_count_cons ..) (present other)
      obtain ⟨after, inserted, afterEq, more⟩ :=
        ih layout oldChildren isClean made notLeaf restMade oldMade restPresent
      refine ⟨after, inserted, ?_, ?_⟩
      · simpa [appendYogaChildren, layoutable] using afterEq
      · simpa [layoutable] using more

variable (adopt) in
/-- What `updateYogaChildren` did: the Yoga children are built anew, and the flag is what
the walk found. -/
structure Updated (before after : YogaLayout Style) (node : NodeId) : Prop where
  isDirty : (after.state node).isDirty = !(!(before.state node).dirtied &&
    (before.getChildren node).length == (before.yogaChildren node).length &&
    before.foundClean ((before.getChildren node).filter before.isLayoutable)
      (before.yogaChildren node))
  style : (after.state node).style = (before.state node).style
  leaf : after.isLeaf node = false
  layouts : (after.yogaChildren node).map after.state = before.insertedLayouts adopt before.isOwned
      ((before.getChildren node).filter before.isLayoutable)
  kept : ∀ other < before.nodeCount, other ≠ node → after.state other = before.state other

theorem updateYogaChildren_updated {layout : YogaLayout Style} (made : node < layout.nodeCount)
    (notLeaf : layout.isLeaf node = false)
    (childrenMade : ∀ child ∈ layout.getChildren node, child < layout.nodeCount ∧ child ≠ node)
    (oldMade : ∀ child ∈ layout.yogaChildren node, child < layout.nodeCount ∧ child ≠ node) :
    ∃ after, layout.updateYogaChildren adopt node = some after ∧
      Updated adopt layout after node := by
  -- The Yoga children are emptied first, and whether the node was clean is kept.
  obtain ⟨emptied, isEmptied⟩ : ∃ emptied : YogaLayout Style,
    emptied = { layout with tree := layout.tree.setYogaChildren node [] } := ⟨_, rfl⟩
  obtain ⟨isClean, isCleanEq⟩ : ∃ isClean, isClean = (!(layout.state node).dirtied &&
    (layout.getChildren node).length == (layout.yogaChildren node).length) := ⟨_, rfl⟩
  have sameState : emptied.state = layout.state := by rw [isEmptied]
  have leaf : emptied.isLeaf node = layout.isLeaf node := by
    simp [isEmptied, isLeaf, YogaTree.setYogaChildren_yoga]
  have owned : emptied.isOwned = layout.isOwned := by
    funext other
    simp [isEmptied, isOwned, YogaTree.setYogaChildren_yoga]
  have kinds : emptied.isLayoutable = layout.isLayoutable := by
    funext other
    simp [isEmptied, isLayoutable]
  have shown : emptied.yogaChildren node = [] := by
    simp [isEmptied, yogaChildren, YogaTree.setYogaChildren_yoga]
  have count : emptied.nodeCount = layout.nodeCount := by rw [isEmptied]; rfl
  have lists : emptied.getChildren node = layout.getChildren node := by rw [isEmptied]; rfl
  -- The loop then appends all layoutable children, and says whether it found them clean.
  obtain ⟨walked, inserted, walkedEq, appended⟩ := @appendYogaChildren_appended _ adopt node _
    emptied (layout.getChildren node) (if isClean then layout.yogaChildren node else []) isClean
    (count ▸ made) (leaf.trans notLeaf) (count ▸ childrenMade)
    (by
      intro child member
      rw [count]
      split at member
      · exact oldMade child member
      · cases member)
    (fun _ => lists ▸ Nat.le_refl _)
  rw [kinds] at walkedEq appended
  have found : (isClean && emptied.foundClean
      ((layout.getChildren node).filter layout.isLayoutable)
      (if isClean then layout.yogaChildren node else [])) =
      (isClean && layout.foundClean ((layout.getChildren node).filter layout.isLayoutable)
        (layout.yogaChildren node)) := by
    cases isClean with
    | false => rfl
    | true => rw [foundClean_congr fun child _ => congrFun sameState child]; rfl
  have insertedAll : walked.yogaChildren node = inserted := by rw [appended.shown, shown]; rfl
  have notNode : ∀ child ∈ inserted, child ≠ node := fun child member =>
    (appended.made child member).2
  rw [found] at walkedEq
  refine ⟨walked.setDirty node (!(isClean && layout.foundClean
    ((layout.getChildren node).filter layout.isLayoutable) (layout.yogaChildren node))), ?_, ?_⟩
  · simp only [updateYogaChildren, notLeaf, ← isCleanEq, ← isEmptied, walkedEq]
    rfl
  constructor
  · simp [setDirty, isCleanEq]
  · rw [setDirty_style, appended.style, sameState]
  · exact (appended.leaf.trans leaf).trans notLeaf
  -- Setting the node's own flag does not change what it has inserted.
  · have unchanged : inserted.map (walked.setDirty node (!(isClean && layout.foundClean
        ((layout.getChildren node).filter layout.isLayoutable)
        (layout.yogaChildren node)))).state = inserted.map walked.state := by
      apply map_congr_left
      intro child member
      exact setDirty_state _ _ _ _ (notNode child member)
    rw [setDirty_yogaChildren, insertedAll, unchanged, appended.layouts, owned]
    apply insertedLayouts_congr
    intro child _
    exact ⟨congrFun sameState child, rfl⟩
  · intro other old differ
    rw [setDirty_state _ _ _ _ differ, appended.kept other (count ▸ old) differ, sameState]

end Inserted

end YogaLayout
end ReactNative

