import ReactNative.Components.YogaDirty

/-! A clone needs layout if its source did, if its own style changed, or if its Yoga children are
not as those of the source or need layout themselves. The constructor carries the flag over and
raises it for a new style. -/
namespace ReactNative

open List
namespace YogaLayout

variable {Style : Type} [BEq Style]

/-- Another list of Yoga children than that of the source, or one with a dirty node. -/
def OtherChildren (before after : YogaLayout Style) (source node : NodeId) : Prop :=
  (after.yogaChildren node).length ≠ (before.yogaChildren source).length ∨
    (∃ pair ∈ (after.yogaChildren node).zip (before.yogaChildren source),
      ((after.state pair.1).style != (before.state pair.2).style) = true) ∨
    ∃ child ∈ after.yogaChildren node, (after.state child).isDirty = true

def NeedsLayout (before after : YogaLayout Style) (source node : NodeId) : Prop :=
  (before.state source).isDirty = true ∨
    ((after.state node).style != (before.state source).style) = true ∨
    (after.isLeaf node = false ∧ OtherChildren before after source node)

variable (layout : YogaLayout Style) (source : NodeId)

/-- The fragment has props with another Yoga style. -/
def restyles (props : Option Style) : Bool :=
  props.any fun style => style != (layout.state source).style

def LooksClean (children : List NodeId) : Prop :=
  (layout.state source).dirtied = false ∧ children.length = (layout.yogaChildren source).length ∧
    ∀ pair ∈ (children.filter layout.isLayoutable).zip (layout.yogaChildren source),
      (layout.state pair.1).isDirty = false ∧
        ((layout.state pair.1).style == (layout.state pair.2).style) = true

/-- No new children: what the source says must be enough. New children: if the walk finds
nothing, there must be nothing else, neither in the node itself nor in its children. -/
def WalkSuffices (adopt : NodeId → NodeLayout Style → NodeLayout Style)
    (layout : YogaLayout Style) (source : NodeId) (props : Option Style)
    (children : Option ListAddress) : Prop :=
  match children with
  | none =>
    (layout.state source).isDirty = true ∨ layout.restyles source props = true ∨
      ∀ child ∈ layout.yogaChildren source, (layout.state child).isDirty = false
  | some address =>
    layout.LooksClean source (layout.tree.heap.lists address) →
      (layout.state source).isDirty = false ∧ layout.restyles source props = false ∧
      (∀ child ∈ layout.tree.heap.lists address, layout.isLayoutable child = true) ∧
      ∀ pair ∈ (layout.insertedLayouts adopt layout.isOwned (layout.tree.heap.lists address)).zip
          (layout.yogaChildren source),
        pair.1.isDirty = false ∧ (pair.1.style == (layout.state pair.2).style) = true

/-! ### Before the children -/

def styled (props : Option Style) (children : Option ListAddress) : YogaLayout Style :=
  if props.isSome then
    (layout.cloneNode source props children).updateYogaProps layout.nodeCount
  else layout.cloneNode source props children

section Styled

variable (layout : YogaLayout Style) (source : NodeId) (props : Option Style)
  (children : Option ListAddress)

theorem styled_tree :
    (layout.styled source props children).tree = layout.tree.cloneNode source children := by
  unfold styled
  split <;> simp [cloneNode]

theorem styled_isDirty : ((layout.styled source props children).state layout.nodeCount).isDirty =
      ((layout.state source).isDirty || layout.restyles source props) := by
  cases props with
  | none => simp [styled, cloneNode, restyles]
  | some style =>
    cases dirty : (layout.state source).isDirty <;>
      cases other : style != (layout.state source).style <;>
        simp [styled, cloneNode, restyles, updateYogaProps, setStyle, setDirty, dirty, other]

theorem styled_style : ((layout.styled source props children).state layout.nodeCount).style =
      props.getD (layout.state source).style := by
  cases props with
  | none => simp [styled, cloneNode]
  | some style => simp [styled, cloneNode, updateYogaProps, setStyle]

theorem styled_dirtied : ((layout.styled source props children).state layout.nodeCount).dirtied =
      (layout.state source).dirtied := by
  cases props with
  | none => simp [styled, cloneNode]
  | some =>
    simp only [styled, cloneNode, updateYogaProps, setStyle, setDirty]
    simp
    split <;> simp

theorem styled_state {other : NodeId} (old : other < layout.nodeCount) :
    (layout.styled source props children).state other = layout.state other := by
  have notNew : other ≠ layout.nodeCount := Nat.ne_of_lt old
  cases props with
  | none => simp [styled, cloneNode, notNew]
  | some =>
    simp only [styled, cloneNode, updateYogaProps, setStyle, setDirty]
    simp [notNew]
    split <;> simp [notNew]

end Styled

/-! ### The children -/

variable {before after : YogaLayout Style} {node : NodeId}

theorem otherChildren_iff {source : NodeId} {layouts : List (NodeLayout Style)}
    (inserted : (after.yogaChildren node).map after.state = layouts)
    (enough : layouts.length = (before.yogaChildren source).length) :
    ¬ OtherChildren before after source node ↔ ∀ pair ∈ layouts.zip (before.yogaChildren source),
        pair.1.isDirty = false ∧ (pair.1.style == (before.state pair.2).style) = true := by
  -- As many layouts as Yoga children of the source, so that the zips lose nothing.
  have lengths : (after.yogaChildren node).length = (before.yogaChildren source).length := by
    rw [← enough, ← inserted, length_map]
  have pairs : layouts.zip (before.yogaChildren source) =
      ((after.yogaChildren node).zip (before.yogaChildren source)).map
        (Prod.map after.state id) := by
    rw [← inserted, zip_map_left]
  have firsts : after.yogaChildren node =
      ((after.yogaChildren node).zip (before.yogaChildren source)).map Prod.fst :=
    (map_fst_zip (Nat.le_of_eq lengths)).symm
  rw [pairs]
  constructor
  · intro same pair member
    obtain ⟨origin, originMember, rfl⟩ := mem_map.mp member
    constructor
    · by_contra dirty
      have isDirty : (after.state origin.1).isDirty = true := by simpa using dirty
      exact same (.inr (.inr ⟨origin.1, firsts ▸ mem_map_of_mem originMember, isDirty⟩))
    · by_contra differs
      refine same (.inr (.inl ⟨origin, originMember, ?_⟩))
      simpa [bne] using differs
  -- One case for each way in which the children may differ.
  · rintro clean (differ | ⟨pair, member, differs⟩ | ⟨_, member, dirty⟩)
    · exact differ lengths
    · have same := (clean _ (mem_map_of_mem member)).2
      simp [bne] at differs same
      simp [differs] at same
    · rw [firsts] at member
      obtain ⟨pair, pairMember, rfl⟩ := mem_map.mp member
      have isClean := (clean _ (mem_map_of_mem pairMember)).1
      simp [dirty] at isClean

theorem otherChildren_same [ReflBEq Style] {source : NodeId}
    (shown : after.yogaChildren node = before.yogaChildren source)
    (kept : ∀ child ∈ before.yogaChildren source, after.state child = before.state child) :
    OtherChildren before after source node ↔
      ∃ child ∈ before.yogaChildren source, (before.state child).isDirty = true := by
  constructor
  · rintro (differ | ⟨_, member, differs⟩ | ⟨child, member, dirty⟩)
    · exact absurd (congrArg List.length shown) differ
    · rw [shown] at member
      obtain ⟨_, _, here⟩ := mem_iff_getElem.mp member
      simp only [getElem_zip] at here
      subst here
      rw [kept _ (getElem_mem _), bne, beq_self_eq_true] at differs
      cases differs
    · rw [shown] at member
      exact ⟨child, member, kept child member ▸ dirty⟩
  · rintro ⟨child, member, dirty⟩
    exact .inr (.inr ⟨child, shown ▸ member, (kept child member).symm ▸ dirty⟩)

section Clone

variable {adopt : NodeId → NodeLayout Style → NodeLayout Style} {layout : YogaLayout Style}
  {source : NodeId}

theorem clone_eq (layoutable : layout.isLayoutable source = true) (props : Option Style)
    (children : Option ListAddress) :
    layout.clone adopt source props children =
      if children.isSome then
        (layout.styled source props children).updateYogaChildren adopt layout.nodeCount
      else some (layout.styled source props children) := by
  have new : (layout.cloneNode source props children).isLayoutable layout.nodeCount = true := by
    simpa [isLayoutable, YogaTree.isLayoutable, cloneNode, YogaTree.cloneNode, nodeCount]
  simp only [clone, new, not_true, if_false]
  rfl

theorem styled_yoga (props : Option Style) (children : Option ListAddress) :
    (layout.styled source props children).tree.yoga layout.nodeCount =
      { layout.tree.yoga source with owner := none } := by
  simp [styled_tree, YogaTree.cloneNode, nodeCount]

theorem styled_restyles [ReflBEq Style] (props : Option Style) (children : Option ListAddress) :
    (((layout.styled source props children).state layout.nodeCount).style !=
      (layout.state source).style) = layout.restyles source props := by
  rw [styled_style]
  cases props with
  | none => simp [restyles, bne]
  | some style => simp [restyles]

theorem styled_dirty_iff [ReflBEq Style] (closed : layout.tree.Closed) (props : Option Style)
    (children : Option ListAddress) :
    (NeedsLayout layout (layout.styled source props children) source layout.nodeCount →
        ((layout.styled source props children).state layout.nodeCount).isDirty = true) ↔
      layout.isLeaf source = true ∨ (layout.state source).isDirty = true ∨
        layout.restyles source props = true ∨
        ∀ child ∈ layout.yogaChildren source, (layout.state child).isDirty = false := by
  have leaf : (layout.styled source props children).isLeaf layout.nodeCount =
      layout.isLeaf source := by simp [isLeaf, styled_yoga]
  have others : OtherChildren layout (layout.styled source props children) source
      layout.nodeCount ↔ ∃ child ∈ layout.yogaChildren source,
        (layout.state child).isDirty = true := by
    apply otherChildren_same
    · simp [yogaChildren, styled_yoga]
    · intro child member
      exact styled_state _ _ _ _ (closed.yoga source child member)
  unfold NeedsLayout
  rw [styled_restyles, styled_isDirty, leaf, others, Bool.or_eq_true]
  constructor
  · intro kept
    by_contra! missed
    obtain ⟨notLeaf, clean, plain, child, member, dirty⟩ := missed
    have isDirty : (layout.state child).isDirty = true := by simpa using dirty
    have raised := kept (.inr (.inr ⟨by simpa using notLeaf, child, member, isDirty⟩))
    simp [clean, plain] at raised
  · rintro holds (dirty | restyled | ⟨notLeaf, child, member, dirty⟩)
    · exact .inl dirty
    · exact .inr restyled
    · rcases holds with isLeaf | isDirty | restyled | clean
      · simp [isLeaf] at notLeaf
      · exact .inl isDirty
      · exact .inr restyled
      · simp [clean child member] at dirty

theorem looksClean_iff (address : ListAddress) :
    LooksClean layout source (layout.tree.heap.lists address) ↔ (!(layout.state source).dirtied &&
        (layout.tree.heap.lists address).length == (layout.yogaChildren source).length &&
        layout.foundClean ((layout.tree.heap.lists address).filter layout.isLayoutable)
          (layout.yogaChildren source)) = true := by
  rw [Bool.and_eq_true, Bool.and_eq_true, beq_iff_eq, Bool.not_eq_true', and_assoc]
  refine and_congr_right fun _ => and_congr_right fun same => (foundClean_iff layout ?_).symm
  rw [← same]
  exact length_filter_le _ _

variable (adopt) in
theorem rebuilt [ReflBEq Style] (closed : layout.tree.Closed)
    (notLeaf : layout.isLeaf source = false) (props : Option Style) (address : ListAddress) :
    ∃ after, (layout.styled source props (some address)).updateYogaChildren adopt
        layout.nodeCount = some after ∧
      ((after.state layout.nodeCount).isDirty = true ↔
        ¬ LooksClean layout source (layout.tree.heap.lists address)) ∧
      ((after.state layout.nodeCount).style != (layout.state source).style) =
        layout.restyles source props ∧
      after.isLeaf layout.nodeCount = false ∧
      (after.yogaChildren layout.nodeCount).map after.state =
        layout.insertedLayouts adopt layout.isOwned
          ((layout.tree.heap.lists address).filter layout.isLayoutable) := by
  have listMade := closed.lists address
  have oldMade := closed.yoga source
  obtain ⟨before, isBefore⟩ : ∃ before, before = layout.styled source props (some address) :=
    ⟨_, rfl⟩
  have tree : before.tree = layout.tree.cloneNode source (some address) := by
    rw [isBefore, styled_tree]
  have count : before.nodeCount = layout.nodeCount + 1 := by rw [nodeCount, tree]; rfl
  have isLeaf : before.isLeaf layout.nodeCount = false := by
    simpa [YogaLayout.isLeaf, isBefore, styled_yoga] using notLeaf
  have list : before.getChildren layout.nodeCount = layout.tree.heap.lists address := by
    rw [getChildren, tree, YogaTree.cloneNode_eq_added, nodeCount, YogaTree.added_getChildren_new]
    rfl
  have old : before.yogaChildren layout.nodeCount = layout.yogaChildren source := by
    simp [yogaChildren, isBefore, styled_yoga]
  -- Of the nodes that the walk meets, nothing has changed so far.
  have state : ∀ child < layout.nodeCount, before.state child = layout.state child := by
    intro child isOld
    rw [isBefore, styled_state _ _ _ _ isOld]
  have yoga : ∀ child < layout.nodeCount, before.tree.yoga child = layout.tree.yoga child := by
    intro child isOld
    rw [tree]
    exact Function.update_of_ne (Nat.ne_of_lt isOld) _ _
  have kinds : (layout.tree.heap.lists address).filter before.isLayoutable =
      (layout.tree.heap.lists address).filter layout.isLayoutable := by
    apply filter_congr
    intro child member
    simp [isLayoutable, YogaTree.isLayoutable, yoga child (listMade child member)]
  have sameWalk : before.foundClean ((layout.tree.heap.lists address).filter layout.isLayoutable)
      (layout.yogaChildren source) = layout.foundClean
        ((layout.tree.heap.lists address).filter layout.isLayoutable)
        (layout.yogaChildren source) := by
    apply foundClean_congr
    intro child member
    rcases mem_append.mp member with new | other
    · exact state child (listMade child (mem_filter.mp new).1)
    · exact state child (oldMade child other)
  have sameLayouts : before.insertedLayouts adopt before.isOwned
      ((layout.tree.heap.lists address).filter layout.isLayoutable) =
      layout.insertedLayouts adopt layout.isOwned
        ((layout.tree.heap.lists address).filter layout.isLayoutable) := by
    apply insertedLayouts_congr
    intro child member
    have isMade := listMade child (mem_filter.mp member).1
    exact ⟨state child isMade, by simp [isOwned, yoga child isMade]⟩
  obtain ⟨after, afterEq, updated⟩ := @updateYogaChildren_updated _ adopt layout.nodeCount _ before
    (count ▸ Nat.lt_succ_self _) isLeaf
    (by
      rw [list, count]
      intro child member
      exact ⟨Nat.lt_succ_of_lt (listMade child member), Nat.ne_of_lt (listMade child member)⟩)
    (by
      rw [old, count]
      intro child member
      exact ⟨Nat.lt_succ_of_lt (oldMade child member), Nat.ne_of_lt (oldMade child member)⟩)
  refine ⟨after, isBefore ▸ afterEq, ?_, ?_, updated.leaf, ?_⟩
  · rw [looksClean_iff, updated.isDirty, list, old, kinds, sameWalk, isBefore, styled_dirtied,
      Bool.not_eq_true', Bool.not_eq_true]
  · rw [updated.style, isBefore, styled_restyles]
  · rw [updated.layouts, list, kinds, sameLayouts]

variable (adopt) in
theorem rebuilt_dirty_iff [ReflBEq Style] (closed : layout.tree.Closed)
    (notLeaf : layout.isLeaf source = false) (props : Option Style) (address : ListAddress) :
    ∃ after, (layout.styled source props (some address)).updateYogaChildren adopt
        layout.nodeCount = some after ∧
      ((NeedsLayout layout after source layout.nodeCount →
          (after.state layout.nodeCount).isDirty = true) ↔
        WalkSuffices adopt layout source props (some address)) := by
  obtain ⟨after, afterEq, isDirty, restyled, leaf, layouts⟩ :=
    rebuilt adopt closed notLeaf props address
  refine ⟨after, afterEq, ?_⟩
  simp only [WalkSuffices]
  rw [isDirty, imp_not_comm]
  refine imp_congr_right fun clean => ?_
  unfold NeedsLayout
  rw [restyled, leaf, not_or, not_or, Bool.not_eq_true, Bool.not_eq_true]
  simp only [true_and]
  refine and_congr_right fun _ => and_congr_right fun _ => ?_
  obtain ⟨-, lengths, -⟩ := clean
  -- As many shadow children as the source has Yoga children: all must be Yoga-layoutable.
  by_cases allLayoutable : ∀ child ∈ layout.tree.heap.lists address, layout.isLayoutable child = true
  · rw [filter_eq_self.mpr allLayoutable] at layouts
    rw [otherChildren_iff layouts (by rw [insertedLayouts_length, lengths])]
    exact ⟨fun same => ⟨allLayoutable, same⟩, And.right⟩
  · have fewer : (after.yogaChildren layout.nodeCount).length ≠
        (layout.yogaChildren source).length := by
      intro same
      have counted := congrArg List.length layouts
      rw [length_map, insertedLayouts_length, same, ← lengths] at counted
      exact allLayoutable (length_filter_eq_length_iff.mp counted.symm)
    constructor
    · intro none
      exact absurd (.inl fewer) none
    · intro all
      exact absurd all.1 allLayoutable

/-- **A clone that needs layout.** The constructor succeeds, and its node is dirty whenever
it needs layout exactly if the walk over new children, or with no new children the node
itself, tells all there is to tell. -/
theorem clone_dirty_iff [ReflBEq Style] (closed : layout.tree.Closed)
    (layoutable : layout.isLayoutable source = true)
    (props : Option Style) (children : Option ListAddress) :
    ∃ after, layout.clone adopt source props children = some after ∧
      ((NeedsLayout layout after source layout.nodeCount →
          (after.state layout.nodeCount).isDirty = true) ↔
        layout.isLeaf source = true ∨ WalkSuffices adopt layout source props children) := by
  rw [clone_eq layoutable]
  cases children with
  | none => exact ⟨_, rfl, styled_dirty_iff closed props none⟩
  | some address =>
    by_cases leaf : layout.isLeaf source = true
    · have isLeaf : (layout.styled source props (some address)).isLeaf layout.nodeCount = true := by
        simpa [YogaLayout.isLeaf, styled_yoga] using leaf
      refine ⟨layout.styled source props (some address), by simp [updateYogaChildren, isLeaf], ?_⟩
      rw [styled_dirty_iff closed]
      simp [leaf]
    · obtain ⟨after, afterEq, holds⟩ := rebuilt_dirty_iff adopt closed
        (by simpa using leaf) props address
      exact ⟨after, by simpa using afterEq, by simpa [leaf] using holds⟩

end Clone

/-! ### A parent that was never laid out -/

def dirtyParent : YogaLayout Nat where
  tree := (Runs.run YogaTree.step {} [.create true false none, .makeList [0],
    .create true false (some 1)]).getD {}
  state node := { style := 0, yogaStyle := 0, isDirty := node = 1, dirtied := false }

theorem dirtyParent_closed : dirtyParent.tree.Closed := by
  have permitted : Runs.Along YogaTree.step (fun tree operation =>
      tree.Permitted operation ∧ tree.NoRepeats operation) {}
      [.create true false none, .makeList [0], .create true false (some 1)] := by
    iterate 3
      refine ⟨⟨by decide, by unfold YogaTree.NoRepeats; decide⟩, ?_⟩
      rintro _ ⟨⟩
    trivial
  obtain ⟨_, ran, mirrors, sound⟩ := YogaTree.run_yogaMirrors permitted
  simpa [dirtyParent, ran] using YogaTree.Closed.of_mirrors mirrors sound

theorem clone_dirty_iff_dirtyParent :
    ∃ after, dirtyParent.clone (fun _ state => state) 1 (some 7) none = some after ∧
      ((NeedsLayout dirtyParent after 1 2 → (after.state 2).isDirty = true) ↔
        dirtyParent.isLeaf 1 = true ∨
          WalkSuffices (fun _ state => state) dirtyParent 1 (some 7) none) :=
  clone_dirty_iff dirtyParent_closed (by decide) (some 7) none

theorem dirtyParent_clone_clean :
    ∃ after, dirtyParent.clone (fun _ state => state) 1 none (some (.given 1)) = some after ∧
      NeedsLayout dirtyParent after 1 2 ∧ (after.state 2).isDirty = false :=
  ⟨_, rfl, .inl (by decide), by decide⟩

end YogaLayout
end ReactNative


