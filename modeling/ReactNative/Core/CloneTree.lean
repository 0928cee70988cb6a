import ReactNative.Core.ShadowNodeFamily

/-! In a tree in which the families differ and record their parents, the ancestors of a family are
the way from the root down to its node, and cloning the tree replaces this node alone. -/
namespace ReactNative

open KeyedTree ShadowNode ShadowNodeFamily List Option

variable {D : Type}

/-- A way down from a node, by the indices of the children, and the node that it leads to. -/
def IsPath : ShadowNode D → AncestorList D → ShadowNode D → Prop
  | node, [], last => node = last
  | node, step :: rest, last => step.1 = node ∧
    ∃ child, (getChildren node)[step.2]? = some child ∧ IsPath child rest last

/-- The families below the root differ, and also from that of the root. -/
def DistinctFamilies (root : ShadowNode D) : Prop :=
  KeyedTree.Distinct familyOf root.getFamily root.getChildren

/-- Each family in the tree has recorded that of its parent. -/
def RecordsParents (parents : FamilyParents) (root : ShadowNode D) : Prop :=
  ∀ node ∈ Tree.nodes root, ∀ child ∈ getChildren node,
    parents.parent (getFamily child) = some (getFamily node)

structure CommittedRoot (D : Type) (parents : FamilyParents) where
  rootShadowNode : ShadowNode D
  distinct : DistinctFamilies rootShadowNode
  records : RecordsParents parents rootShadowNode

def OccursBelow (family : ShadowNodeFamily) (root : ShadowNode D) : Prop :=
  family ∈ keys familyOf root.getChildren

section Replacement

variable (owners : YogaOwners D) (mostRecentState : ShadowNodeFamily → Option (State D))

/-- What the clone of a parent has for a child. It is the child itself, unless the parent takes over
Yoga nodes and that of the child has an owner: then it is a clone with the most recent state. -/
inductive Adopts (parent child : ShadowNode D) : ShadowNode D → Prop
  | child (free : ¬(takesYogaChildren parent ∧ isOwned owners child)) : Adopts parent child child
  | clone {clone : ShadowNode D} (taken : takesYogaChildren parent ∧ isOwned owners child)
    (sameFamily : clone.getFamily = child.getFamily) (sameProps : clone.getProps = child.getProps)
    (sameChildren : clone.getChildren = child.getChildren)
    (recentState : clone.getState = mostRecentState child.getFamily) : Adopts parent child clone

/-- The node of the family is replaced, and the nodes above it are clones with the most recent
states, whose Yoga nodes have no owner. The other nodes are what their parents make of them. -/
inductive Replaces (adopts : ShadowNode D → ShadowNode D → ShadowNode D → Prop)
    (family : ShadowNodeFamily) (callback : ShadowNode D → ShadowNode D) :
    ShadowNode D → ShadowNode D → Prop
  | target {node : ShadowNode D} (isTarget : node.getFamily = family) :
    Replaces adopts family callback node (callback node)
  | ancestor {node clone child newChild : ShadowNode D} {before after : List (ShadowNode D)}
    (children : node.getChildren = before ++ child :: after)
    (replaced : Replaces adopts family callback child newChild)
    (sameFamily : clone.getFamily = node.getFamily) (sameProps : clone.getProps = node.getProps)
    (recentState : clone.getState = mostRecentState node.getFamily)
    (unowned : clone.isOwned owners = false)
    (newChildren : Forall₂ (adopts node) (before ++ newChild :: after) clone.getChildren) :
    Replaces adopts family callback node clone

end Replacement

variable {parents : FamilyParents} {root node last child : ShadowNode D} {path : AncestorList D}
  {family : ShadowNodeFamily}

theorem distinctFamilies_child (distinct : DistinctFamilies node)
    (member : child ∈ node.getChildren) : DistinctFamilies child :=
  Distinct.children distinct member

theorem recordsParents_child (records : RecordsParents parents node)
    (member : child ∈ node.getChildren) : RecordsParents parents child := by
  intro inner innerMem
  exact records inner (mem_nodes.mpr (.inr (mem_forestNodes.mpr ⟨child, member, innerMem⟩)))

theorem occursBelow_of_child (member : child ∈ node.getChildren)
    (here : child.getFamily = family ∨ OccursBelow family child) : OccursBelow family node :=
  mem_keys_roots.mpr ⟨child, member, here⟩

/-! ### Ways down -/

def passedFamilies : AncestorList D → List ShadowNodeFamily
  | [] => []
  | step :: rest =>
    ((getChildren step.1)[step.2]?.map getFamily).toList ++ passedFamilies rest

theorem passedFamilies_cons {step : ShadowNode D × ℕ} {rest : AncestorList D}
    (there : (getChildren step.1)[step.2]? = some child) :
    passedFamilies (step :: rest) = child.getFamily :: passedFamilies rest := by
  rw [passedFamilies, there]
  rfl

theorem exists_isPath (below : OccursBelow family node) :
    ∃ path last, IsPath node path last ∧ path ≠ [] ∧ last.getFamily = family := by
  revert below
  refine Tree.induction (P := fun node : ShadowNode D => OccursBelow family node →
    ∃ path last, IsPath node path last ∧ path ≠ [] ∧ last.getFamily = family) ?_ node
  intro node ih below
  obtain ⟨child, member, here⟩ := mem_keys_roots.mp below
  obtain ⟨i, there⟩ := mem_iff_getElem?.mp member
  rcases here with isTarget | deeper
  · exact ⟨[(node, i)], child, ⟨rfl, child, there, rfl⟩, by simp, isTarget⟩
  · obtain ⟨path, last, isPath, -, isTarget⟩ := ih child member deeper
    exact ⟨(node, i) :: path, last, ⟨rfl, child, there, isPath⟩, by simp, isTarget⟩

theorem isPath_family (isPath : IsPath node path last) :
    (path = [] ∧ node = last) ∨ (path ≠ [] ∧ OccursBelow last.getFamily node) := by
  induction path generalizing node with
  | nil => exact .inl ⟨rfl, isPath⟩
  | cons _ _ ih =>
    obtain ⟨-, _, there, isRest⟩ := isPath
    refine .inr ⟨by simp, occursBelow_of_child (mem_of_getElem? there) ?_⟩
    rcases ih isRest with ⟨-, rfl⟩ | ⟨-, deeper⟩
    · exact .inl rfl
    · exact .inr deeper

theorem isPath_append {front back : AncestorList D} : IsPath node (front ++ back) last ↔
    ∃ middle, IsPath node front middle ∧ IsPath middle back last := by
  induction front generalizing node with
  | nil => simp [IsPath]
  | cons _ _ ih =>
    simp only [cons_append, IsPath, ih]
    aesop

theorem exists_last_step (isPath : IsPath node path last) (some_step : path ≠ []) :
    ∃ front parent, path = front ++ [parent] ∧ IsPath node front parent.1 ∧
      (getChildren parent.1)[parent.2]? = some last := by
  obtain ⟨front, parent, split⟩ := eq_nil_or_concat path |>.resolve_left some_step
  rw [concat_eq_append] at split
  rw [split] at isPath
  obtain ⟨-, isFront, rfl, _, there, rfl⟩ := isPath_append.mp isPath
  exact ⟨front, parent, split, isFront, there⟩

theorem distinctFamilies_isPath (distinct : DistinctFamilies node) (isPath : IsPath node path last) :
    DistinctFamilies last := by
  induction path generalizing node with
  | nil =>
    cases isPath
    exact distinct
  | cons _ _ ih =>
    obtain ⟨rfl, _, there, isRest⟩ := isPath
    exact ih (distinctFamilies_child distinct (mem_of_getElem? there)) isRest

theorem climb_isPath {ancestorFamily : ShadowNodeFamily} (records : RecordsParents parents node)
    (apart : ¬OccursBelow ancestorFamily node) (isPath : IsPath node path last) :
    climb parents ancestorFamily last.getFamily = ((passedFamilies path).reverse ++
          (climb parents ancestorFamily node.getFamily).1,
        (climb parents ancestorFamily node.getFamily).2) := by
  induction path generalizing node with
  | nil =>
    cases isPath
    rfl
  | cons step _ ih =>
    obtain ⟨rfl, child, there, isRest⟩ := isPath
    have member := mem_of_getElem? there
    have childApart : ¬OccursBelow ancestorFamily child :=
      fun deeper => apart (occursBelow_of_child member (.inr deeper))
    have differs : child.getFamily ≠ ancestorFamily :=
      fun same => apart (occursBelow_of_child member (.inl same))
    have recorded := records step.1 (self_mem_nodes step.1) child member
    have climbChild : climb parents ancestorFamily child.getFamily =
        (child.getFamily :: (climb parents ancestorFamily step.1.getFamily).1,
          (climb parents ancestorFamily step.1.getFamily).2) := by
      rw [climb, if_neg differs]
      split
      next missing => simp [recorded] at missing
      next above found =>
        rw [recorded, some_inj] at found
        rw [found]
    rw [ih (recordsParents_child records member) childApart isRest, climbChild,
      passedFamilies_cons there]
    simp

theorem findIdx?_family (distinct : DistinctFamilies node) {i : ℕ}
    (there : node.getChildren[i]? = some child) :
    (node.getChildren.findIdx? fun other => getFamily other = child.getFamily) = some i := by
  have nodup : (node.getChildren.map getFamily).Nodup := Distinct.rootKeys_nodup distinct
  obtain ⟨inside, isChild⟩ := List.getElem?_eq_some_iff.mp there
  rw [findIdx?_eq_some_iff_getElem]
  refine ⟨inside, by simp [isChild], ?_⟩
  intro j earlier same
  have iBound : i < (node.getChildren.map getFamily).length := by simpa using inside
  have families : (node.getChildren.map getFamily)[j] = (node.getChildren.map getFamily)[i] := by
    simpa [isChild] using same
  exact earlier.ne ((nodup.getElem_inj_iff).mp families)

theorem descend_isPath (distinct : DistinctFamilies node) (isPath : IsPath node path last) :
    descend node (passedFamilies path) = some path := by
  induction path generalizing node with
  | nil => rfl
  | cons _ _ ih =>
    obtain ⟨rfl, _, there, isRest⟩ := isPath
    have member := mem_of_getElem? there
    rw [passedFamilies_cons there, descend, findIdx?_family distinct there]
    simp only [there, bind_some, ih (distinctFamilies_child distinct member) isRest]
    rfl

theorem climb_self (ancestorFamily : ShadowNodeFamily) :
    climb parents ancestorFamily ancestorFamily = ([], some ancestorFamily) := by
  rw [climb, if_pos rfl]

theorem getAncestors_eq (distinct : DistinctFamilies root) (records : RecordsParents parents root)
    (isPath : IsPath root path last) :
    getAncestors parents last.getFamily root = path := by
  have climbed := climb_isPath records (Distinct.root_not_mem distinct) isPath
  rw [climb_self] at climbed
  simp only [getAncestors, climbed, append_nil, reverse_reverse,
    descend_isPath distinct isPath, ne_eq, not_true_eq_false, if_false, getD_some]

/-! ### Families that do not occur -/

theorem climb_head (ancestorFamily family : ShadowNodeFamily) :
    ∀ first ∈ (climb parents ancestorFamily family).1.head?, first = family := by
  rw [climb]
  split
  next => simp
  next => split <;> simp [eq_comm]

theorem descend_cons_eq_some {childFamily : ShadowNodeFamily} {rest : List ShadowNodeFamily}
    (descends : descend node (childFamily :: rest) = some path) :
    ∃ child childIndex below, node.getChildren[childIndex]? = some child ∧
      child.getFamily = childFamily ∧ descend child rest = some below ∧
      path = (node, childIndex) :: below := by
  rw [descend] at descends
  split at descends
  next => cases descends
  next childIndex found =>
    obtain ⟨child, there, descended⟩ := bind_eq_some_iff.mp descends
    obtain ⟨below, descendsRest, rfl⟩ := map_eq_some_iff.mp descended
    obtain ⟨_, isFamily, -⟩ := findIdx?_eq_some_iff_getElem.mp found
    obtain ⟨_, isChild⟩ := List.getElem?_eq_some_iff.mp there
    rw [isChild] at isFamily
    exact ⟨child, childIndex, below, there, of_decide_eq_true isFamily, descendsRest, rfl⟩

theorem occursBelow_of_descend {families : List ShadowNodeFamily}
    (descends : descend node families = some path) :
    ∀ last ∈ families.getLast?, OccursBelow last node := by
  induction families generalizing node path with
  | nil => simp
  | cons _ rest ih =>
    obtain ⟨_, _, _, there, same, descendsRest, -⟩ := descend_cons_eq_some descends
    have member := mem_of_getElem? there
    intro last isLast
    rw [getLast?_cons] at isLast
    cases deeper : rest.getLast? with
    | none =>
      rw [deeper] at isLast
      cases isLast
      exact occursBelow_of_child member (.inl same)
    | some inner =>
      rw [deeper] at isLast
      cases isLast
      exact occursBelow_of_child member (.inr (ih descendsRest inner deeper))

theorem getAncestors_nil (absent : ¬OccursBelow family root) :
    getAncestors parents family root = [] := by
  rw [getAncestors]
  split
  next => rfl
  next =>
    cases descends : descend root
        (climb parents root.getFamily family).1.reverse with
    | none => rfl
    | some =>
      have occurs := occursBelow_of_descend descends
      rw [getLast?_reverse] at occurs
      cases passed : (climb parents root.getFamily family).1 with
      | nil =>
        rw [passed] at descends
        cases descends
        rfl
      | cons first =>
        have isFamily := climb_head root.getFamily family first (by rw [passed]; rfl)
        exact absurd (isFamily ▸ occurs first (by rw [passed]; rfl)) absent

section Clone

variable {owners : YogaOwners D} {mostRecentState : ShadowNodeFamily → Option (State D)}
  {callback : ShadowNode D → ShadowNode D}

theorem adopts_appendChildYogaNode (taken : takesYogaChildren node) (child : ShadowNode D) :
    Adopts owners mostRecentState node child
      (appendChildYogaNode owners mostRecentState child) := by
  rw [appendChildYogaNode]
  split
  next owned => exact .clone ⟨taken, owned⟩ rfl rfl rfl rfl
  next free => exact .child fun both => free both.2

theorem adopts_givenChildren (node : ShadowNode D) (children : List (ShadowNode D)) :
    Forall₂ (Adopts owners mostRecentState node) children
      (givenChildren owners mostRecentState node children) := by
  rw [givenChildren]
  split
  next taken =>
    rw [forall₂_map_right_iff]
    exact forall₂_same.mpr fun child _ => adopts_appendChildYogaNode taken child
  next refused => exact forall₂_same.mpr fun _ _ => .child fun both => refused both.1

theorem replaces_cloneAncestors (isPath : IsPath node path last)
    (isTarget : last.getFamily = family) (returns : (callback last).getFamily = family) :
    ∃ clone, cloneAncestors owners mostRecentState path (callback last) = some clone ∧
      Replaces owners mostRecentState (Adopts owners mostRecentState) family callback node clone ∧
      clone.getFamily = node.getFamily := by
  induction path generalizing node with
  | nil =>
    cases isPath
    exact ⟨_, rfl, .target isTarget, returns.trans isTarget.symm⟩
  | cons step _ ih =>
    obtain ⟨rfl, child, there, isRest⟩ := isPath
    obtain ⟨newChild, cloned, replaces, same⟩ := ih isRest
    obtain ⟨inside, isChild⟩ := List.getElem?_eq_some_iff.mp there
    have sameFamily : ShadowNode.sameFamily child newChild = true := by
      simp [ShadowNode.sameFamily, same]
    have children : getChildren step.1 = (getChildren step.1).take step.2 ++
        child :: (getChildren step.1).drop (step.2 + 1) := by
      rw [← isChild, ← drop_eq_getElem_cons inside, take_append_drop]
    have newChildren : Forall₂ (Adopts owners mostRecentState step.1)
        ((getChildren step.1).take step.2 ++ newChild :: (getChildren step.1).drop (step.2 + 1))
        (givenChildren owners mostRecentState step.1
          ((getChildren step.1).set step.2 newChild)) := by
      rw [set_eq_take_append_cons_drop, if_pos inside]
      exact adopts_givenChildren _ _
    rw [← getChildren_cloneShadowNode] at newChildren
    refine ⟨cloneShadowNode owners mostRecentState step.1
      { children := some ((getChildren step.1).set step.2 newChild) }, ?_,
      .ancestor children replaces rfl rfl rfl (isOwned_cloneShadowNode _ _ _ _) newChildren, rfl⟩
    rw [cloneAncestors, cloned]
    simp only [bind_some, there, sameFamily, if_true]

theorem getElem?_last (isPath : IsPath node path last) :
    ∀ parent ∈ path.getLast?, (getChildren parent.1)[parent.2]? = some last := by
  intro parent isLast
  obtain ⟨_, rfl⟩ := getLast?_eq_some_iff.mp isLast
  obtain ⟨-, -, rfl, _, there, rfl⟩ := isPath_append.mp isPath
  exact there

/-- The list of ancestors is the one way down to the family. -/
structure OnlyWay (parents : FamilyParents) (family : ShadowNodeFamily) (root : ShadowNode D) :
    Prop where
  way : ∃ last, IsPath root (getAncestors parents family root) last ∧ last.getFamily = family
  only : ∀ path last, IsPath root path last → last.getFamily = family →
    path = getAncestors parents family root

section

variable (distinct : DistinctFamilies root) (records : RecordsParents parents root)
  (below : OccursBelow family root)
include distinct records below

theorem onlyWay : OnlyWay parents family root := by
  have only : ∀ path last, IsPath root path last → last.getFamily = family →
      path = getAncestors parents family root := by
    rintro path last isPath rfl
    exact (getAncestors_eq distinct records isPath).symm
  obtain ⟨path, last, isPath, -, isTarget⟩ := exists_isPath below
  exact ⟨⟨last, only path last isPath isTarget ▸ isPath, isTarget⟩, only⟩

theorem cloneTree_below
    (returns : ∀ node, getFamily node = family → getFamily (callback node) = family) :
    ∃ clone, cloneTree parents owners mostRecentState root family callback = some (some clone) ∧
      Replaces owners mostRecentState (Adopts owners mostRecentState) family callback root
        clone := by
  obtain ⟨_, last, isPath, some_step, isTarget⟩ := exists_isPath below
  have ancestors := getAncestors_eq distinct records isPath
  rw [isTarget] at ancestors
  obtain ⟨clone, cloned, replaces, -⟩ := replaces_cloneAncestors isPath isTarget
    (returns last isTarget)
  refine ⟨clone, ?_, replaces⟩
  obtain ⟨parent, isLast⟩ := isSome_iff_exists.mp (getLast?_isSome.mpr some_step)
  simp only [cloneTree, ancestors, isLast, getElem?_last isPath parent isLast, bind_some]
  rw [cloned, map_some]

end

theorem replaces_occurs {adopts : ShadowNode D → ShadowNode D → ShadowNode D → Prop}
    {newNode : ShadowNode D}
    (replaces : Replaces owners mostRecentState adopts family callback node newNode) :
    node.getFamily = family ∨ OccursBelow family node := by
  induction replaces with
  | target isTarget => exact .inl isTarget
  | ancestor children _ _ _ _ _ _ ih =>
    refine .inr (occursBelow_of_child ?_ ih)
    rw [children]
    exact mem_append_right _ mem_cons_self

/-- **One node is replaced.** If the family occurs below the root, its ancestors are the one way down
to it and the clone replaces its node; else there are no ancestors and no clone. -/
theorem cloneTree_replaces (distinct : DistinctFamilies root)
    (records : RecordsParents parents root) (family : ShadowNodeFamily)
    (returns : ∀ node, getFamily node = family → getFamily (callback node) = family) :
    (OccursBelow family root → OnlyWay parents family root ∧
        ∃ clone, cloneTree parents owners mostRecentState root family callback =
            some (some clone) ∧
          Replaces owners mostRecentState (Adopts owners mostRecentState) family callback root
            clone) ∧
      (¬OccursBelow family root → getAncestors parents family root = [] ∧
          cloneTree parents owners mostRecentState root family callback = some none) := by
  constructor
  · intro below
    exact ⟨onlyWay distinct records below, cloneTree_below distinct records below returns⟩
  · intro absent
    have nothing := @getAncestors_nil D parents root family absent
    refine ⟨nothing, ?_⟩
    rw [cloneTree]
    simp only [nothing, getLast?_nil]

end Clone

/-! ### A root with two children -/

def childNode : ShadowNode ℕ := statefulNode 20 2 none []

def rootNode : ShadowNode ℕ := statefulNode 10 1 none [childNode, statefulNode 30 3 none []]

def rootFamilies : FamilyParents where
  parent family := if 1 < family.tag then some rootNode.getFamily else none
  acyclic := by
    refine Subrelation.wf ?_ (measure fun family : ShadowNodeFamily => family.tag.toNat).wf
    intro above family recorded
    obtain ⟨isChild, isRoot⟩ := ite_none_right_eq_some.mp recorded
    cases isRoot
    simp [InvImage, WellFoundedRelation.rel, isChild, rootNode, statefulNode, getFamily]

/-- The root owns the Yoga nodes of its children. -/
def rootOwners : YogaOwners ℕ where
  cloneAddress node := node.label.address + 100
  hasOwner address := decide (address = 20 ∨ address = 30)
  clone_unowned node := by
    have apart : ∀ address : ℕ, ¬(address + 100 = 20 ∨ address + 100 = 30) := by omega
    exact decide_eq_false (apart _)

theorem cloneTree_replaces_childNode : (OccursBelow childNode.getFamily rootNode →
      OnlyWay rootFamilies childNode.getFamily rootNode ∧
        ∃ clone, cloneTree rootFamilies rootOwners (fun _ => none) rootNode
            childNode.getFamily id = some (some clone) ∧
          Replaces rootOwners (fun _ => none) (Adopts rootOwners fun _ => none)
            childNode.getFamily id rootNode clone) ∧
      (¬OccursBelow childNode.getFamily rootNode →
        getAncestors rootFamilies childNode.getFamily rootNode = [] ∧
          cloneTree rootFamilies rootOwners (fun _ => none) rootNode
            childNode.getFamily id = some none) :=
  cloneTree_replaces (by unfold DistinctFamilies KeyedTree.Distinct; decide)
    (by unfold RecordsParents; decide) childNode.getFamily fun _ same => same

/-- Only the first child is replaced by the callback, but the root clones the second one too. -/
theorem cloneTree_clones_sibling :
    let callback := fun node => cloneShadowNode rootOwners (fun _ => none) node { props := some 1 }
    DistinctFamilies rootNode ∧ RecordsParents rootFamilies rootNode ∧
      (∀ node, getFamily node = childNode.getFamily →
        getFamily (callback node) = childNode.getFamily) ∧
      OccursBelow childNode.getFamily rootNode ∧
      ∃ clone, cloneTree rootFamilies rootOwners (fun _ => none) rootNode childNode.getFamily
          callback = some (some clone) ∧
        ¬Replaces rootOwners (fun _ => none) (fun _ child adopted => child = adopted)
          childNode.getFamily callback rootNode clone := by
  intro callback
  let sibling : ShadowNode ℕ := statefulNode 30 3 none []
  have distinct : DistinctFamilies rootNode := by unfold DistinctFamilies KeyedTree.Distinct; decide
  have records : RecordsParents rootFamilies rootNode := by unfold RecordsParents; decide
  have ancestors : getAncestors rootFamilies childNode.getFamily rootNode = [(rootNode, 0)] :=
    getAncestors_eq distinct records ⟨rfl, childNode, rfl, rfl⟩
  refine ⟨distinct, records, fun _ same => same, by unfold OccursBelow; decide,
    cloneShadowNode rootOwners (fun _ => none) rootNode
      { children := some [callback childNode, sibling] }, ?_, ?_⟩
  · rw [cloneTree, ancestors]
    rfl
  · intro replaces
    cases replaces with
    | @ancestor _ _ child newChild before after children replaced _ _ _ _ newChildren =>
      -- the sibling is not the replaced child, and should still be there
      have isOther : child ≠ sibling := by
        rintro rfl
        exact absurd (replaces_occurs replaced) (by unfold OccursBelow; decide)
      have member : sibling ∈ before ++ child :: after := by
        rw [← children]
        decide
      have stays : sibling ∈ before ++ newChild :: after := by
        simp only [mem_append, mem_cons, isOther.symm, false_or] at member
        exact mem_append.mpr (member.imp_right (mem_cons_of_mem _))
      rw [forall₂_eq_eq_eq] at newChildren
      rw [newChildren] at stays
      exact absurd stays (by decide)

end ReactNative
