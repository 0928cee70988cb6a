import ReactNative.Core.CloneTree
import ReactNative.Foundation.Runs
import Mathlib.Data.Fintype.Basic

/-! `setNativeProps` puts new props into the committed tree. They are computed from the handle that
JavaScript holds, which may be older than the committed node of its family. -/
namespace ReactNative

open KeyedTree ShadowNode Option KeyedTree.Tree

variable {D Name Value : Type}

/-- `null` removes a prop. -/
def convertRawProp (rawValue : Option (Option Value)) (sourceValue defaultValue : Value) : Value :=
  match rawValue with
  | none => sourceValue
  | some none => defaultValue
  | some (some value) => value

/-- The raw props are told by what is found in them under a name. -/
def cloneProps (defaultProps sourceProps : Name → Value) (rawProps : Name → Option (Option Value)) :
    Name → Value :=
  fun name => convertRawProp (rawProps name) (sourceProps name) (defaultProps name)

theorem cloneProps_eq_iff {defaultProps first second : Name → Value}
    {rawProps : Name → Option (Option Value)} :
    cloneProps defaultProps first rawProps = cloneProps defaultProps second rawProps ↔
      ∀ name, rawProps name = none → first name = second name := by
  rw [funext_iff]
  refine forall_congr' fun name => ?_
  rw [cloneProps, cloneProps]
  cases rawProps name with
  | none => simp [convertRawProp]
  | some rawValue => cases rawValue <;> simp [convertRawProp]

/-- A commit of any tree, or a call with the address of the new props and the root that it leaves after
the reconciliation of states and the layout. -/
inductive NativePropsAction (D Name Value : Type) (parents : FamilyParents) where
  | commit (tree : CommittedRoot D parents)
  | setNativeProps (shadowNode : ShadowNode D) (rawProps : Name → Option (Option Value))
    (props : Pointer) (settled : ShadowNode D)

/-- What the reconciliation and the layout keep. -/
def familiesAndProps (root : ShadowNode D) : KeyedTree.Tree (ShadowNodeFamily × Pointer) :=
  map (fun fields => (fields.family, fields.props)) root

namespace UIManager

section SetNativeProps

variable (parents : FamilyParents) (owners : YogaOwners D)
  (mostRecentState : ShadowNodeFamily → Option (State D))

/-- The transaction of `setNativeProps`, with the props that were computed before. -/
def setNativeProps (oldRootShadowNode shadowNode : ShadowNode D) (props : Pointer) :
    Option (Option (ShadowNode D)) :=
  cloneTree parents owners mostRecentState oldRootShadowNode shadowNode.getFamily
    fun oldShadowNode =>
      oldShadowNode.cloneShadowNode owners mostRecentState { props := some props }

variable (contents : Pointer → Name → Value) (defaultProps : String → Name → Value)

section Step

variable [Fintype Name] [DecidableEq Value]

/-- The committed root after an action. Commits without a new root are given up. -/
def step (root : ShadowNode D) : NativePropsAction D Name Value parents → Option (ShadowNode D)
  | .commit tree => some tree.rootShadowNode
  | .setNativeProps shadowNode rawProps props settled =>
    if contents props = cloneProps (defaultProps shadowNode.getComponentName)
        (contents shadowNode.getProps) rawProps then
      match setNativeProps parents owners mostRecentState root shadowNode props with
      | none => none
      | some none => some root
      | some (some newRoot) =>
        if familiesAndProps settled = familiesAndProps newRoot then some settled else none
    else none

end Step

def propsIn (root : ShadowNode D) (family : ShadowNodeFamily) : Option (Name → Value) :=
  ((Tree.nodes root).find? fun node => getFamily node = family).map fun node =>
    contents node.getProps

/-- The raw props come on top of the props that the node had, and all other nodes keep theirs. -/
def UpdatesProps (before after : ShadowNode D) (shadowNode : ShadowNode D)
    (rawProps : Name → Option (Option Value)) : Prop :=
  ∀ family, propsIn contents after family =
    if family = shadowNode.getFamily then
      (propsIn contents before family).map fun props =>
        cloneProps (defaultProps shadowNode.getComponentName) props rawProps
    else propsIn contents before family

/-- Each call for a family below the root updates the props in the committed tree. -/
def Accumulates [Fintype Name] [DecidableEq Value] (root : ShadowNode D) :
    NativePropsAction D Name Value parents → Prop
  | .commit _ => True
  | .setNativeProps shadowNode rawProps props settled =>
    OccursBelow shadowNode.getFamily root →
      ∀ next ∈ step parents owners mostRecentState contents defaultProps root
          (.setNativeProps shadowNode rawProps props settled),
        UpdatesProps contents defaultProps root next shadowNode rawProps

variable {parents} in
/-- The handle has the props of the committed node, as far as the call leaves them out. -/
def HandleAgrees (root : ShadowNode D) : NativePropsAction D Name Value parents → Prop
  | .commit _ => True
  | .setNativeProps shadowNode rawProps _ _ =>
    OccursBelow shadowNode.getFamily root →
      ∀ props ∈ propsIn contents root shadowNode.getFamily, ∀ name, rawProps name = none →
        contents shadowNode.getProps name = props name

end SetNativeProps

section Trees

variable {root after : ShadowNode D} {family : ShadowNodeFamily} {props : Pointer}

def putProps (family : ShadowNodeFamily) (props : Pointer) (label : ShadowNodeFamily × Pointer) :
    ShadowNodeFamily × Pointer :=
  if label.1 = family then (label.1, props) else label

@[simp] theorem putProps_fst (label : ShadowNodeFamily × Pointer) :
    (putProps family props label).1 = label.1 := by
  rw [putProps]
  split <;> rfl

theorem familiesAndProps_putProps_of_absent
    (absent : ∀ node ∈ Tree.nodes root, getFamily node ≠ family) :
    (familiesAndProps root).map (putProps family props) = familiesAndProps root := by
  rw [familiesAndProps, Tree.map_map]
  apply Tree.map_congr
  intro node member
  exact if_neg (absent node member)

theorem map_familiesAndProps_of_absent {forest : List (ShadowNode D)}
    (absent : family ∉ keys familyOf forest) :
    (forest.map familiesAndProps).map (map (putProps family props)) =
      forest.map familiesAndProps := by
  rw [List.map_map]
  apply List.map_congr_left
  intro tree member
  apply familiesAndProps_putProps_of_absent
  intro node nodeMem same
  exact absent (mem_keys.mpr ⟨node, mem_forestNodes.mpr ⟨tree, member, nodeMem⟩, same⟩)

theorem familiesAndProps_eq (root : ShadowNode D) : familiesAndProps root =
    ⟨(root.getFamily, root.getProps), root.getChildren.map familiesAndProps⟩ :=
  Tree.map_eq _ root

variable {owners : YogaOwners D} {mostRecentState : ShadowNodeFamily → Option (State D)}

theorem familiesAndProps_adopts {parent child adopted : ShadowNode D}
    (adopts : Adopts owners mostRecentState parent child adopted) :
    familiesAndProps adopted = familiesAndProps child := by
  cases adopts with
  | child => rfl
  | clone _ sameFamily sameProps sameChildren =>
    rw [familiesAndProps_eq, familiesAndProps_eq child, sameFamily, sameProps, sameChildren]

theorem map_familiesAndProps_adopts {parent : ShadowNode D} {children adopted : List (ShadowNode D)}
    (each : List.Forall₂ (Adopts owners mostRecentState parent) children adopted) :
    adopted.map familiesAndProps = children.map familiesAndProps := by
  induction each with
  | nil => rfl
  | cons adopts _ ih => rw [List.map_cons, List.map_cons, ih, familiesAndProps_adopts adopts]

theorem familiesAndProps_replaces {callback : ShadowNode D → ShadowNode D} {newRoot : ShadowNode D}
    (puts : ∀ old, familiesAndProps (callback old) =
      ⟨(getFamily old, props), (getChildren old).map familiesAndProps⟩)
    (replaces : Replaces owners mostRecentState (Adopts owners mostRecentState) family callback root
      newRoot) :
    DistinctFamilies root →
      familiesAndProps newRoot = (familiesAndProps root).map (putProps family props) := by
  induction replaces with
  | @target node isTarget =>
    intro distinct
    have absent : family ∉ keys familyOf node.getChildren := isTarget ▸ Distinct.root_not_mem distinct
    rw [puts, familiesAndProps_eq, Tree.map_eq, map_familiesAndProps_of_absent absent,
      putProps, if_pos isTarget]
  | @ancestor node clone child newChild before after children replaced sameFamily sameProps _ _
      newChildren ih =>
    intro distinct
    have occurs := replaces_occurs replaced
    have childMem : child ∈ node.getChildren := by
      rw [children]
      exact List.mem_append_right _ List.mem_cons_self
    have notHere : node.getFamily ≠ family := by
      rintro rfl
      exact Distinct.root_not_mem distinct (occursBelow_of_child childMem occurs)
    -- the family is in no other child
    have nodup := Distinct.nodup distinct
    have inChild : family ∈ keys familyOf [child] :=
      mem_keys_roots.mpr ⟨child, List.mem_singleton_self child, occurs⟩
    rw [children, ← List.singleton_append, keys_append, keys_append, List.nodup_append,
      List.nodup_append] at nodup
    have notBefore : family ∉ keys familyOf before :=
      fun member => nodup.2.2 family member family (List.mem_append_left _ inChild) rfl
    have notAfter : family ∉ keys familyOf after :=
      fun member => nodup.2.1.2.2 family inChild family member rfl
    rw [familiesAndProps_eq clone, familiesAndProps_eq node, Tree.map_eq, children,
      map_familiesAndProps_adopts newChildren, sameFamily, sameProps]
    simp only [List.map_append, List.map_cons, map_familiesAndProps_of_absent notBefore,
      map_familiesAndProps_of_absent notAfter, ih (distinctFamilies_child distinct childMem),
      putProps, if_neg notHere]

/-! ### Families of a tree -/

theorem families_of_familiesAndProps (root : ShadowNode D) :
    (familiesAndProps root).map Prod.fst = map familyOf root :=
  Tree.map_map _ _ root

theorem map_families_eq (nodes : List (ShadowNode D)) : nodes.map getFamily =
    (nodes.map (map familyOf)).map Tree.label := by
  rw [List.map_map]
  apply List.map_congr_left
  intro node _
  rw [Function.comp_apply, Tree.map_eq]
  rfl

theorem distinctFamilies_of_map (same : map familyOf after =
    map familyOf root) (distinct : DistinctFamilies root) : DistinctFamilies after := by
  have families : ∀ root : ShadowNode D, DistinctFamilies root ↔
      ((Tree.nodes (map familyOf root)).map Tree.label).Nodup := by
    intro root
    rw [nodes_map, ← map_families_eq]
    cases root
    rfl
  rw [families] at distinct ⊢
  rwa [same]

theorem recordsParents_of_map {parents : FamilyParents} (same : map familyOf after =
    map familyOf root) (records : RecordsParents parents root) :
    RecordsParents parents after := by
  intro node member child childMem
  -- the node with the same families below it in the other tree
  obtain ⟨other, otherMem, sameNode⟩ := exists_node_of_map_eq familyOf same member
  rw [Tree.map_eq, Tree.map_eq, Tree.mk.injEq] at sameNode
  obtain ⟨sameFamily, sameChildren⟩ := sameNode
  have image : map familyOf child ∈
      (Tree.children other).map (map familyOf) := by
    rw [sameChildren]
    exact List.mem_map_of_mem childMem
  obtain ⟨otherChild, otherChildMem, sameChild⟩ := List.mem_map.mp image
  rw [Tree.map_eq, Tree.map_eq, Tree.mk.injEq] at sameChild
  have recorded := records other otherMem otherChild otherChildMem
  have childFamily : getFamily otherChild = getFamily child := sameChild.1
  have nodeFamily : getFamily other = getFamily node := sameFamily
  rwa [childFamily, nodeFamily] at recorded

/-! ### Props of a family -/

variable {contents : Pointer → Name → Value}

theorem propsIn_eq (root : ShadowNode D) (family : ShadowNodeFamily) :
    propsIn contents root family =
      (((familiesAndProps root).nodes.map Tree.label).find? fun label =>
        label.1 = family).map fun label => contents label.2 := by
  rw [familiesAndProps, nodes_map, List.map_map, List.find?_map, Option.map_map, propsIn]
  have labels : ∀ node : ShadowNode D, (map
      (fun fields : ShadowNodeFields D => (fields.family, fields.props)) node).label =
        (node.getFamily, node.getProps) := by
    intro node
    rw [Tree.map_eq]
    rfl
  simp only [Function.comp_def, labels]

theorem propsIn_putProps
    (put : familiesAndProps after = (familiesAndProps root).map (putProps family props))
    (other : ShadowNodeFamily) :
    propsIn contents after other =
      if other = family then (propsIn contents root other).map fun _ => contents props
      else propsIn contents root other := by
  have labels : ∀ tree : KeyedTree.Tree (ShadowNodeFamily × Pointer),
      (map (putProps family props) tree).label =
        putProps family props tree.label := by
    intro tree
    rw [Tree.map_eq]
  have images : ((familiesAndProps after).nodes.map Tree.label) =
      ((familiesAndProps root).nodes.map Tree.label).map (putProps family props) := by
    rw [put, nodes_map, List.map_map, List.map_map]
    exact List.map_congr_left fun tree _ => labels tree
  rw [propsIn_eq, propsIn_eq root, images, List.find?_map]
  simp only [Function.comp_def, putProps_fst]
  cases found : ((familiesAndProps root).nodes.map Tree.label).find? fun label =>
      label.1 = other with
  | none => simp
  | some label =>
    have isOther : label.1 = other := by simpa using List.find?_some found
    subst isOther
    simp only [map_some, putProps]
    split <;> rfl

end Trees

section Steps

variable [Fintype Name] [DecidableEq Value] {parents : FamilyParents}
  {owners : YogaOwners D} {mostRecentState : ShadowNodeFamily → Option (State D)}
  {contents : Pointer → Name → Value} {defaultProps : String → Name → Value}
  {root next : ShadowNode D} {shadowNode settled : ShadowNode D} {props : Pointer}
  {rawProps : Name → Option (Option Value)}

/-- The families differ and have recorded their parents. -/
structure WellFormed (parents : FamilyParents) (root : ShadowNode D) : Prop where
  distinct : DistinctFamilies root
  records : RecordsParents parents root

/-- **What a call does.** The new props come from the handle. If the family is below the root its node
gets them, and nothing else changes. -/
theorem step_setNativeProps (wellFormed : WellFormed parents root)
    (stepped : step parents owners mostRecentState contents defaultProps root
      (.setNativeProps shadowNode rawProps props settled) = some next) :
    contents props = cloneProps (defaultProps shadowNode.getComponentName)
        (contents shadowNode.getProps) rawProps ∧
      ((OccursBelow shadowNode.getFamily root ∧ familiesAndProps next =
          (familiesAndProps root).map (putProps shadowNode.getFamily props)) ∨
        (¬OccursBelow shadowNode.getFamily root ∧ next = root)) := by
  rw [step, ite_none_right_eq_some] at stepped
  obtain ⟨converted, committed⟩ := stepped
  refine ⟨converted, ?_⟩
  -- below the root the callback runs, and else `cloneTree` fails and the old root stays
  by_cases below : OccursBelow shadowNode.getFamily root
  · obtain ⟨clone, cloned, replaces⟩ := @cloneTree_below D parents root shadowNode.getFamily
      owners mostRecentState
      (fun old => old.cloneShadowNode owners mostRecentState { props := some props })
      wellFormed.distinct wellFormed.records below (fun _ same => same)
    rw [setNativeProps, cloned] at committed
    obtain ⟨settles, isNext⟩ := ite_none_right_eq_some.mp committed
    obtain rfl := some.inj isNext
    have puts := familiesAndProps_replaces (fun old => by
      rw [familiesAndProps_eq, getChildren_cloneShadowNode_of_none _ _ _ rfl]
      rfl) replaces wellFormed.distinct
    exact .inl ⟨below, settles.trans puts⟩
  · have nothing := @getAncestors_nil D parents root _ below
    rw [setNativeProps, cloneTree] at committed
    simp only [nothing, List.getLast?_nil, some.injEq] at committed
    exact .inr ⟨below, committed.symm⟩

variable {action : NativePropsAction D Name Value parents}

section

variable (wellFormed : WellFormed parents root)
  (stepped : step parents owners mostRecentState contents defaultProps root action = some next)
include wellFormed stepped

theorem wellFormed_step : WellFormed parents next := by
  cases action with
  | commit tree =>
    cases stepped
    exact ⟨tree.distinct, tree.records⟩
  | setNativeProps =>
    obtain ⟨-, ⟨-, put⟩ | ⟨-, rfl⟩⟩ := step_setNativeProps wellFormed stepped
    · have same : map familyOf next = map familyOf root := by
        rw [← families_of_familiesAndProps, ← families_of_familiesAndProps, put, Tree.map_map]
        congr 1
        exact funext fun label => putProps_fst label
      exact ⟨distinctFamilies_of_map same wellFormed.distinct,
        recordsParents_of_map same wellFormed.records⟩
    · exact wellFormed

theorem accumulates_iff_agrees :
    Accumulates parents owners mostRecentState contents defaultProps root action ↔
      HandleAgrees contents root action := by
  cases action with
  | commit => exact Iff.rfl
  | setNativeProps shadowNode _ props =>
    obtain ⟨converted, committed⟩ := step_setNativeProps wellFormed stepped
    refine forall_congr' fun below => ?_
    simp only [stepped, mem_def, some.injEq, forall_eq']
    obtain ⟨-, put⟩ : OccursBelow shadowNode.getFamily root ∧ familiesAndProps next =
        (familiesAndProps root).map (putProps shadowNode.getFamily props) :=
      committed.resolve_right fun unmounted => unmounted.1 below
    have looked := @propsIn_putProps D Name Value root next _ _ contents put
    constructor
    · -- of all families, that of the handle tells
      intro updates committedProps found
      have updated := updates shadowNode.getFamily
      rw [looked, if_pos rfl, if_pos rfl, found, map_some, map_some,
        some.injEq, converted] at updated
      exact cloneProps_eq_iff.mp updated
    · intro agrees family
      rw [looked]
      split
      next isFamily =>
        subst isFamily
        refine Option.map_congr fun committedProps found => ?_
        rw [converted]
        exact cloneProps_eq_iff.mpr (agrees committedProps found)
      next => rfl

end

/-- **Native updates accumulate** in a run exactly if at each call the handle has the props of the
committed node, as far as the call leaves them out. -/
theorem accumulates_iff (tree : CommittedRoot D parents)
    {actions : List (NativePropsAction D Name Value parents)} {final : ShadowNode D}
    (ran : Runs.run (step parents owners mostRecentState contents defaultProps)
      tree.rootShadowNode actions = some final) :
    Runs.Along (step parents owners mostRecentState contents defaultProps)
        (Accumulates parents owners mostRecentState contents defaultProps)
        tree.rootShadowNode actions ↔
      Runs.Along (step parents owners mostRecentState contents defaultProps)
        (HandleAgrees contents) tree.rootShadowNode actions :=
  Runs.along_iff (fun _ _ _ wellFormed stepped => wellFormed_step wellFormed stepped)
    (fun _ _ _ wellFormed stepped => accumulates_iff_agrees wellFormed stepped)
    (⟨tree.distinct, tree.records⟩ : WellFormed parents tree.rootShadowNode) ran

end Steps

/-! ### Two updates through one handle -/

inductive StyleProp where
  | opacity
  | width
  deriving DecidableEq

instance : Fintype StyleProp where
  elems := {.opacity, .width}
  complete prop := by cases prop <;> decide

def styleContents (props : Pointer) : StyleProp → ℕ
  | .opacity => if props = 1 then 50 else 100
  | .width => if props = 2 then 30 else 10

def setOpacity : StyleProp → Option (Option ℕ)
  | .opacity => some (some 50)
  | .width => none

def setWidth : StyleProp → Option (Option ℕ)
  | .opacity => none
  | .width => some (some 30)

def styledRoot (props : Pointer) : CommittedRoot ℕ rootFamilies where
  rootShadowNode := ⟨rootNode.label, [⟨{ childNode.label with props }, []⟩]⟩
  distinct := by
    have families : DistinctFamilies
        (⟨rootNode.label, [⟨{ childNode.label with props }, []⟩]⟩ : ShadowNode ℕ) =
          [rootNode.getFamily, childNode.getFamily].Nodup := rfl
    rw [families]
    decide
  records := by
    intro node member child childMem
    rcases List.mem_cons.mp member with rfl | below
    · obtain rfl := List.mem_singleton.mp childMem
      rfl
    · obtain rfl := List.mem_singleton.mp below
      cases childMem

def styleStep := step rootFamilies rootOwners (fun _ => (none : Option (State ℕ))) styleContents
  fun _ _ => 0

theorem styleStep_styledRoot {props newProps : Pointer} {rawProps : StyleProp → Option (Option ℕ)}
    (converted : styleContents newProps = cloneProps (fun _ => 0) (styleContents 0) rawProps) :
    styleStep (styledRoot props).rootShadowNode (.setNativeProps childNode rawProps newProps
      (styledRoot newProps).rootShadowNode) = some (styledRoot newProps).rootShadowNode := by
  have path : IsPath (styledRoot props).rootShadowNode [((styledRoot props).rootShadowNode, 0)]
      ⟨{ childNode.label with props }, []⟩ := ⟨rfl, _, rfl, rfl⟩
  have ancestors := getAncestors_eq (styledRoot props).distinct (styledRoot props).records path
  have family : getFamily (⟨{ childNode.label with props }, []⟩ : ShadowNode ℕ) =
    childNode.getFamily := rfl
  rw [family] at ancestors
  let newChild : ShadowNode ℕ := ⟨{ childNode.label with address := 120, props := newProps }, []⟩
  have cloned : setNativeProps rootFamilies rootOwners (fun _ => (none : Option (State ℕ)))
      (styledRoot props).rootShadowNode childNode newProps =
        some (some ((styledRoot props).rootShadowNode.clone none { children := some [newChild] }
          110)) := by
    rw [setNativeProps, cloneTree]
    simp only [ancestors]
    rfl
  have sourceProps : childNode.getProps = 0 := rfl
  rw [styleStep, step, sourceProps, if_pos converted, cloned]
  exact if_pos rfl

def styleCalls : List (NativePropsAction ℕ StyleProp ℕ rootFamilies) :=
  [.setNativeProps childNode setOpacity 1 (styledRoot 1).rootShadowNode,
    .setNativeProps childNode setWidth 2 (styledRoot 2).rootShadowNode]

theorem styleCalls_run : Runs.run styleStep (styledRoot 0).rootShadowNode styleCalls =
    some (styledRoot 2).rootShadowNode := by
  have first := @styleStep_styledRoot 0 1 setOpacity (by decide)
  have second := @styleStep_styledRoot 1 2 setWidth (by decide)
  exact Runs.run_cons.mpr ⟨_, first, Runs.run_cons.mpr ⟨_, second, rfl⟩⟩

theorem accumulates_iff_styleCalls :
    Runs.Along styleStep (Accumulates rootFamilies rootOwners (fun _ => none) styleContents
        fun _ _ => 0) (styledRoot 0).rootShadowNode styleCalls ↔
      Runs.Along styleStep (HandleAgrees styleContents) (styledRoot 0).rootShadowNode styleCalls :=
  accumulates_iff (styledRoot 0) styleCalls_run

theorem styleCalls_not_accumulated :
    ¬Runs.Along styleStep (Accumulates rootFamilies rootOwners (fun _ => none) styleContents
        fun _ _ => 0) (styledRoot 0).rootShadowNode styleCalls := by
  intro along
  have first := @styleStep_styledRoot 0 1 setOpacity (by decide)
  have second := @styleStep_styledRoot 1 2 setWidth (by decide)
  have later := (along.2 _ first).1
  have mounted : OccursBelow childNode.getFamily (styledRoot 1).rootShadowNode := by
    unfold OccursBelow
    decide
  have updated := later mounted _ second childNode.getFamily
  have opacity := congrArg (Option.map fun props => props .opacity) updated
  exact absurd opacity (by decide +kernel)

end UIManager

end ReactNative

