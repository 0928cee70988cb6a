import ReactNative.Foundation.DiffScripts
import ReactNative.Mounting.Differentiator
import ReactNative.Mounting.StubViewTree

/-! Both modes treat a level alike once it is known which children keep their place and which pairs
they recurse into. -/
namespace ReactNative

open KeyedTree ShadowViewMutation List Function

variable {D : Type}

def sliceForest (pairs : List (ShadowViewNodePair D)) : List (KeyedTree.Tree (ShadowView D)) :=
  (reorderInPlaceIfNeeded pairs).map ShadowViewNodePair.tree

@[simp] theorem sliceForest_nil : sliceForest ([] : List (ShadowViewNodePair D)) = [] := rfl

variable (shadowNode : ShadowNode D)

@[simp] theorem sliceForest_slice :
    sliceForest (sliceChildShadowNodeViewPairs shadowNode) = viewForest shadowNode :=
  (viewForest_eq shadowNode).symm

theorem slice_eq_nil_iff :
    sliceChildShadowNodeViewPairs shadowNode = [] ↔ viewForest shadowNode = [] := by
  have perm := reorderBy_perm (fun pair : ShadowViewNodePair D => pair.shadowNode.getOrderIndex)
    (sliceChildShadowNodeViewPairs shadowNode)
  rw [viewForest_eq, map_eq_nil_iff, reorderInPlaceIfNeeded]
  constructor
  · intro empty
    rw [empty] at perm
    exact empty ▸ perm.eq_nil
  · intro empty
    rw [empty] at perm
    exact perm.symm.eq_nil

inductive Visit (D : Type) where
  | matched (parentShadowView : ShadowView D) (oldChildPair newChildPair : ShadowViewNodePair D)
  | dropped (oldChildPair : ShadowViewNodePair D)
  | created (newChildPair : ShadowViewNodePair D)

namespace Visit

/-- The view whose children the call compares. -/
def parent : Visit D → ShadowView D
  | matched parentShadowView _ _ => parentShadowView
  | dropped oldChildPair => oldChildPair.shadowView
  | created newChildPair => newChildPair.shadowView

def oldSlice : Visit D → List (ShadowViewNodePair D)
  | matched _ oldChildPair _ => sliceChildShadowNodeViewPairs oldChildPair.shadowNode
  | dropped oldChildPair => sliceChildShadowNodeViewPairs oldChildPair.shadowNode
  | created _ => []

def newSlice : Visit D → List (ShadowViewNodePair D)
  | matched _ _ newChildPair => sliceChildShadowNodeViewPairs newChildPair.shadowNode
  | dropped _ => []
  | created newChildPair => sliceChildShadowNodeViewPairs newChildPair.shadowNode

def destructive : Visit D → Bool
  | matched _ _ newChildPair => (sliceChildShadowNodeViewPairs newChildPair.shadowNode).isEmpty
  | dropped _ => true
  | created _ => false

def isCreated : Visit D → Bool
  | created _ => true
  | _ => false

def deleted : Visit D → Option (KeyedTree.Tree (ShadowView D))
  | dropped oldChildPair => some oldChildPair.tree
  | _ => none

def createdTree : Visit D → Option (KeyedTree.Tree (ShadowView D))
  | created newChildPair => some newChildPair.tree
  | _ => none

variable (recursion : Recursion D) (visit : Visit D)

def mutations : List (ShadowViewMutation D) :=
  (recursion visit.parent visit.oldSlice visit.newSlice).getD []

def job : Job (ShadowView D) Tag where
  root := visit.parent.tag
  old := sliceForest visit.oldSlice
  new := sliceForest visit.newSlice
  edits := (visit.mutations recursion).map editOf

/-- The call returns proper mutations. -/
def Returns : Prop :=
  ∃ mutations, recursion visit.parent visit.oldSlice visit.newSlice = some mutations ∧
    ∀ mutation ∈ mutations, Proper mutation

theorem Returns.eq {recursion : Recursion D} {visit : Visit D} (returns : visit.Returns recursion) :
    recursion visit.parent visit.oldSlice visit.newSlice = some (visit.mutations recursion) ∧
      ∀ mutation ∈ visit.mutations recursion, Proper mutation := by
  obtain ⟨mutations, answer, proper⟩ := returns
  simp only [Visit.mutations, answer, Option.getD_some]
  exact ⟨trivial, proper⟩

end Visit

structure Outcome (D : Type) where
  kept : Tag → Bool := fun _ => false
  visits : List (Visit D) := []
  updated : List (ShadowViewNodePair D × ShadowViewNodePair D) := []
  removed : List (ShadowViewNodePair D × Nat) := []
  inserted : List (ShadowViewNodePair D × Nat) := []

namespace Outcome

instance : Append (Outcome D) where
  append first second :=
    { kept := fun tag => first.kept tag || second.kept tag
      visits := first.visits ++ second.visits
      updated := first.updated ++ second.updated
      removed := first.removed ++ second.removed
      inserted := first.inserted ++ second.inserted }

section

variable (first second : Outcome D)

@[simp] theorem append_kept (tag : Tag) :
    (first ++ second).kept tag = (first.kept tag || second.kept tag) := rfl

@[simp] theorem append_visits :
    (first ++ second).visits = first.visits ++ second.visits := rfl

@[simp] theorem append_updated :
    (first ++ second).updated = first.updated ++ second.updated := rfl

@[simp] theorem append_removed :
    (first ++ second).removed = first.removed ++ second.removed := rfl

@[simp] theorem append_inserted :
    (first ++ second).inserted = first.inserted ++ second.inserted := rfl

end

variable [DecidableEq D]

def updates (outcome : Outcome D) : List (ShadowView D) :=
  outcome.updated.filterMap fun pair =>
    if pair.1.shadowView ≠ pair.2.shadowView then some pair.2.shadowView else none

def plan (recursion : Recursion D) (outcome : Outcome D) : Plan (ShadowView D) Tag where
  kept := outcome.kept
  destructive := (outcome.visits.filter Visit.destructive).map (Visit.job recursion)
  updates := outcome.updates
  removes := outcome.removed.map fun pair => (pair.1.tree, pair.2)
  deletes := outcome.visits.filterMap Visit.deleted
  creates := outcome.visits.filterMap Visit.createdTree
  downward := (outcome.visits.filter fun visit => !visit.destructive).map (Visit.job recursion)
  inserts := outcome.inserted.map fun pair => (pair.1.tree, pair.2)

structure Renders (recursion : Recursion D) (parentTag : Tag) (lists : MutationLists D)
    (outcome : Outcome D) : Prop where
  destructive : ReactNative.Renders lists.destructiveDownwardMutations
    ((outcome.plan recursion).destructive.flatMap Job.edits)
  updates : ReactNative.Renders lists.updateMutations (outcome.updates.map .update)
  removes : ReactNative.Renders lists.removeMutations
    (outcome.removed.map fun pair => .remove parentTag pair.1.shadowView.tag pair.2)
  deletes : ReactNative.Renders lists.deleteMutations
    ((rootKeys ShadowView.tag (outcome.plan recursion).deletes).map .delete)
  creates : ReactNative.Renders lists.createMutations
    ((rootKeys ShadowView.tag (outcome.plan recursion).creates).map .create)
  downward : ReactNative.Renders lists.downwardMutations
    ((outcome.plan recursion).downward.flatMap Job.edits)
  inserts : ReactNative.Renders lists.insertMutations
    (outcome.inserted.map fun pair => .insert parentTag pair.1.shadowView pair.2)

end Outcome

theorem renders_nil : Renders ([] : List (ShadowViewMutation D)) [] := ⟨by simp, rfl⟩

theorem Renders.reverse {mutations : List (ShadowViewMutation D)}
    {edits : List (Edit (ShadowView D) Tag)} (renders : Renders mutations edits) :
    Renders mutations.reverse edits.reverse :=
  ⟨fun mutation member => renders.1 mutation (mem_reverse.mp member),
    by rw [map_reverse, renders.2]⟩

namespace Outcome.Renders

variable [DecidableEq D] {recursion : Recursion D} {parentTag : Tag}

theorem empty : Outcome.Renders recursion parentTag {} {} :=
  ⟨renders_nil, renders_nil, renders_nil, renders_nil, renders_nil, renders_nil, renders_nil⟩

variable {outcome : Outcome D}

theorem append {first second : MutationLists D} {outcome' : Outcome D}
    (left : Outcome.Renders recursion parentTag first outcome)
    (right : Outcome.Renders recursion parentTag second outcome') :
    Outcome.Renders recursion parentTag (first ++ second) (outcome ++ outcome') where
  destructive := by
    simpa [Outcome.plan] using left.destructive.append right.destructive
  updates := by simpa [Outcome.updates] using left.updates.append right.updates
  removes := by simpa using left.removes.append right.removes
  deletes := by simpa [Outcome.plan, rootKeys] using left.deletes.append right.deletes
  creates := by simpa [Outcome.plan, rootKeys] using left.creates.append right.creates
  downward := by simpa [Outcome.plan] using left.downward.append right.downward
  inserts := by simpa using left.inserts.append right.inserts

section

variable {lists : MutationLists D} (renders : Outcome.Renders recursion parentTag lists outcome)
include renders

theorem congr {other : Outcome D} (visits : other.visits = outcome.visits)
    (updated : other.updated = outcome.updated) (removed : other.removed = outcome.removed)
    (inserted : other.inserted = outcome.inserted) :
    Outcome.Renders recursion parentTag lists other := by
  obtain ⟨destructive, updates, removes, deletes, creates, downward, inserts⟩ := renders
  constructor <;> simp only [Outcome.plan, Outcome.updates, visits, updated, removed, inserted] <;>
    assumption

theorem inOptimalOrder :
    ReactNative.Renders lists.inOptimalOrder
      ((outcome.plan recursion).edits ShadowView.tag parentTag) := by
  have all := (((((renders.destructive.append renders.updates).append
    renders.removes.reverse).append renders.deletes).append renders.creates).append
    renders.downward).append renders.inserts
  simpa [Plan.edits, MutationLists.inOptimalOrder, Outcome.plan, map_reverse,
    comp_def, ShadowViewNodePair.tree] using all

end

end Outcome.Renders

section Pieces

variable [DecidableEq D] {recursion : Recursion D} (parentShadowView : ShadowView D)

theorem updateIfChanged_renders (oldChildPair newChildPair : ShadowViewNodePair D) (index : Int)
    (same : pairTag oldChildPair = pairTag newChildPair) :
    Outcome.Renders recursion parentShadowView.tag
      { updateMutations := updateIfChanged parentShadowView oldChildPair newChildPair index }
      { updated := [(oldChildPair, newChildPair)] } := by
  refine { Outcome.Renders.empty with updates := ?_ }
  unfold updateIfChanged
  by_cases changed : oldChildPair.shadowView = newChildPair.shadowView
  · simp only [ne_eq, changed, not_true_eq_false, if_false, Outcome.updates, filterMap_cons,
      filterMap_nil, map_nil]
    exact renders_nil
  · simp only [ne_eq, changed, not_false_eq_true, if_true, Outcome.updates, filterMap_cons,
      filterMap_nil, map_cons, map_nil]
    refine ⟨fun mutation member => ?_, rfl⟩
    rw [mem_singleton.mp member]
    exact proper_update _ _ _ _ same.symm

theorem removeMutation_renders (oldChildPair : ShadowViewNodePair D) (index : Nat) :
    Outcome.Renders recursion parentShadowView.tag
      { removeMutations := [removeMutation parentShadowView oldChildPair.shadowView index] }
      { removed := [(oldChildPair, index)] } :=
  { Outcome.Renders.empty with removes := ⟨by simp, rfl⟩ }

theorem insertMutations_renders (pairs : List (ShadowViewNodePair D × Nat)) :
    Outcome.Renders recursion parentShadowView.tag
      { insertMutations := pairs.map fun pair =>
          insertMutation parentShadowView pair.1.shadowView pair.2 }
      { inserted := pairs } := by
  refine { Outcome.Renders.empty with inserts := ⟨?_, ?_⟩ }
  · intro mutation member
    obtain ⟨pair, -, rfl⟩ := mem_map.mp member
    exact proper_insert _ _ _
  · simp [comp_def]

variable {oldChildPair newChildPair : ShadowViewNodePair D}

theorem updateGrandChildren_renders (parentTag : Tag)
    (returns : (Visit.matched parentShadowView oldChildPair newChildPair).Returns recursion) :
    ∃ lists, updateGrandChildren recursion parentShadowView oldChildPair newChildPair =
        some lists ∧ Outcome.Renders recursion parentTag lists
          { visits := [.matched parentShadowView oldChildPair newChildPair] } := by
  obtain ⟨answer, proper⟩ := returns.eq
  simp only [Visit.parent, Visit.oldSlice, Visit.newSlice] at answer
  refine ⟨_, by rw [updateGrandChildren, answer]; rfl, ?_⟩
  by_cases empty : sliceChildShadowNodeViewPairs newChildPair.shadowNode = []
  · have ends : (Visit.matched parentShadowView oldChildPair newChildPair).destructive = true := by
      simp [Visit.destructive, empty]
    simp only [empty, length_nil, ne_eq, not_true_eq_false, if_false]
    refine ⟨⟨proper, ?_⟩, renders_nil, renders_nil, renders_nil, renders_nil, ?_, renders_nil⟩
    · simp [Outcome.plan, ends, Visit.job]
    · simpa [Outcome.plan, ends, filter_cons] using renders_nil
  · have goesOn : (Visit.matched parentShadowView oldChildPair newChildPair).destructive = false := by
      simp [Visit.destructive, empty]
    simp only [length_eq_zero_iff, ne_eq, empty, not_false_eq_true, if_true]
    refine ⟨?_, renders_nil, renders_nil, renders_nil, renders_nil, ⟨proper, ?_⟩, renders_nil⟩
    · simpa [Outcome.plan, goesOn, filter_cons] using renders_nil
    · simp [Outcome.plan, goesOn, Visit.job]

theorem deleteGrandChildren_renders (parentTag : Tag)
    (returns : (Visit.dropped oldChildPair).Returns recursion) :
    ∃ lists, deleteGrandChildren recursion oldChildPair = some lists ∧
      Outcome.Renders recursion parentTag
        (({ deleteMutations := [deleteMutation oldChildPair.shadowView] } : MutationLists D) ++ lists)
        { visits := [.dropped oldChildPair] } := by
  obtain ⟨answer, proper⟩ := returns.eq
  simp only [Visit.parent, Visit.oldSlice, Visit.newSlice] at answer
  refine ⟨_, by rw [deleteGrandChildren, answer]; rfl, ?_⟩
  exact { Outcome.Renders.empty with
    destructive := ⟨proper, by simp [Outcome.plan, Visit.destructive, Visit.job, filter_cons]⟩
    deletes := ⟨by simp, rfl⟩ }

theorem createWithGrandChildren_renders (parentTag : Tag)
    (returns : (Visit.created newChildPair).Returns recursion) :
    ∃ lists, createWithGrandChildren recursion newChildPair = some lists ∧
      Outcome.Renders recursion parentTag lists { visits := [.created newChildPair] } := by
  obtain ⟨answer, proper⟩ := returns.eq
  simp only [Visit.parent, Visit.oldSlice, Visit.newSlice] at answer
  refine ⟨_, by rw [createWithGrandChildren, answer]; rfl, ?_⟩
  exact { Outcome.Renders.empty with
    downward := ⟨proper, by simp [Outcome.plan, Visit.destructive, Visit.job]⟩
    creates := ⟨by simp, rfl⟩ }

theorem collect_renders {A : Type} {body : A → Option (MutationLists D)} {outcome : A → Outcome D}
    (parentTag : Tag) (items : List A)
    (each : ∀ item ∈ items, ∃ lists, body item = some lists ∧
      Outcome.Renders recursion parentTag lists (outcome item)) :
    ∃ lists, MutationLists.collect body items = some lists ∧
      Outcome.Renders recursion parentTag lists
        (items.foldr (fun item later => outcome item ++ later) {}) := by
  induction items with
  | nil => exact ⟨{}, rfl, Outcome.Renders.empty⟩
  | cons item _ ih =>
    obtain ⟨here, bodyEq, renders⟩ := each item (by simp)
    obtain ⟨later, laterEq, laterRenders⟩ := ih fun other member => each other (by simp [member])
    refine ⟨here ++ later, ?_, renders.append laterRenders⟩
    simp [MutationLists.collect, bodyEq, laterEq]

end Pieces

/-! ### Outcomes that cover the siblings -/

/-- Every child of the two lists, whose positions count from `index`, is dealt
with once and in the right way. -/
structure Outcome.Covers (stray : List Tag) (index : Nat) (old new : List (ShadowViewNodePair D))
    (outcome : Outcome D) : Prop where
  removed_eq :
    outcome.removed = (old.zipIdx index).filter fun pair => !outcome.kept (pairTag pair.1)
  inserted_eq :
    outcome.inserted = (new.zipIdx index).filter fun pair => !outcome.kept (pairTag pair.1)
  kept_mem : ∀ tag, outcome.kept tag → tag ∈ old.map pairTag
  kept_eq : (old.map pairTag).filter outcome.kept = (new.map pairTag).filter outcome.kept
  updated_mem : ∀ pair ∈ outcome.updated,
    pair.1 ∈ old ∧ pair.2 ∈ new ∧ pairTag pair.1 = pairTag pair.2
  updated_kept : ∀ o ∈ old, ∀ n ∈ new, pairTag o = pairTag n → outcome.kept (pairTag n) →
    (o, n) ∈ outcome.updated
  matched_mem : ∀ parent o n, .matched parent o n ∈ outcome.visits →
    o ∈ old ∧ n ∈ new ∧ pairTag o = pairTag n ∧ parent.tag = pairTag n
  dropped_iff : ∀ o, .dropped o ∈ outcome.visits ↔ o ∈ old ∧ pairTag o ∉ new.map pairTag
  created_iff : ∀ n, .created n ∈ outcome.visits ↔
    n ∈ new ∧ (pairTag n ∉ old.map pairTag ∨ pairTag n ∈ stray)
  visited : ∀ o ∈ old, ∀ n ∈ new, pairTag o = pairTag n →
    o.shadowNode = n.shadowNode ∨ ∃ parent, .matched parent o n ∈ outcome.visits
  recursed_nodup :
    ((outcome.visits.filter fun visit => !visit.isCreated).map fun visit => visit.parent.tag).Nodup
  visits_nodup : stray = [] → (outcome.visits.map fun visit => visit.parent.tag).Nodup

theorem rootKeys_tree (pairs : List (ShadowViewNodePair D)) :
    rootKeys ShadowView.tag (pairs.map ShadowViewNodePair.tree) = pairs.map pairTag := by
  simp [rootKeys, ShadowViewNodePair.tree, pairTag]

theorem zipIdx_tree (kept : Tag → Bool) (pairs : List (ShadowViewNodePair D)) :
    ((pairs.map ShadowViewNodePair.tree).zipIdx.filter fun r => !kept r.1.label.tag) =
      (pairs.zipIdx.filter fun pair => !kept (pairTag pair.1)).map
        fun pair => (pair.1.tree, pair.2) := by
  rw [zipIdx_map, filter_map]
  rfl

variable {tree : KeyedTree.Tree (ShadowView D)} {pairs : List (ShadowViewNodePair D)}

theorem mem_tree :
    tree ∈ pairs.map ShadowViewNodePair.tree ↔ ∃ pair ∈ pairs, pair.tree = tree := mem_map

namespace Outcome

variable [DecidableEq D] {outcome : Outcome D} (recursion : Recursion D)

theorem mem_deletes {tree : KeyedTree.Tree (ShadowView D)} :
    tree ∈ (outcome.plan recursion).deletes ↔ ∃ o, .dropped o ∈ outcome.visits ∧ o.tree = tree := by
  simp only [Outcome.plan, mem_filterMap]
  constructor
  · rintro ⟨visit, member, equal⟩
    cases visit with
    | dropped o => exact ⟨o, member, Option.some.inj equal⟩
    | matched | created => cases equal
  · rintro ⟨o, member, rfl⟩
    exact ⟨_, member, rfl⟩

theorem mem_creates {tree : KeyedTree.Tree (ShadowView D)} :
    tree ∈ (outcome.plan recursion).creates ↔ ∃ n, .created n ∈ outcome.visits ∧ n.tree = tree := by
  simp only [Outcome.plan, mem_filterMap]
  constructor
  · rintro ⟨visit, member, equal⟩
    cases visit with
    | created n => exact ⟨n, member, Option.some.inj equal⟩
    | matched | dropped => cases equal
  · rintro ⟨n, member, rfl⟩
    exact ⟨_, member, rfl⟩

theorem mem_updates {view : ShadowView D} : view ∈ outcome.updates ↔ ∃ pair ∈ outcome.updated,
      pair.1.shadowView ≠ pair.2.shadowView ∧ pair.2.shadowView = view := by
  simp [Outcome.updates]

end Outcome

namespace Outcome.Covers

variable [DecidableEq D] {stray : List Tag} {old new : List (ShadowViewNodePair D)}
  {outcome : Outcome D} (recursion : Recursion D)

section

variable (covers : outcome.Covers stray 0 old new)
include covers

theorem destructive_mem :
    ∀ job ∈ (outcome.plan recursion).destructive, job.new = [] ∧
      ∃ o ∈ old.map ShadowViewNodePair.tree, job.root = o.label.tag ∧ job.old = o.children ∧
        Dies ShadowView.tag (new.map ShadowViewNodePair.tree) o := by
  intro job member
  simp only [Outcome.plan, mem_map, mem_filter] at member
  obtain ⟨visit, ⟨visitMem, ends⟩, rfl⟩ := member
  cases visit with
  | matched parent o n =>
    obtain ⟨oldMem, newMem, same, parentTag⟩ := covers.matched_mem parent o n visitMem
    have empty : viewForest n.shadowNode = [] := by
      rw [← slice_eq_nil_iff]
      simpa [Visit.destructive] using ends
    refine ⟨by simp [Visit.job, Visit.newSlice, empty], o.tree, mem_map_of_mem oldMem,
      parentTag.trans same.symm, by simp [Visit.job, Visit.oldSlice, ShadowViewNodePair.tree],
      .inr ⟨n.tree, mem_map_of_mem newMem, same.symm, empty⟩⟩
  | dropped o =>
    obtain ⟨oldMem, gone⟩ := (covers.dropped_iff o).mp visitMem
    refine ⟨by simp [Visit.job, Visit.newSlice], o.tree, mem_map_of_mem oldMem, rfl,
      by simp [Visit.job, Visit.oldSlice, ShadowViewNodePair.tree], .inl ?_⟩
    rw [rootKeys_tree]
    exact gone
  | created n => simp [Visit.destructive] at ends

theorem downward_mem :
    ∀ job ∈ (outcome.plan recursion).downward, ∃ n ∈ new.map ShadowViewNodePair.tree,
      job.root = n.label.tag ∧ job.new = n.children ∧
      ((∃ o ∈ old.map ShadowViewNodePair.tree, o.label.tag = n.label.tag ∧ job.old = o.children ∧
          n.children ≠ []) ∨ (n ∈ (outcome.plan recursion).creates ∧ job.old = [])) := by
  intro job member
  simp only [Outcome.plan, mem_map, mem_filter] at member
  obtain ⟨visit, ⟨visitMem, goesOn⟩, rfl⟩ := member
  cases visit with
  | matched parent o n =>
    obtain ⟨oldMem, newMem, same, parentTag⟩ := covers.matched_mem parent o n visitMem
    refine ⟨n.tree, mem_map_of_mem newMem, parentTag,
      by simp [Visit.job, Visit.newSlice, ShadowViewNodePair.tree],
      .inl ⟨o.tree, mem_map_of_mem oldMem, same,
        by simp [Visit.job, Visit.oldSlice, ShadowViewNodePair.tree], ?_⟩⟩
    intro empty
    have noSlice := (slice_eq_nil_iff n.shadowNode).mpr empty
    simp [Visit.destructive, noSlice] at goesOn
  | dropped o => simp [Visit.destructive] at goesOn
  | created n =>
    obtain ⟨newMem, -⟩ := (covers.created_iff n).mp visitMem
    exact ⟨n.tree, mem_map_of_mem newMem, rfl,
      by simp [Visit.job, Visit.newSlice, ShadowViewNodePair.tree],
      .inr ⟨(Outcome.mem_creates recursion).mpr ⟨n, visitMem, rfl⟩, rfl⟩⟩

theorem matched_job :
    ∀ o ∈ old.map ShadowViewNodePair.tree, ∀ n ∈ new.map ShadowViewNodePair.tree,
      o.label.tag = n.label.tag → o.children = n.children ∨
        (n.children = [] ∧ ∃ job ∈ (outcome.plan recursion).destructive, job.root = o.label.tag) ∨
        (n.children ≠ [] ∧ ∃ job ∈ (outcome.plan recursion).downward,
          job.root = n.label.tag ∧ job.old = o.children ∧ job.new = n.children) := by
  intro oldTree oldMem newTree newMem same
  obtain ⟨o, oMem, rfl⟩ := mem_tree.mp oldMem
  obtain ⟨n, nMem, rfl⟩ := mem_tree.mp newMem
  rcases covers.visited o oMem n nMem same with equal | ⟨parent, visitMem⟩
  · exact .inl (congrArg viewForest equal)
  · obtain ⟨-, -, -, parentTag⟩ := covers.matched_mem parent o n visitMem
    by_cases empty : viewForest n.shadowNode = []
    · have ends : (Visit.matched parent o n).destructive = true := by
        simp [Visit.destructive, (slice_eq_nil_iff n.shadowNode).mpr empty]
      exact .inr (.inl ⟨empty, _,
        mem_map_of_mem (mem_filter.mpr ⟨visitMem, ends⟩), parentTag.trans same.symm⟩)
    · have goesOn : (!(Visit.matched parent o n).destructive) = true := by
        simp [Visit.destructive, slice_eq_nil_iff, empty]
      exact .inr (.inr ⟨empty, _, mem_map_of_mem (mem_filter.mpr ⟨visitMem, goesOn⟩), parentTag,
        by simp [Visit.job, Visit.oldSlice, ShadowViewNodePair.tree],
        by simp [Visit.job, Visit.newSlice, ShadowViewNodePair.tree]⟩)

theorem fits :
    (outcome.plan recursion).Fits ShadowView.tag stray (old.map ShadowViewNodePair.tree)
      (new.map ShadowViewNodePair.tree) where
  -- Each clause of `Fits` is the clause of `Covers` about pairs, read of their trees.
  removes_eq := by
    rw [zipIdx_tree]
    exact congrArg (List.map _) covers.removed_eq
  inserts_eq := by
    rw [zipIdx_tree]
    exact congrArg (List.map _) covers.inserted_eq
  kept_eq := by
    rw [rootKeys_tree, rootKeys_tree]
    exact covers.kept_eq
  updates_mem := by
    intro view member
    obtain ⟨pair, pairMem, -, rfl⟩ := Outcome.mem_updates.mp member
    obtain ⟨oldMem, newMem, same⟩ := covers.updated_mem pair pairMem
    exact ⟨_, mem_map_of_mem oldMem, _, mem_map_of_mem newMem, same, rfl⟩
  updates_kept := by
    intro oldTree oldMem newTree newMem same kept
    obtain ⟨o, oMem, rfl⟩ := mem_tree.mp oldMem
    obtain ⟨n, nMem, rfl⟩ := mem_tree.mp newMem
    by_cases changed : o.shadowView = n.shadowView
    · exact .inl changed
    · exact .inr (Outcome.mem_updates.mpr
        ⟨(o, n), covers.updated_kept o oMem n nMem same kept, changed, rfl⟩)
  deletes_iff := by
    intro tree
    rw [Outcome.mem_deletes recursion, mem_tree, rootKeys_tree]
    constructor
    · rintro ⟨o, visitMem, rfl⟩
      obtain ⟨oldMem, gone⟩ := (covers.dropped_iff o).mp visitMem
      exact ⟨⟨o, oldMem, rfl⟩, gone⟩
    · rintro ⟨⟨o, oldMem, rfl⟩, gone⟩
      exact ⟨o, (covers.dropped_iff o).mpr ⟨oldMem, gone⟩, rfl⟩
  deletes_nodup := by
    refine List.Nodup.sublist ?_ covers.recursed_nodup
    simp only [Outcome.plan, rootKeys]
    induction outcome.visits with
    | nil => exact List.Sublist.refl _
    | cons visit rest ih =>
      cases visit with
      | matched => exact ih.cons _
      | dropped => exact ih.cons_cons _
      | created => exact ih
  creates_iff := by
    intro tree
    rw [Outcome.mem_creates recursion, mem_tree, rootKeys_tree]
    constructor
    · rintro ⟨n, visitMem, rfl⟩
      obtain ⟨newMem, fresh⟩ := (covers.created_iff n).mp visitMem
      exact ⟨⟨n, newMem, rfl⟩, fresh⟩
    · rintro ⟨⟨n, newMem, rfl⟩, fresh⟩
      exact ⟨n, (covers.created_iff n).mpr ⟨newMem, fresh⟩, rfl⟩
  creates_nodup := by
    intro none
    refine List.Nodup.sublist ?_ (covers.visits_nodup none)
    simp only [Outcome.plan, rootKeys]
    induction outcome.visits with
    | nil => exact List.Sublist.refl _
    | cons visit rest ih =>
      cases visit with
      | matched | dropped => exact ih.cons _
      | created => exact ih.cons_cons _
  destructive_mem := covers.destructive_mem recursion
  destructive_nodup := by
    refine List.Nodup.sublist ?_ covers.recursed_nodup
    have jobs : ((outcome.plan recursion).destructive.map Job.root) =
        (outcome.visits.filter Visit.destructive).map fun visit => visit.parent.tag := by
      simp [Outcome.plan, Visit.job, comp_def]
    rw [jobs]
    refine List.Sublist.map _ (monotone_filter_right _ fun visit ends => ?_)
    cases visit with
    | matched | dropped => rfl
    | created => simp [Visit.destructive] at ends
  deletes_job := by
    intro tree member
    obtain ⟨o, visitMem, rfl⟩ := (Outcome.mem_deletes recursion).mp member
    exact ⟨_, mem_map_of_mem (mem_filter.mpr ⟨visitMem, rfl⟩), rfl⟩
  downward_mem := covers.downward_mem recursion
  downward_nodup := by
    intro none
    refine List.Nodup.sublist ?_ (covers.visits_nodup none)
    have jobs : ((outcome.plan recursion).downward.map Job.root) =
        (outcome.visits.filter fun visit => !visit.destructive).map
          fun visit => visit.parent.tag := by
      simp [Outcome.plan, Visit.job, comp_def]
    rw [jobs]
    exact filter_sublist.map _
  creates_job := by
    intro tree member
    obtain ⟨n, visitMem, rfl⟩ := (Outcome.mem_creates recursion).mp member
    exact ⟨_, mem_map_of_mem (mem_filter.mpr ⟨visitMem, rfl⟩), rfl, rfl,
      by simp [Visit.job, Visit.newSlice, ShadowViewNodePair.tree]⟩
  matched_job := covers.matched_job recursion

end

end Outcome.Covers

/-! ### Composing outcomes -/

theorem filter_zipIdx_congr {kept kept' : Tag → Bool} (index : Nat)
    (agree : ∀ pair ∈ pairs, kept' (pairTag pair) = kept (pairTag pair)) :
    ((pairs.zipIdx index).filter fun pair => !kept' (pairTag pair.1)) =
      (pairs.zipIdx index).filter fun pair => !kept (pairTag pair.1) := by
  refine filter_congr fun pair member => ?_
  rw [agree pair.1 (fst_mem_of_mem_zipIdx member)]

variable {outcome : Outcome D} {stray : List Tag} {old new : List (ShadowViewNodePair D)}
  {visit : Visit D}

theorem Outcome.Covers.visit_tag {index : Nat} (covers : outcome.Covers stray index old new)
    (member : visit ∈ outcome.visits) :
    visit.parent.tag ∈ old.map pairTag ∨ visit.parent.tag ∈ new.map pairTag := by
  cases visit with
  | matched parent o n =>
    obtain ⟨-, newMem, -, parentTag⟩ := covers.matched_mem parent o n member
    exact .inr (mem_map.mpr ⟨n, newMem, parentTag.symm⟩)
  | dropped o => exact .inl (mem_map_of_mem ((covers.dropped_iff o).mp member).1)
  | created n => exact .inr (mem_map_of_mem ((covers.created_iff n).mp member).1)

theorem Outcome.Covers.append {front back : Outcome D} {index : Nat}
    {oldFront newFront oldBack newBack : List (ShadowViewNodePair D)}
    (first : front.Covers [] index oldFront newFront)
    (second : back.Covers stray (index + oldFront.length) oldBack newBack)
    (aligned : oldFront.map pairTag = newFront.map pairTag)
    (distinctOld : ((oldFront ++ oldBack).map pairTag).Nodup)
    (distinctNew : ((newFront ++ newBack).map pairTag).Nodup)
    (inner : ∀ tag ∈ stray, tag ∈ oldBack.map pairTag) :
    (front ++ back).Covers stray index (oldFront ++ oldBack) (newFront ++ newBack) := by
  rw [map_append, nodup_append] at distinctOld distinctNew
  have apartOld : ∀ tag, tag ∈ oldFront.map pairTag → tag ∉ oldBack.map pairTag :=
    fun tag inFront inBack => distinctOld.2.2 tag inFront tag inBack rfl
  have apartNew : ∀ tag, tag ∈ oldFront.map pairTag → tag ∉ newBack.map pairTag :=
    fun tag inFront inBack => distinctNew.2.2 tag (aligned ▸ inFront) tag inBack rfl
  have length : oldFront.length = newFront.length := by simpa using congrArg List.length aligned
  -- A tag is kept by the part it belongs to.
  have keptFront : ∀ tag ∈ oldFront.map pairTag, (front ++ back).kept tag = front.kept tag := by
    intro tag inFront
    cases other : back.kept tag with
    | false => simp [other]
    | true => exact absurd (second.kept_mem tag other) (apartOld tag inFront)
  have keptBack : ∀ tag, (tag ∈ oldBack.map pairTag ∨ tag ∈ newBack.map pairTag) →
      (front ++ back).kept tag = back.kept tag := by
    intro tag inBack
    cases other : front.kept tag with
    | false => simp [other]
    | true =>
      rcases inBack with inOld | inNew
      · exact absurd inOld (apartOld tag (first.kept_mem tag other))
      · exact absurd inNew (apartNew tag (first.kept_mem tag other))
  have visitsApart : ∀ a ∈ front.visits, ∀ b ∈ back.visits, a.parent.tag ≠ b.parent.tag := by
    intro a memA b memB same
    have inFront : a.parent.tag ∈ oldFront.map pairTag := by
      rcases first.visit_tag memA with inOld | inNew
      · exact inOld
      · exact aligned ▸ inNew
    rcases second.visit_tag memB with inOld | inNew
    · exact apartOld _ inFront (same ▸ inOld)
    · exact apartNew _ inFront (same ▸ inNew)
  have samePart {o n} (oldMem : o ∈ oldFront ++ oldBack) (newMem : n ∈ newFront ++ newBack)
      (same : pairTag o = pairTag n) : o ∈ oldFront ∧ n ∈ newFront ∨ o ∈ oldBack ∧ n ∈ newBack := by
    rcases mem_append.mp oldMem with oFront | oBack
    · rcases mem_append.mp newMem with nFront | nBack
      · exact .inl ⟨oFront, nFront⟩
      · exact absurd (same ▸ mem_map_of_mem nBack) (apartNew _ (mem_map_of_mem oFront))
    · rcases mem_append.mp newMem with nFront | nBack
      · have inFront := mem_map_of_mem (f := pairTag) nFront
        rw [← aligned, ← same] at inFront
        exact absurd (mem_map_of_mem oBack) (apartOld _ inFront)
      · exact .inr ⟨oBack, nBack⟩
  refine ⟨?_, ?_, ?_, ?_, ?_, ?_, ?_, ?_, ?_, ?_, ?_, ?_⟩
  · rw [zipIdx_append, filter_append, append_removed, first.removed_eq, second.removed_eq,
      filter_zipIdx_congr index fun pair member =>
        keptFront _ (mem_map_of_mem member),
      filter_zipIdx_congr (index + oldFront.length) fun pair member =>
        keptBack _ (.inl (mem_map_of_mem member))]
  · rw [zipIdx_append, filter_append, append_inserted, first.inserted_eq,
      second.inserted_eq, length,
      filter_zipIdx_congr index fun pair member =>
        keptFront _ (aligned ▸ mem_map_of_mem member),
      filter_zipIdx_congr (index + newFront.length) fun pair member =>
        keptBack _ (.inr (mem_map_of_mem member))]
  · intro tag kept
    rw [append_kept, Bool.or_eq_true] at kept
    rw [map_append, mem_append]
    exact kept.imp (first.kept_mem tag) (second.kept_mem tag)
  · rw [map_append, map_append, filter_append, filter_append, ← aligned,
      filter_congr fun tag member => keptBack tag (.inl member),
      filter_congr (l := newBack.map pairTag) fun tag member => keptBack tag (.inr member),
      second.kept_eq]
  · intro pair member
    rcases mem_append.mp member with here | later
    · obtain ⟨oldMem, newMem, same⟩ := first.updated_mem pair here
      exact ⟨mem_append_left _ oldMem, mem_append_left _ newMem, same⟩
    · obtain ⟨oldMem, newMem, same⟩ := second.updated_mem pair later
      exact ⟨mem_append_right _ oldMem, mem_append_right _ newMem, same⟩
  · intro o oldMem n newMem same kept
    rw [append_updated, mem_append]
    rcases samePart oldMem newMem same with ⟨oFront, nFront⟩ | ⟨oBack, nBack⟩
    · rw [keptFront _ (same ▸ mem_map_of_mem oFront)] at kept
      exact .inl (first.updated_kept o oFront n nFront same kept)
    · rw [keptBack _ (.inl (same ▸ mem_map_of_mem oBack))] at kept
      exact .inr (second.updated_kept o oBack n nBack same kept)
  · intro parent o n member
    rw [append_visits] at member
    rcases mem_append.mp member with here | later
    · obtain ⟨oldMem, newMem, tags⟩ := first.matched_mem parent o n here
      exact ⟨mem_append_left _ oldMem, mem_append_left _ newMem, tags⟩
    · obtain ⟨oldMem, newMem, tags⟩ := second.matched_mem parent o n later
      exact ⟨mem_append_right _ oldMem, mem_append_right _ newMem, tags⟩
  · intro o
    rw [append_visits, mem_append, first.dropped_iff, second.dropped_iff, mem_append,
      map_append, mem_append, ← aligned]
    constructor
    · rintro (⟨oldMem, gone⟩ | ⟨oldMem, gone⟩)
      · exact absurd (mem_map_of_mem oldMem) gone
      · exact ⟨.inr oldMem, not_or.mpr
          ⟨fun inFront => apartOld _ inFront (mem_map_of_mem oldMem), gone⟩⟩
    · rintro ⟨oFront | oBack, gone⟩
      · exact absurd (.inl (mem_map_of_mem oFront)) gone
      · exact .inr ⟨oBack, fun inBack => gone (.inr inBack)⟩
  · intro n
    rw [append_visits, mem_append, first.created_iff, second.created_iff, mem_append,
      map_append, mem_append]
    constructor
    · rintro (⟨newMem, fresh | strayed⟩ | ⟨newMem, fresh⟩)
      · exact absurd (aligned ▸ mem_map_of_mem newMem) fresh
      · simp at strayed
      · exact ⟨.inr newMem, fresh.imp_left fun notBack inOld => inOld.elim
          (fun inFront => apartNew _ inFront (mem_map_of_mem newMem)) notBack⟩
    · rintro ⟨nFront | nBack, fresh⟩
      · have inFront := mem_map_of_mem (f := pairTag) nFront
        rw [← aligned] at inFront
        rcases fresh with notOld | strayed
        · exact absurd (.inl inFront) notOld
        · exact absurd (inner _ strayed) (apartOld _ inFront)
      · exact .inr ⟨nBack, fresh.imp_left fun notOld inBack => notOld (.inr inBack)⟩
  · intro o oldMem n newMem same
    rw [append_visits]
    simp only [mem_append]
    rcases samePart oldMem newMem same with ⟨oFront, nFront⟩ | ⟨oBack, nBack⟩
    · exact (first.visited o oFront n nFront same).imp_right
        fun found => found.imp fun _ member => .inl member
    · exact (second.visited o oBack n nBack same).imp_right
        fun found => found.imp fun _ member => .inr member
  · rw [append_visits, filter_append, map_append, nodup_append]
    refine ⟨first.recursed_nodup, second.recursed_nodup, ?_⟩
    intro tag inFront other inBack
    obtain ⟨a, memA, rfl⟩ := mem_map.mp inFront
    obtain ⟨b, memB, rfl⟩ := mem_map.mp inBack
    exact visitsApart a (mem_filter.mp memA).1 b (mem_filter.mp memB).1
  · intro none
    rw [append_visits, map_append, nodup_append]
    refine ⟨first.visits_nodup rfl, second.visits_nodup none, ?_⟩
    intro tag inFront other inBack
    obtain ⟨a, memA, rfl⟩ := mem_map.mp inFront
    obtain ⟨b, memB, rfl⟩ := mem_map.mp inBack
    exact visitsApart a memA b memB

/-! ### The first stage -/

def stageOneOutcome : List (ShadowViewNodePair D) → List (ShadowViewNodePair D) → Outcome D
  | oldChildPair :: oldRest, newChildPair :: newRest =>
    if pairTag oldChildPair ≠ pairTag newChildPair then {}
    else ({ kept := fun tag => tag = pairTag newChildPair
            visits := [.matched oldChildPair.shadowView oldChildPair newChildPair]
            updated := [(oldChildPair, newChildPair)] } : Outcome D) ++
      stageOneOutcome oldRest newRest
  | _, _ => {}

theorem covers_nil (index : Nat) : ({} : Outcome D).Covers [] index [] [] := by
  constructor <;> simp

theorem covers_matched (index : Nat) {o n : ShadowViewNodePair D} (same : pairTag o = pairTag n) :
    ({ kept := fun tag => tag = pairTag n
       visits := [.matched o.shadowView o n]
       updated := [(o, n)] } : Outcome D).Covers [] index [o] [n] := by
  refine ⟨by simp [same], by simp, by simp [same], by simp [same], by simp [same], ?_, ?_, by simp [same],
    by simp [same], ?_, by simp [Visit.isCreated], by simp⟩
  · simp
  · rintro parent o' n' member
    simp only [mem_singleton, Visit.matched.injEq] at member
    obtain ⟨rfl, rfl, rfl⟩ := member
    exact ⟨by simp, by simp, same, same⟩
  · intro o' oldMem n' newMem _
    rw [mem_singleton] at oldMem newMem
    exact .inr ⟨o.shadowView, by simp [oldMem, newMem]⟩

theorem stageOne_covers (index : Nat) : ∀ (old new : List (ShadowViewNodePair D)),
    (old.map pairTag).Nodup → (new.map pairTag).Nodup →
    (stageOneOutcome old new).Covers [] index
        (old.take (lastIndexAfterFirstStage pairTag old new))
        (new.take (lastIndexAfterFirstStage pairTag old new)) ∧
      (old.take (lastIndexAfterFirstStage pairTag old new)).map pairTag =
        (new.take (lastIndexAfterFirstStage pairTag old new)).map pairTag
  | [], _, _, _ => by simpa [stageOneOutcome, lastIndexAfterFirstStage] using covers_nil index
  | _ :: _, [], _, _ => by simpa [stageOneOutcome, lastIndexAfterFirstStage] using covers_nil index
  | o :: oldRest, n :: newRest, distinctOld, distinctNew => by
    by_cases same : pairTag o = pairTag n
    · simp only [stageOneOutcome, lastIndexAfterFirstStage, ne_eq, same, not_true_eq_false,
        if_false, take_succ_cons, map_cons]
      obtain ⟨covers, aligned⟩ := stageOne_covers (index + 1) oldRest newRest
        (nodup_cons.mp distinctOld).2 (nodup_cons.mp distinctNew).2
      refine ⟨(covers_matched index same).append covers (by simp [same]) ?_ ?_ (by simp),
        by rw [aligned]⟩
      · exact distinctOld.sublist (((take_sublist _ _).cons_cons o).map pairTag)
      · exact distinctNew.sublist (((take_sublist _ _).cons_cons n).map pairTag)
    · simpa [stageOneOutcome, lastIndexAfterFirstStage, same] using covers_nil index

variable {recursion : Recursion D}

theorem collectUpdates_renders [DecidableEq D]
    (parentShadowView : ShadowView D) : ∀ (index : Nat) (old new : List (ShadowViewNodePair D)),
    (∀ visit ∈ (stageOneOutcome old new).visits, visit.Returns recursion) →
    ∃ lists, collectUpdates recursion parentShadowView index old new = some lists ∧
      Outcome.Renders recursion parentShadowView.tag lists (stageOneOutcome old new)
  | _, [], _, _ => ⟨{}, by simp [collectUpdates], Outcome.Renders.empty⟩
  | _, _ :: _, [], _ => ⟨{}, by simp [collectUpdates], Outcome.Renders.empty⟩
  | index, o :: oldRest, n :: newRest, returns => by
    by_cases same : pairTag o = pairTag n
    · simp only [stageOneOutcome, ne_eq, same, not_true_eq_false, if_false] at returns ⊢
      obtain ⟨_, belowEq, belowRenders⟩ := updateGrandChildren_renders o.shadowView
        parentShadowView.tag (returns (.matched o.shadowView o n) (by simp))
      obtain ⟨_, laterEq, laterRenders⟩ := collectUpdates_renders parentShadowView (index + 1)
        oldRest newRest fun visit member => returns visit (by simp [member])
      have here := (updateIfChanged_renders parentShadowView o n index same).append belowRenders
      have tags : o.shadowView.tag = n.shadowView.tag := same
      refine ⟨_, by simp [collectUpdates, tags, belowEq, laterEq],
        (here.append laterRenders).congr ?_ ?_ ?_ ?_⟩ <;> simp
    · have tags : o.shadowView.tag ≠ n.shadowView.tag := same
      refine ⟨{}, by simp [collectUpdates, tags], ?_⟩
      simpa [stageOneOutcome, same] using Outcome.Renders.empty

theorem lastIndex_le {P : Type} (tag : P → Tag) : ∀ old new : List P,
    lastIndexAfterFirstStage tag old new ≤ old.length ∧
      lastIndexAfterFirstStage tag old new ≤ new.length
  | [], _ => by simp [lastIndexAfterFirstStage]
  | _ :: _, [] => by simp [lastIndexAfterFirstStage]
  | o :: oldRest, n :: newRest => by
    simp only [lastIndexAfterFirstStage]
    split
    · exact ⟨Nat.zero_le _, Nat.zero_le _⟩
    · obtain ⟨inOld, inNew⟩ := lastIndex_le tag oldRest newRest
      exact ⟨Nat.succ_le_succ inOld, Nat.succ_le_succ inNew⟩

theorem covers_level {rest : Outcome D}
    (distinctOld : (old.map pairTag).Nodup) (distinctNew : (new.map pairTag).Nodup)
    (covers : rest.Covers stray (lastIndexAfterFirstStage pairTag old new)
      (old.drop (lastIndexAfterFirstStage pairTag old new))
      (new.drop (lastIndexAfterFirstStage pairTag old new)))
    (inner : ∀ tag ∈ stray,
      tag ∈ (old.drop (lastIndexAfterFirstStage pairTag old new)).map pairTag) :
    (stageOneOutcome old new ++ rest).Covers stray 0 old new := by
  obtain ⟨front, aligned⟩ := stageOne_covers 0 old new distinctOld distinctNew
  have bound := (lastIndex_le pairTag old new).1
  have length : (old.take (lastIndexAfterFirstStage pairTag old new)).length =
      lastIndexAfterFirstStage pairTag old new := by
    rw [length_take, Nat.min_eq_left bound]
  have whole := front.append (by rw [length, Nat.zero_add]; exact covers) aligned
    (by rw [take_append_drop]; exact distinctOld)
    (by rw [take_append_drop]; exact distinctNew) inner
  rw [take_append_drop, take_append_drop] at whole
  exact whole

/-! ### Recursion -/

/-- Tags below a view are distinct, differ from its own, and are valid map keys. -/
structure ValidForest (root : Tag) (forest : List (KeyedTree.Tree (ShadowView D))) : Prop where
  distinct : Distinct ShadowView.tag root forest
  nonzero : 0 ∉ keys ShadowView.tag forest

variable {root : Tag} {forest : List (KeyedTree.Tree (ShadowView D))}

theorem ValidForest.children (valid : ValidForest root forest) (member : tree ∈ forest) :
    ValidForest tree.label.tag tree.children :=
  ⟨valid.distinct.children member, fun zero => valid.nonzero (below_mem_keys member zero)⟩

theorem validForest_nil (root : Tag) : ValidForest root ([] : List (KeyedTree.Tree (ShadowView D))) :=
  ⟨distinct_nil root, by simp⟩

theorem ValidForest.siblings (valid : ValidForest root (pairs.map ShadowViewNodePair.tree)) :
    (pairs.map pairTag).Nodup ∧ 0 ∉ pairs.map pairTag := by
  have roots := rootKeys_tree pairs
  constructor
  · rw [← roots]
    exact valid.distinct.rootKeys_nodup
  · rw [← roots]
    exact fun zero => valid.nonzero (rootKeys_subset zero)

structure Diffable (fuel : Nat) (root : Tag) (old new : List (KeyedTree.Tree (ShadowView D))) : Prop where
  validOld : ValidForest root old
  validNew : ValidForest root new
  heightOld : forestHeight old < fuel
  heightNew : forestHeight new < fuel

theorem forestHeight_children {fuel : Nat} (enough : forestHeight forest < fuel + 1)
    (member : tree ∈ forest) : forestHeight tree.children < fuel ∧ 0 < fuel := by
  have height := height_le_forestHeight member
  rw [height_eq] at height
  omega

theorem Outcome.Covers.visit_diffable {fuel : Nat}

    (covers : outcome.Covers stray 0 old new)
    (diffable : Diffable (fuel + 1) root (old.map ShadowViewNodePair.tree)
      (new.map ShadowViewNodePair.tree)) (member : visit ∈ outcome.visits) :
    Diffable fuel visit.parent.tag (sliceForest visit.oldSlice) (sliceForest visit.newSlice) := by
  have oldChild : ∀ o ∈ old, ValidForest (pairTag o) (viewForest o.shadowNode) ∧
      forestHeight (viewForest o.shadowNode) < fuel ∧ 0 < fuel := fun o oldMem =>
    ⟨diffable.validOld.children (mem_map_of_mem oldMem),
      forestHeight_children diffable.heightOld (mem_map_of_mem oldMem)⟩
  have newChild : ∀ n ∈ new, ValidForest (pairTag n) (viewForest n.shadowNode) ∧
      forestHeight (viewForest n.shadowNode) < fuel ∧ 0 < fuel := fun n newMem =>
    ⟨diffable.validNew.children (mem_map_of_mem newMem),
      forestHeight_children diffable.heightNew (mem_map_of_mem newMem)⟩
  cases visit with
  | matched parent o n =>
    obtain ⟨oldMem, newMem, same, parentTag⟩ := covers.matched_mem parent o n member
    simp only [Visit.parent, Visit.oldSlice, Visit.newSlice, sliceForest_slice, parentTag]
    exact ⟨same ▸ (oldChild o oldMem).1, (newChild n newMem).1, (oldChild o oldMem).2.1,
      (newChild n newMem).2.1⟩
  | dropped o =>
    obtain ⟨oldMem, -⟩ := (covers.dropped_iff o).mp member
    simp only [Visit.parent, Visit.oldSlice, Visit.newSlice, sliceForest_slice, sliceForest_nil]
    exact ⟨(oldChild o oldMem).1, validForest_nil _, (oldChild o oldMem).2.1, (oldChild o oldMem).2.2⟩
  | created n =>
    obtain ⟨newMem, -⟩ := (covers.created_iff n).mp member
    simp only [Visit.parent, Visit.oldSlice, Visit.newSlice, sliceForest_slice, sliceForest_nil]
    exact ⟨validForest_nil _, (newChild n newMem).1, (newChild n newMem).2.2, (newChild n newMem).2.1⟩

/-- The recursive call returns a list that diffs the two slices. -/
def Answers (stray : List Tag → List Tag → List Tag) (recursion : Recursion D)
    (parentShadowView : ShadowView D) (oldPairs newPairs : List (ShadowViewNodePair D)) : Prop :=
  ∃ mutations, recursion parentShadowView oldPairs newPairs = some mutations ∧
    (∀ mutation ∈ mutations, Proper mutation) ∧
    Diff ShadowView.tag stray parentShadowView.tag (sliceForest oldPairs) (sliceForest newPairs)
      (mutations.map editOf)

theorem Answers.returns {stray : List Tag → List Tag → List Tag}
    (answers : Answers stray recursion visit.parent visit.oldSlice visit.newSlice) :
    visit.Returns recursion := by
  obtain ⟨mutations, answer, proper, -⟩ := answers
  exact ⟨mutations, answer, proper⟩

theorem level_diff [DecidableEq D] {stray : List Tag → List Tag → List Tag}

    (parentTag : Tag)
    (covers : outcome.Covers (stray (old.map pairTag) (new.map pairTag)) 0 old new)
    (answers : ∀ visit ∈ outcome.visits,
      Answers stray recursion visit.parent visit.oldSlice visit.newSlice) :
    Diff ShadowView.tag stray parentTag (old.map ShadowViewNodePair.tree)
      (new.map ShadowViewNodePair.tree) ((outcome.plan recursion).edits ShadowView.tag parentTag) := by
  refine .level (outcome.plan recursion) ?_ ?_
  · rw [rootKeys_tree, rootKeys_tree]
    exact covers.fits recursion
  · have jobs : ∀ visit ∈ outcome.visits, Diff ShadowView.tag stray (visit.job recursion).root
        (visit.job recursion).old (visit.job recursion).new (visit.job recursion).edits := by
      intro visit member
      obtain ⟨mutations, answer, -, diff⟩ := answers visit member
      simpa [Visit.job, Visit.mutations, answer] using diff
    intro job member
    simp only [Outcome.plan, mem_append, mem_map, mem_filter] at member
    rcases member with ⟨visit, ⟨visitMem, -⟩, rfl⟩ | ⟨visit, ⟨visitMem, -⟩, rfl⟩
    · exact jobs visit visitMem
    · exact jobs visit visitMem

section Entries

variable {P : Type} (tag : P → Tag) (pairs : List P)

def entries : List (Tag × P) := pairs.map fun pair => (tag pair, pair)

@[simp] theorem entries_keys : (entries tag pairs).map Prod.fst = pairs.map tag := by
  simp [entries]

theorem mem_entries {pairs : List P} {key : Tag} {value : P} :
    (key, value) ∈ entries tag pairs ↔ value ∈ pairs ∧ tag value = key := by
  simp only [entries, mem_map, Prod.mk.injEq]
  constructor
  · rintro ⟨_, member, rfl, rfl⟩
    exact ⟨member, rfl⟩
  · rintro ⟨member, rfl⟩
    exact ⟨value, member, rfl, rfl⟩

theorem entries_filter (keep : Tag → Bool) :
    (entries tag pairs).filter (fun entry => keep entry.1) =
      entries tag (pairs.filter fun pair => keep (tag pair)) := by
  simp [entries, filter_map, comp_def]

theorem insertAll_spec (map : TinyMap P) (wf : map.WellFormed)
    (valid : 0 ∉ pairs.map tag) (distinct : (map.keys ++ pairs.map tag).Nodup) :
    ∃ filled, insertAll tag pairs map = some filled ∧ filled.WellFormed ∧
      filled.live = map.live ++ entries tag pairs := by
  induction pairs generalizing map with
  | nil => exact ⟨map, rfl, wf, by simp [entries]⟩
  | cons pair _ ih =>
    simp only [map_cons, mem_cons, not_or] at valid
    have apart : tag pair ∉ map.keys := by
      intro member
      exact (nodup_append.mp distinct).2.2 _ member _ (by simp) rfl
    obtain ⟨inserted, insertEq, insertedWf, live, -⟩ := wf.insert_spec pair (Ne.symm valid.1) apart
    have keys : inserted.keys = map.keys ++ [tag pair] := by simp [TinyMap.keys, live]
    obtain ⟨filled, filledEq, filledWf, filledLive⟩ := ih inserted insertedWf valid.2
      (by rw [keys]; simpa using distinct)
    refine ⟨filled, ?_, filledWf, ?_⟩
    · simp [insertAll, insertEq, filledEq]
    · rw [filledLive, live]
      simp [entries]

end Entries

theorem find_unique {fresh : List (ShadowViewNodePair D)} (distinct : (fresh.map pairTag).Nodup)
    {n : ShadowViewNodePair D} {tag : Tag} (member : n ∈ fresh) (same : pairTag n = tag) :
    fresh.find? (fun pair => pairTag pair = tag) = some n := by
  cases search : fresh.find? fun pair => pairTag pair = tag with
  | none =>
    have miss := find?_eq_none.mp search n member
    simp [same] at miss
  | some other =>
    have hit : pairTag other = tag := by simpa using find?_some search
    have equal := inj_on_of_nodup_map distinct (mem_of_find?_eq_some search) member
      (hit.trans same.symm)
    rw [equal]

end ReactNative

