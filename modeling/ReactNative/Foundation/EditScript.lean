import ReactNative.Foundation.KeyedTree
import Mathlib.Data.List.Induction
import Mathlib.Data.List.InsertIdx

/-! A table stores under each key a label and the ordered keys of its children. Five edits change
it, each with the precondition a strict interpreter would assert. -/
namespace KeyedTree

open Function List Option

structure Entry (α κ : Type) where
  label : α
  kids : List κ

abbrev Table (α κ : Type) := κ → Option (Entry α κ)

inductive Edit (α κ : Type) where
  | create (child : κ)
  | delete (child : κ)
  | insert (parent : κ) (label : α) (index : Nat)
  | remove (parent child : κ) (index : Nat)
  | update (label : α)

variable {α κ : Type} [DecidableEq κ] (key : α → κ) (blank : α)

/-- One edit, undefined where its precondition fails. A new entry carries the
blank label until an insertion or an update writes it. -/
def Edit.apply (table : Table α κ) : Edit α κ → Option (Table α κ)
  | .create child =>
    match table child with
    | none => some (Function.update table child (some ⟨blank, []⟩))
    | some _ => none
  | .delete child =>
    match table child with
    | none => none
    | some _ => some (Function.update table child none)
  | .insert parent label index =>
    match table parent, table (key label) with
    | some _, some child =>
      let table := Function.update table (key label) (some ⟨label, child.kids⟩)
      match table parent with
      | none => none
      | some entry =>
        if index ≤ entry.kids.length then
          some (Function.update table parent
            (some ⟨entry.label, entry.kids.insertIdx index (key label)⟩))
        else none
    | _, _ => none
  | .remove parent child index =>
    match table parent, table child with
    | some entry, some removed =>
      if entry.kids[index]? = some (key removed.label) then
        some (Function.update table parent (some ⟨entry.label, entry.kids.eraseIdx index⟩))
      else none
    | _, _ => none
  | .update label =>
    match table (key label) with
    | none => none
    | some entry => some (Function.update table (key label) (some ⟨label, entry.kids⟩))

def run : List (Edit α κ) → Table α κ → Option (Table α κ)
  | [], table => some table
  | edit :: rest, table => (edit.apply key blank table).bind (run rest)

theorem run_append (first second : List (Edit α κ)) (table : Table α κ) :
    run key blank (first ++ second) table =
      (run key blank first table).bind (run key blank second) := by
  induction first generalizing table with
  | nil => rfl
  | cons edit _ ih =>
    simp only [cons_append, run]
    cases edit.apply key blank table with
    | none => rfl
    | some next => exact ih next

variable {key blank}

theorem run_trans {first second : List (Edit α κ)} {table middle result : Table α κ}
    (start : run key blank first table = some middle)
    (finish : run key blank second middle = some result) :
    run key blank (first ++ second) table = some result := by
  rw [run_append, start, bind_some, finish]

/-! ### Runs of one kind of edit -/

variable (key blank)

theorem run_updates (labels : List α) (table : Table α κ)
    (present : ∀ label ∈ labels, ∃ entry, table (key label) = some entry)
    (coherent : ∀ a ∈ labels, ∀ b ∈ labels, key a = key b → a = b) :
    ∃ result, run key blank (labels.map .update) table = some result ∧
      (∀ k, k ∉ labels.map key → result k = table k) ∧
      ∀ label ∈ labels, ∀ entry, table (key label) = some entry →
        result (key label) = some ⟨label, entry.kids⟩ := by
  -- Induction over the labels; a label that comes again writes the same once more.
  induction labels generalizing table with
  | nil => exact ⟨table, rfl, fun _ _ => rfl, by simp⟩
  | cons first rest ih =>
    obtain ⟨entry, found⟩ := present first (by simp)
    obtain ⟨result, ran, frame, written⟩ :=
      ih (Function.update table (key first) (some ⟨first, entry.kids⟩))
        (fun label member => by
          by_cases same : key label = key first
          · exact ⟨_, by rw [same, update_self]⟩
          · rw [update_of_ne same]
            exact present label (by simp [member]))
        (fun a ha b hb => coherent a (by simp [ha]) b (by simp [hb]))
    refine ⟨result, ?_, ?_, ?_⟩
    · simp only [map_cons, run, Edit.apply, found, bind_some]
      exact ran
    · intro k outside
      simp only [map_cons, mem_cons, not_or] at outside
      rw [frame k outside.2, update_of_ne outside.1]
    · intro label member old holds
      by_cases later : label ∈ rest
      · by_cases same : key label = key first
        · have equal := coherent label member first (by simp) same
          subst equal
          rw [found] at holds
          cases holds
          exact written label later ⟨label, entry.kids⟩ (by rw [update_self])
        · exact written label later old (by rw [update_of_ne same]; exact holds)
      · have equal : label = first := by simpa [later] using member
        subst equal
        have absent : key label ∉ rest.map key := by
          intro inside
          obtain ⟨other, otherMem, same⟩ := mem_map.mp inside
          have equal := coherent other (by simp [otherMem]) label (by simp) same
          exact later (equal ▸ otherMem)
        rw [found] at holds
        cases holds
        rw [frame _ absent, update_self]

/-- Edits of distinct keys that each write one entry write them all. -/
theorem run_writes (edit : κ → Edit α κ) (written : Option (Entry α κ)) (children : List κ)
    (table : Table α κ) (distinct : children.Nodup)
    (writes : ∀ child ∈ children, ∀ other : Table α κ, other child = table child →
      (edit child).apply key blank other = some (Function.update other child written)) :
    ∃ result, run key blank (children.map edit) table = some result ∧
      (∀ k, k ∉ children → result k = table k) ∧ ∀ child ∈ children, result child = written := by
  induction children generalizing table with
  | nil => exact ⟨table, rfl, fun _ _ => rfl, by simp⟩
  | cons first _ ih =>
    have apart := nodup_cons.mp distinct
    obtain ⟨result, ran, frame, all⟩ := ih (Function.update table first written) apart.2
      (fun child member other same => by
        rw [update_of_ne (ne_of_mem_of_not_mem member apart.1)] at same
        exact writes child (by simp [member]) other same)
    refine ⟨result, ?_, ?_, ?_⟩
    · simp only [map_cons, run, writes first (by simp) table rfl, bind_some]
      exact ran
    · intro k outside
      simp only [mem_cons, not_or] at outside
      rw [frame k outside.2, update_of_ne outside.1]
    · intro child member
      rcases mem_cons.mp member with rfl | later
      · rw [frame _ apart.1, update_self]
      · exact all child later

theorem run_deletes (children : List κ) (table : Table α κ) (distinct : children.Nodup)
    (present : ∀ child ∈ children, ∃ entry, table child = some entry) :
    ∃ result, run key blank (children.map .delete) table = some result ∧
      (∀ k, k ∉ children → result k = table k) ∧ ∀ child ∈ children, result child = none := by
  refine run_writes key blank .delete none children table distinct fun child member other same => ?_
  obtain ⟨entry, found⟩ := present child member
  simp [Edit.apply, same, found]

theorem run_creates (children : List κ) (table : Table α κ) (distinct : children.Nodup)
    (absent : ∀ child ∈ children, table child = none) :
    ∃ result, run key blank (children.map .create) table = some result ∧
      (∀ k, k ∉ children → result k = table k) ∧
      ∀ child ∈ children, result child = some ⟨blank, []⟩ := by
  refine run_writes key blank .create _ children table distinct fun child member other same => ?_
  simp [Edit.apply, same, absent child member]

theorem run_removes (root : κ) (label : α) (kept : κ → Bool) (forest : List (Tree α))
    (after : List κ) (table : Table α κ)
    (parent : table root = some ⟨label, rootKeys key forest ++ after⟩)
    (children : ∀ tree ∈ forest, key tree.label ≠ root ∧
      ∃ entry, table (key tree.label) = some entry ∧ key entry.label = key tree.label) :
    run key blank (((forest.zipIdx.filter fun r => !kept (key r.1.label)).reverse).map
        fun r => .remove root (key r.1.label) r.2) table =
      some (Function.update table root
        (some ⟨label, (rootKeys key forest).filter kept ++ after⟩)) := by
  -- From the last tree on: a removal at the end leaves the indices before it as they are.
  induction forest using reverseRecOn generalizing after table with
  | nil =>
    simp only [rootKeys, map_nil, nil_append] at parent
    simp [run, rootKeys, ← parent]
  | append_singleton front last ih =>
    have frontChildren : ∀ tree ∈ front, key tree.label ≠ root ∧
        ∃ entry, table (key tree.label) = some entry ∧ key entry.label = key tree.label :=
      fun tree member => children tree (by simp [member])
    simp only [rootKeys, map_append, map_cons, map_nil, append_assoc, singleton_append] at parent
    cases keep : kept (key last.label) with
    | true =>
      have rest := ih (key last.label :: after) table parent frontChildren
      simpa [zipIdx_append, filter_append, keep, rootKeys] using rest
    -- The last tree is removed at its own index, and the front ones follow.
    | false =>
      obtain ⟨-, entry, found, same⟩ := children last (by simp)
      have erased : (front.map (fun tree => key tree.label) ++ key last.label :: after).eraseIdx
          front.length = front.map (fun tree => key tree.label) ++ after := by
        rw [eraseIdx_append_of_length_le (by simp)]
        simp
      have rest := ih after
        (Function.update table root (some ⟨label, rootKeys key front ++ after⟩))
        (by rw [update_self])
        (fun tree member => by
          obtain ⟨apart, facts⟩ := frontChildren tree member
          exact ⟨apart, by rw [update_of_ne apart]; exact facts⟩)
      simp only [zipIdx_append, filter_append, zipIdx_cons, zipIdx_nil, reverse_append, map_append]
      rw [run_append]
      simp only [Nat.zero_add, filter_cons, keep, Bool.not_false, if_true, filter_nil,
        reverse_cons, reverse_nil, nil_append, map_cons, map_nil, run,
        Edit.apply, parent, found]
      rw [if_pos (by simp [same]), erased]
      simpa [rootKeys, filter_append, keep] using rest

omit [DecidableEq κ] in
theorem insertIdx_between (front back : List κ) (k : κ) :
    (front ++ back).insertIdx front.length k = front ++ k :: back := by
  induction front with
  | nil => rfl
  | cons first rest ih => simpa [insertIdx_succ_cons] using ih

theorem run_inserts (root : κ) (label : α) (kept : κ → Bool) (forest : List (Tree α))
    (placed : List κ) (table : Table α κ)
    (parent : table root = some ⟨label, placed ++ (rootKeys key forest).filter kept⟩)
    (apart : root ∉ rootKeys key forest) (distinct : (rootKeys key forest).Nodup)
    (present : ∀ tree ∈ forest, ∃ entry, table (key tree.label) = some entry) :
    ∃ result, run key blank ((forest.zipIdx placed.length |>.filter
        fun r => !kept (key r.1.label)).map fun r => .insert root r.1.label r.2) table =
        some result ∧
      result root = some ⟨label, placed ++ rootKeys key forest⟩ ∧
      (∀ k, k ≠ root → k ∉ rootKeys key forest → result k = table k) ∧
      ∀ tree ∈ forest, ∀ entry, table (key tree.label) = some entry → result (key tree.label) =
          some ⟨if kept (key tree.label) then entry.label else tree.label, entry.kids⟩ := by
  -- Induction over the forest; `placed` grows, and its length is the index of the next child.
  induction forest generalizing placed table with
  | nil => exact ⟨table, rfl, by simpa [rootKeys] using parent, fun _ _ _ => rfl, by simp⟩
  | cons first rest ih =>
    simp only [rootKeys, map_cons, mem_cons, not_or] at apart
    have unique := nodup_cons.mp distinct
    have restApart : root ∉ rootKeys key rest := apart.2
    have other : ∀ tree ∈ rest, key tree.label ≠ key first.label := fun tree member same =>
      unique.1 (mem_rootKeys.mpr ⟨tree, member, same⟩)
    obtain ⟨entry, found⟩ := present first (by simp)
    cases keep : kept (key first.label) with
    | true =>
      obtain ⟨result, ran, atRoot, frame, written⟩ := ih (placed ++ [key first.label]) table
        (by simpa [rootKeys, keep] using parent) restApart unique.2
        (fun tree member => present tree (by simp [member]))
      refine ⟨result, ?_, by simpa [rootKeys] using atRoot, ?_, ?_⟩
      · simpa [zipIdx_cons, keep] using ran
      · intro k notRoot outside
        simp only [rootKeys, map_cons, mem_cons, not_or] at outside
        exact frame k notRoot outside.2
      · intro tree member old holds
        rcases mem_cons.mp member with rfl | later
        · rw [if_pos keep, frame _ (Ne.symm apart.1) unique.1]
          exact holds
        · exact written tree later old holds
    | false =>
      have notRoot : root ≠ key first.label := apart.1
      -- The child is relabelled, then put at the end of what is placed.
      let relabelled := Function.update table (key first.label) (some ⟨first.label, entry.kids⟩)
      let next := Function.update relabelled root
        (some ⟨label, placed ++ key first.label :: (rootKeys key rest).filter kept⟩)
      have atNext : ∀ tree ∈ rest, next (key tree.label) = table (key tree.label) := by
        intro tree member
        have far : key tree.label ≠ root := fun same =>
          restApart (mem_rootKeys.mpr ⟨tree, member, same⟩)
        simp only [next, relabelled]
        rw [update_of_ne far, update_of_ne (other tree member)]
      obtain ⟨result, ran, atRoot, frame, written⟩ := ih (placed ++ [key first.label]) next
        (by simp [next]) restApart unique.2
        (fun tree member => by rw [atNext tree member]; exact present tree (by simp [member]))
      have parentNow : table root = some ⟨label, placed ++ (rootKeys key rest).filter kept⟩ := by
        simpa [rootKeys, keep] using parent
      refine ⟨result, ?_, by simpa [rootKeys] using atRoot, ?_, ?_⟩
      · simp only [zipIdx_cons, filter_cons, keep, Bool.not_false, if_true, map_cons,
          run, Edit.apply, parentNow, found, update_of_ne notRoot]
        rw [if_pos (by simp), insertIdx_between, bind_some]
        simpa [next, relabelled] using ran
      · intro k notRoot outside
        simp only [rootKeys, map_cons, mem_cons, not_or] at outside
        rw [frame k notRoot outside.2]
        simp only [next, relabelled]
        rw [update_of_ne notRoot, update_of_ne outside.1]
      · intro tree member old holds
        rcases mem_cons.mp member with rfl | later
        · rw [found] at holds
          cases holds
          rw [frame _ (Ne.symm notRoot) unique.1]
          simp only [next, relabelled, keep]
          rw [update_of_ne (Ne.symm notRoot), update_self]
          rfl
        · exact written tree later old (by rw [atNext tree later]; exact holds)

/-! ### Growing a forest -/

mutual
def growTree (root : κ) (index : Nat) : Tree α → List (Edit α κ)
  | ⟨label, children⟩ => .create (key label) :: .insert root label index ::
    growForest (key label) 0 children

def growForest (root : κ) (index : Nat) : List (Tree α) → List (Edit α κ)
  | [] => []
  | tree :: rest => growTree root index tree ++ growForest root (index + 1) rest
end

/-- From a table without the keys of the forest, growing it adds exactly the forest. -/
def Grows (root : κ) (forest : List (Tree α)) : Prop :=
  ∀ (label : α) (placed : List κ) (table : Table α κ), table root = some ⟨label, placed⟩ →
    (∀ k ∈ keys key forest, table k = none) →
    ∃ result, run key blank (growForest key root placed.length forest) table = some result ∧
      result root = some ⟨label, placed ++ rootKeys key forest⟩ ∧
      (∀ node ∈ forestNodes forest,
        result (key node.label) = some ⟨node.label, rootKeys key node.children⟩) ∧
      ∀ k, k ≠ root → k ∉ keys key forest → result k = table k

private theorem grows_cons {root : κ} {tree : Tree α} {rest : List (Tree α)}
    (distinct : Distinct key root (tree :: rest))
    (below : Grows key blank (key tree.label) tree.children) (later : Grows key blank root rest) :
    Grows key blank root (tree :: rest) := by
  intro label placed table parent absent
  obtain ⟨treeLabel, children⟩ := tree
  have rootApart := distinct.root_not_mem
  have all := distinct.nodup
  simp only [keys_cons, cons_append, nodup_cons, nodup_append, mem_cons,
    mem_append, not_or] at rootApart all absent
  obtain ⟨rootNotTree, rootNotBelow, rootNotLater⟩ := rootApart
  obtain ⟨⟨treeNotBelow, treeNotLater⟩, -, -, apart⟩ := all
  -- The new node is created blank, labelled, and listed at the end.
  let made := Function.update (Function.update table (key treeLabel) (some ⟨treeLabel, []⟩)) root
    (some ⟨label, placed ++ [key treeLabel]⟩)
  have insertion : run key blank [.create (key treeLabel), .insert root treeLabel placed.length]
      table = some made := by
    simp [run, Edit.apply, absent _ (.inl rfl), update_of_ne rootNotTree, parent, made]
  have atMade : ∀ k, k ≠ root → k ≠ key treeLabel → made k = table k := by
    intro k notRoot notTree
    simp only [made]
    rw [update_of_ne notRoot, update_of_ne notTree]
  obtain ⟨filled, ranBelow, parentBelow, holdsBelow, frameBelow⟩ :=
    below treeLabel [] made
      (by simp only [made]; rw [update_of_ne (Ne.symm rootNotTree), update_self])
      (fun k member => by
        rw [atMade k (ne_of_mem_of_not_mem member rootNotBelow)
          (ne_of_mem_of_not_mem member treeNotBelow)]
        exact absent k (.inr (.inl member)))
  obtain ⟨result, ranLater, parentLater, holdsLater, frameLater⟩ :=
    later label (placed ++ [key treeLabel]) filled
      (by rw [frameBelow root rootNotTree rootNotBelow]; simp only [made, update_self])
      (fun k member => by
        rw [frameBelow k (ne_of_mem_of_not_mem member treeNotLater)
            (fun inside => apart k inside k member rfl),
          atMade k (ne_of_mem_of_not_mem member rootNotLater)
            (ne_of_mem_of_not_mem member treeNotLater)]
        exact absent k (.inr (.inr member)))
  have ran := run_trans (run_trans insertion ranBelow)
    (by rw [length_append, length_singleton] at ranLater; exact ranLater)
  refine ⟨result, ran, ?_, ?_, ?_⟩
  · simpa [rootKeys] using parentLater
  · intro node member
    simp only [forestNodes, Tree.nodes, cons_append, mem_cons, mem_append] at member
    rcases member with rfl | inside | after
    · rw [frameLater _ (Ne.symm rootNotTree) treeNotLater, parentBelow, nil_append]
    · have inKeys : key node.label ∈ keys key children := mem_keys.mpr ⟨node, inside, rfl⟩
      rw [frameLater _ (ne_of_mem_of_not_mem inKeys rootNotBelow)
        (fun afterwards => apart _ inKeys _ afterwards rfl)]
      exact holdsBelow node inside
    · exact holdsLater node after
  · intro k notRoot outside
    simp only [keys_cons, cons_append, mem_cons, mem_append, not_or] at outside
    rw [frameLater k notRoot outside.2.2, frameBelow k outside.1 outside.2.1,
      atMade k notRoot outside.1]

theorem grows_forest (root : κ) (forest : List (Tree α)) (distinct : Distinct key root forest) :
    Grows key blank root forest := by
  have forests : ∀ (forest : List (Tree α)), (∀ tree ∈ forest, ∀ root,
      Distinct key root tree.children → Grows key blank root tree.children) →
      ∀ root, Distinct key root forest → Grows key blank root forest := by
    intro forest each root distinct
    induction forest with
    | nil =>
      intro label placed table parent _
      exact ⟨table, rfl, by simpa using parent, by simp, fun _ _ _ => rfl⟩
    | cons tree rest ih =>
      have restDistinct : Distinct key root rest := by
        refine List.Nodup.sublist ?_ distinct
        rw [keys_cons]
        exact (sublist_append_right _ _).cons_cons root
      exact grows_cons key blank distinct
        (each tree (by simp) _ (distinct.children (by simp)))
        (ih (fun other member => each other (by simp [member])) restDistinct)
  have trees : ∀ tree : Tree α, ∀ root, Distinct key root tree.children →
      Grows key blank root tree.children :=
    Tree.induction fun tree ih root below =>
      forests tree.children (fun child member => ih child member) root below
  exact forests forest (fun tree _ => trees tree) root distinct

/-! ### Tables of whole trees -/

structure Represents (table : Table α κ) (label : α) (forest : List (Tree α)) : Prop where
  root : table (key label) = some ⟨label, rootKeys key forest⟩
  nodes : ∀ node ∈ forestNodes forest,
    table (key node.label) = some ⟨node.label, rootKeys key node.children⟩
  only : ∀ k, k ≠ key label → k ∉ keys key forest → table k = none

namespace Represents

variable {key} {label : α} {forest : List (Tree α)}

omit [DecidableEq κ] in
theorem unique {first second : Table α κ} (left : Represents key first label forest)
    (right : Represents key second label forest) : first = second := by
  funext k
  by_cases atRoot : k = key label
  · rw [atRoot, left.root, right.root]
  · by_cases inside : k ∈ keys key forest
    · obtain ⟨node, member, rfl⟩ := mem_keys.mp inside
      rw [left.nodes node member, right.nodes node member]
    · rw [left.only k atRoot inside, right.only k atRoot inside]

variable {table : Table α κ}

theorem grown (distinct : Distinct key (key label) forest) (lone : Represents key table label []) :
    ∃ result, run key blank (growForest key (key label) 0 forest) table = some result ∧
      Represents key result label forest := by
  have absent : ∀ k ∈ keys key forest, table k = none := fun k member =>
    lone.only k (distinct.ne_root member) (by simp)
  obtain ⟨result, ran, root, nodes, frame⟩ :=
    grows_forest key blank (key label) forest distinct label [] table lone.root absent
  refine ⟨result, ran, root, nodes, fun k notRoot outside => ?_⟩
  rw [frame k notRoot outside]
  exact lone.only k notRoot (by simp)

theorem relabel (represents : Represents key table label forest)
    (distinct : Distinct key (key label) forest) {label' : α} (same : key label' = key label) :
    ∃ result, run key blank [.update label'] table = some result ∧
      Represents key result label' forest := by
  refine ⟨Function.update table (key label') (some ⟨label', rootKeys key forest⟩), ?_, ?_, ?_, ?_⟩
  · simp [run, Edit.apply, same, represents.root]
  · exact update_self _ _ _
  · intro node member
    have apart : key node.label ≠ key label' := by
      rw [same]
      exact distinct.ne_root (mem_keys.mpr ⟨node, member, rfl⟩)
    rw [update_of_ne apart]
    exact represents.nodes node member
  · intro k notRoot outside
    rw [update_of_ne notRoot]
    exact represents.only k (same ▸ notRoot) outside

end Represents

end KeyedTree

