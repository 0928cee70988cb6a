import Mathlib.Data.List.Nodup
import Mathlib.Data.List.Flatten

/-! Ordered trees whose labels carry a key. The keys of a forest are listed in preorder, so one
`Nodup` says at once that siblings differ, that no key occurs below itself and that different
subtrees share nothing. -/
namespace KeyedTree

open List

/-- A finitely branching ordered tree with a label at every node. -/
structure Tree (α : Type) where
  label : α
  children : List (Tree α)

variable {α κ : Type}

mutual
/-- The node itself and everything below it, in preorder. -/
def Tree.nodes : Tree α → List (Tree α)
  | ⟨label, children⟩ => ⟨label, children⟩ :: forestNodes children

def forestNodes : List (Tree α) → List (Tree α)
  | [] => []
  | tree :: rest => tree.nodes ++ forestNodes rest
end

mutual
def Tree.height : Tree α → Nat
  | ⟨_, children⟩ => forestHeight children + 1

def forestHeight : List (Tree α) → Nat
  | [] => 0
  | tree :: rest => max tree.height (forestHeight rest)
end

mutual
def Tree.decEq [DecidableEq α] : (a b : Tree α) → Decidable (a = b)
  | ⟨label, children⟩, ⟨label', children'⟩ =>
    match decEq label label', forestDecEq children children' with
    | isTrue sameLabel, isTrue sameChildren => isTrue (by rw [sameLabel, sameChildren])
    | isFalse differ, _ => isFalse fun same => differ (congrArg Tree.label same)
    | _, isFalse differ => isFalse fun same => differ (congrArg Tree.children same)

def forestDecEq [DecidableEq α] : (a b : List (Tree α)) → Decidable (a = b)
  | [], [] => isTrue rfl
  | [], tree :: rest => isFalse (cons_ne_nil tree rest).symm
  | tree :: rest, [] => isFalse (cons_ne_nil tree rest)
  | tree :: rest, tree' :: rest' =>
    match Tree.decEq tree tree', forestDecEq rest rest' with
    | isTrue sameTree, isTrue sameRest => isTrue (by rw [sameTree, sameRest])
    | isFalse differ, _ => isFalse fun same => differ (List.cons.inj same).1
    | _, isFalse differ => isFalse fun same => differ (List.cons.inj same).2
end

instance [DecidableEq α] : DecidableEq (Tree α) := Tree.decEq

theorem Tree.induction {P : Tree α → Prop}
    (step : ∀ tree : Tree α, (∀ child ∈ tree.children, P child) → P tree) : ∀ tree, P tree := by
  intro tree
  refine @Tree.rec α P (fun forest => ∀ child ∈ forest, P child) ?_ ?_ ?_ tree
  · intro label children below
    exact step ⟨label, children⟩ below
  · simp
  · intro head tail first rest
    simpa using ⟨first, rest⟩

theorem Tree.induction_children {P : Tree α → Prop} {Below : α → List (Tree α) → Prop}
    (node : ∀ label children, Below label children → P ⟨label, children⟩)
    (nil : ∀ label, Below label [])
    (cons : ∀ label child rest, P child → Below label rest → Below label (child :: rest)) :
    ∀ tree, P tree := by
  apply Tree.induction
  rintro ⟨label, children⟩ ih
  apply node
  induction children with
  | nil => exact nil label
  | cons child rest rest_ih =>
    apply cons label child rest (ih child mem_cons_self)
    exact rest_ih fun other member => ih other (mem_cons_of_mem child member)

@[simp] theorem forestNodes_nil : forestNodes ([] : List (Tree α)) = [] := rfl

theorem forestNodes_eq (forest : List (Tree α)) :
    forestNodes forest = forest.flatMap Tree.nodes := by
  induction forest with
  | nil => rfl
  | cons _ _ ih => simp only [forestNodes, ih, flatMap_cons]

variable {forest : List (Tree α)} {node : Tree α}

theorem mem_forestNodes : node ∈ forestNodes forest ↔ ∃ tree ∈ forest, node ∈ tree.nodes := by
  rw [forestNodes_eq, mem_flatMap]

variable {tree : Tree α}

theorem mem_nodes : node ∈ tree.nodes ↔ node = tree ∨ node ∈ forestNodes tree.children := by
  cases tree
  simp only [Tree.nodes, mem_cons]

theorem self_mem_nodes (tree : Tree α) : tree ∈ tree.nodes := mem_nodes.mpr (.inl rfl)

theorem root_mem_forestNodes (member : tree ∈ forest) : tree ∈ forestNodes forest :=
  mem_forestNodes.mpr ⟨tree, member, self_mem_nodes tree⟩

theorem below_mem_forestNodes (member : tree ∈ forest) (below : node ∈ forestNodes tree.children) :
    node ∈ forestNodes forest :=
  mem_forestNodes.mpr ⟨tree, member, mem_nodes.mpr (.inr below)⟩

theorem forestNodes_trans {inner : Tree α} : ∀ {forest : List (Tree α)}, node ∈ forestNodes forest →
      inner ∈ forestNodes node.children → inner ∈ forestNodes forest := by
  have inside : ∀ tree : Tree α, node ∈ tree.nodes →
      inner ∈ forestNodes node.children → inner ∈ tree.nodes := by
    refine Tree.induction ?_
    intro tree ih member below
    rcases mem_nodes.mp member with rfl | deeper
    · exact mem_nodes.mpr (.inr below)
    · obtain ⟨child, childMem, nodeMem⟩ := mem_forestNodes.mp deeper
      exact mem_nodes.mpr (.inr (mem_forestNodes.mpr ⟨child, childMem, ih child childMem nodeMem below⟩))
  intro forest member below
  obtain ⟨tree, treeMem, nodeMem⟩ := mem_forestNodes.mp member
  exact mem_forestNodes.mpr ⟨tree, treeMem, inside tree nodeMem below⟩

theorem child_mem_nodes {child : Tree α} (member : node ∈ tree.nodes)
    (below : child ∈ node.children) : child ∈ tree.nodes := by
  rcases mem_nodes.mp member with rfl | deeper
  · exact mem_nodes.mpr (.inr (root_mem_forestNodes below))
  · exact mem_nodes.mpr (.inr (forestNodes_trans deeper (root_mem_forestNodes below)))

theorem height_le_forestHeight (member : tree ∈ forest) : tree.height ≤ forestHeight forest := by
  induction forest with
  | nil => simp at member
  | cons _ _ ih =>
    rcases mem_cons.mp member with rfl | later
    · exact Nat.le_max_left _ _
    · exact Nat.le_trans (ih later) (Nat.le_max_right _ _)

theorem forestHeight_le_iff {bound : Nat} :
    forestHeight forest ≤ bound ↔ ∀ tree ∈ forest, tree.height ≤ bound := by
  induction forest with
  | nil => simp [forestHeight]
  | cons tree _ ih => rw [forestHeight, Nat.max_le, ih, forall_mem_cons]

theorem height_eq (tree : Tree α) : tree.height = forestHeight tree.children + 1 := by
  cases tree
  rfl

theorem child_height_lt {child : Tree α} (member : child ∈ tree.children) :
    child.height < tree.height := by
  cases tree
  exact Nat.lt_succ_of_le (height_le_forestHeight member)

section Map

variable {β : Type} (f : α → β)

mutual
def Tree.map : Tree α → Tree β
  | ⟨label, children⟩ => ⟨f label, forestMap children⟩

def forestMap : List (Tree α) → List (Tree β)
  | [] => []
  | tree :: rest => tree.map :: forestMap rest
end

theorem forestMap_eq (forest : List (Tree α)) : forestMap f forest = forest.map (Tree.map f) := by
  induction forest with
  | nil => rfl
  | cons _ _ ih => rw [forestMap, ih, map_cons]

theorem Tree.map_eq (tree : Tree α) : tree.map f = ⟨f tree.label, tree.children.map (Tree.map f)⟩ := by
  cases tree
  rw [Tree.map, forestMap_eq]

theorem Tree.map_map {γ : Type} (g : β → γ) (tree : Tree α) :
    (tree.map f).map g = tree.map (g ∘ f) := by
  induction tree using Tree.induction with
  | step tree ih =>
    have below : (tree.children.map (Tree.map f)).map (Tree.map g) =
        tree.children.map (Tree.map (g ∘ f)) := by
      rw [List.map_map]
      exact map_congr_left ih
    rw [Tree.map_eq, Tree.map_eq, Tree.map_eq, below]
    rfl

theorem nodes_map (tree : Tree α) : (tree.map f).nodes = tree.nodes.map (Tree.map f) := by
  induction tree using Tree.induction with
  | step tree ih =>
    obtain ⟨_, children⟩ := tree
    have below : forestNodes (children.map (Tree.map f)) =
        (forestNodes children).map (Tree.map f) := by
      rw [forestNodes_eq, forestNodes_eq, flatMap_map, map_flatMap]
      exact flatMap_congr fun child member => ih child member
    rw [Tree.map_eq, Tree.nodes, Tree.nodes, below, map_cons, Tree.map_eq]

theorem Tree.map_congr {g : α → β} (tree : Tree α)
    (same : ∀ node ∈ tree.nodes, f node.label = g node.label) : tree.map f = tree.map g := by
  revert same
  refine Tree.induction (P := fun tree => (∀ node ∈ tree.nodes, f node.label = g node.label) →
    tree.map f = tree.map g) ?_ tree
  intro tree ih same
  rw [Tree.map_eq, Tree.map_eq, same tree (self_mem_nodes tree)]
  congr 1
  apply map_congr_left
  intro child member
  exact ih child member fun node nodeMem =>
    same node (mem_nodes.mpr (.inr (mem_forestNodes.mpr ⟨child, member, nodeMem⟩)))

theorem exists_node_of_map_eq {first second : Tree α} (same : first.map f = second.map f)
    {node : Tree α} (member : node ∈ first.nodes) :
    ∃ other ∈ second.nodes, other.map f = node.map f := by
  have image : node.map f ∈ (second.map f).nodes := by
    rw [← same, nodes_map]
    exact mem_map_of_mem member
  rw [nodes_map] at image
  exact mem_map.mp image

end Map

section Keys

variable (key : α → κ) (forest : List (Tree α))

def rootKeys : List κ := forest.map fun tree => key tree.label

def keys : List κ := rootKeys key (forestNodes forest)

/-- `parent` is the key above `child` when the forest hangs below `root`. -/
def ParentOf (root : κ) (forest : List (Tree α)) (parent child : κ) : Prop :=
  (parent = root ∧ child ∈ rootKeys key forest) ∨
    ∃ node ∈ forestNodes forest, key node.label = parent ∧ child ∈ rootKeys key node.children

def parents (root : κ) (forest : List (Tree α)) : List (κ × κ) :=
  (rootKeys key forest).map (fun child => (root, child)) ++
    (forestNodes forest).flatMap fun node =>
      (rootKeys key node.children).map fun child => (key node.label, child)

/-- All keys of the forest differ, also from the key it hangs below. -/
def Distinct (root : κ) (forest : List (Tree α)) : Prop := (root :: keys key forest).Nodup

variable {key}

@[simp] theorem keys_nil : keys key ([] : List (Tree α)) = [] := rfl

@[simp] theorem rootKeys_nil : rootKeys key ([] : List (Tree α)) = [] := rfl

theorem keys_cons (tree : Tree α) (rest : List (Tree α)) :
    keys key (tree :: rest) = key tree.label :: keys key tree.children ++ keys key rest := by
  cases tree
  simp [keys, rootKeys, forestNodes, Tree.nodes]

theorem keys_append (first second : List (Tree α)) :
    keys key (first ++ second) = keys key first ++ keys key second := by
  simp [keys, rootKeys, forestNodes_eq]

theorem keys_perm {first second : List (Tree α)} (perm : first.Perm second) :
    (keys key first).Perm (keys key second) := by
  simp only [keys, rootKeys, forestNodes_eq]
  exact (perm.flatMap_right _).map _

variable {k : κ} {forest : List (Tree α)}

theorem mem_rootKeys :
    k ∈ rootKeys key forest ↔ ∃ tree ∈ forest, key tree.label = k := by
  simp [rootKeys]

theorem mem_keys :
    k ∈ keys key forest ↔ ∃ node ∈ forestNodes forest, key node.label = k := by
  simp [keys, rootKeys]

theorem mem_keys_roots :
    k ∈ keys key forest ↔ ∃ tree ∈ forest, key tree.label = k ∨ k ∈ keys key tree.children := by
  induction forest with
  | nil => simp
  | cons tree _ ih =>
    simp only [keys_cons, cons_append, mem_cons, mem_append, ih]
    constructor
    · rintro (rfl | below | ⟨other, later, found⟩)
      · exact ⟨tree, .inl rfl, .inl rfl⟩
      · exact ⟨tree, .inl rfl, .inr below⟩
      · exact ⟨other, .inr later, found⟩
    · rintro ⟨other, rfl | later, found⟩
      · rcases found with rfl | below
        · exact .inl rfl
        · exact .inr (.inl below)
      · exact .inr (.inr ⟨other, later, found⟩)

variable {tree : Tree α}

theorem mem_keys_singleton :
    k ∈ keys key [tree] ↔ key tree.label = k ∨ k ∈ keys key tree.children := by
  rw [mem_keys_roots]
  simp only [mem_singleton, exists_eq_left]

theorem rootKey_mem_keys (member : tree ∈ forest) :
    key tree.label ∈ keys key forest :=
  mem_keys_roots.mpr ⟨tree, member, .inl rfl⟩

theorem rootKeys_subset (member : k ∈ rootKeys key forest) :
    k ∈ keys key forest := by
  obtain ⟨_, treeMem, rfl⟩ := mem_rootKeys.mp member
  exact rootKey_mem_keys treeMem

theorem below_mem_keys
    (member : tree ∈ forest) (below : k ∈ keys key tree.children) : k ∈ keys key forest :=
  mem_keys_roots.mpr ⟨tree, member, .inr below⟩

variable {root : κ}

theorem mem_parents {parent child : κ} :
    (parent, child) ∈ parents key root forest ↔ ParentOf key root forest parent child := by
  simp only [parents, ParentOf, mem_append, mem_map, mem_flatMap, Prod.mk.injEq]
  constructor
  · rintro (⟨_, member, rfl, rfl⟩ | ⟨node, nodeMem, _, member, rfl, rfl⟩)
    · exact .inl ⟨rfl, member⟩
    · exact .inr ⟨node, nodeMem, rfl, member⟩
  · rintro (⟨rfl, member⟩ | ⟨node, nodeMem, rfl, member⟩)
    · exact .inl ⟨child, member, rfl, rfl⟩
    · exact .inr ⟨node, nodeMem, child, member, rfl, rfl⟩

namespace Distinct

variable {root : κ} {forest : List (Tree α)} (distinct : Distinct key root forest)
include distinct

theorem nodup : (keys key forest).Nodup := (nodup_cons.mp distinct).2

theorem root_not_mem : root ∉ keys key forest := (nodup_cons.mp distinct).1

theorem ne_root (member : k ∈ keys key forest) : k ≠ root :=
  ne_of_mem_of_not_mem member distinct.root_not_mem

variable {a b : Tree α}

theorem node_unique (ha : a ∈ forestNodes forest) (hb : b ∈ forestNodes forest)
    (same : key a.label = key b.label) : a = b :=
  inj_on_of_nodup_map distinct.nodup ha hb same

theorem tree_unique (ha : a ∈ forest) (hb : b ∈ forest) (same : key a.label = key b.label) :
    a = b :=
  distinct.node_unique (root_mem_forestNodes ha) (root_mem_forestNodes hb) same

theorem rootKeys_nodup : (rootKeys key forest).Nodup := by
  have all := distinct.nodup
  clear distinct
  induction forest with
  | nil => simp [rootKeys]
  | cons _ _ ih =>
    simp only [keys_cons, cons_append, nodup_cons, mem_append, not_or] at all
    have tail := ih (nodup_append.mp all.2).2.1
    refine nodup_cons.mpr ⟨fun member => all.1.2 ?_, tail⟩
    exact rootKeys_subset member

end Distinct

variable {a b : Tree α}

theorem Distinct.region_unique (distinct : Distinct key root forest)
    (ha : a ∈ forest) (hb : b ∈ forest) (inA : key a.label = k ∨ k ∈ keys key a.children)
    (inB : key b.label = k ∨ k ∈ keys key b.children) : a = b := by
  have all := distinct.nodup
  clear distinct
  induction forest with
  | nil => simp at ha
  | cons tree rest ih =>
    simp only [keys_cons, nodup_append] at all
    have apart : ∀ c ∈ rest, ¬ ((key tree.label = k ∨ k ∈ keys key tree.children) ∧
        (key c.label = k ∨ k ∈ keys key c.children)) := by
      rintro c later ⟨inTree, inC⟩
      refine all.2.2 k ?_ k (mem_keys_roots.mpr ⟨c, later, inC⟩) rfl
      simpa [eq_comm] using inTree
    rcases mem_cons.mp ha with rfl | laterA
    · rcases mem_cons.mp hb with rfl | laterB
      · rfl
      · exact absurd ⟨inA, inB⟩ (apart b laterB)
    · rcases mem_cons.mp hb with rfl | laterB
      · exact absurd ⟨inB, inA⟩ (apart a laterA)
      · exact ih laterA laterB all.2.1

variable {first : Tree α} {rest : List (Tree α)}

theorem Distinct.tail (distinct : Distinct key root (first :: rest)) : Distinct key root rest := by
  rw [Distinct, keys_cons] at distinct
  exact distinct.sublist ((sublist_append_right _ _).cons_cons _)

theorem Distinct.head_apart (distinct : Distinct key root (first :: rest))
    (here : k ∈ keys key [first]) : k ∉ keys key rest := by
  have whole := distinct.nodup
  rw [← singleton_append, keys_append, nodup_append] at whole
  exact fun later => whole.2.2 k here k later rfl

theorem Distinct.children (distinct : Distinct key root forest)
    (member : tree ∈ forest) : Distinct key (key tree.label) tree.children := by
  have all := distinct.nodup
  clear distinct
  induction forest with
  | nil => simp at member
  | cons _ _ ih =>
    simp only [keys_cons, nodup_append] at all
    rcases mem_cons.mp member with rfl | later
    · exact all.1
    · exact ih later all.2.1

theorem Distinct.below_not_rootKey (distinct : Distinct key root forest)
    (hb : b ∈ forest) (below : k ∈ keys key b.children) : k ∉ rootKeys key forest := by
  intro member
  obtain ⟨a, ha, rfl⟩ := mem_rootKeys.mp member
  obtain rfl := distinct.region_unique ha hb (.inl rfl) (.inr below)
  exact (distinct.children ha).root_not_mem below

theorem exists_parentOf (root : κ) {forest : List (Tree α)}
    (member : k ∈ keys key forest) : ∃ parent, ParentOf key root forest parent k := by
  have inside : ∀ tree : Tree α, k ∈ keys key tree.children →
      ∃ node ∈ tree.nodes, k ∈ rootKeys key node.children := by
    refine Tree.induction ?_
    intro tree ih below
    obtain ⟨child, childMem, here | deeper⟩ := mem_keys_roots.mp below
    · exact ⟨tree, self_mem_nodes tree, mem_rootKeys.mpr ⟨child, childMem, here⟩⟩
    · obtain ⟨node, nodeMem, nodeBelow⟩ := ih child childMem deeper
      exact ⟨node, mem_nodes.mpr (.inr (mem_forestNodes.mpr ⟨child, childMem, nodeMem⟩)), nodeBelow⟩
  obtain ⟨tree, treeMem, here | below⟩ := mem_keys_roots.mp member
  · exact ⟨root, .inl ⟨rfl, mem_rootKeys.mpr ⟨tree, treeMem, here⟩⟩⟩
  · obtain ⟨node, nodeMem, nodeBelow⟩ := inside tree below
    exact ⟨key node.label, .inr ⟨node, mem_forestNodes.mpr ⟨tree, treeMem, nodeMem⟩, rfl, nodeBelow⟩⟩

end Keys

end KeyedTree


