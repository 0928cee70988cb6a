import Mathlib.Data.Fintype.Card
import Mathlib.Algebra.Order.BigOperators.Group.List
import Mathlib.Algebra.Order.Ring.Nat

/-! A graph is given by the list of children of each node; an edge may be repeated. The nodes of
interest are those that can be reached from some starts. A list of them is in order when each comes
after its predecessors. -/
namespace TopologicalOrder

open Relation List

variable {N : Type} (children : N → List N)

def Edge (a b : N) : Prop := b ∈ children a

/-- A node can be reached from the starts. -/
def Reaches (starts : List N) (n : N) : Prop :=
  ∃ start ∈ starts, ReflTransGen (Edge children) start n

def HasCycle (starts : List N) : Prop :=
  ∃ n, Reaches children starts n ∧ TransGen (Edge children) n n

/-- Every node of the list comes after all its predecessors among the nodes. -/
def Ordered (nodes : N → Prop) (log : List N) : Prop :=
  ∀ before n after, log = before ++ n :: after → ∀ a, nodes a → Edge children a n → a ∈ before

def incoming [DecidableEq N] (nodes : List N) (n : N) : ℕ :=
  (nodes.map fun a => (children a).count n).sum

variable {children} {starts : List N} {n : N}

theorem Reaches.start (member : n ∈ starts) : Reaches children starts n := ⟨n, member, .refl⟩

theorem Reaches.edge {a b : N} (reaches : Reaches children starts a)
    (edge : Edge children a b) : Reaches children starts b := by
  obtain ⟨start, member, path⟩ := reaches
  exact ⟨start, member, path.tail edge⟩

theorem Reaches.path {a b : N} (reaches : Reaches children starts a)
    (path : ReflTransGen (Edge children) a b) : Reaches children starts b := by
  obtain ⟨start, member, before⟩ := reaches
  exact ⟨start, member, before.trans path⟩

theorem Reaches.cases (reaches : Reaches children starts n) :
    n ∈ starts ∨ ∃ a, Reaches children starts a ∧ Edge children a n := by
  obtain ⟨start, member, path⟩ := reaches
  rcases ReflTransGen.cases_tail path with rfl | ⟨a, before, edge⟩
  · left
    exact member
  · right
    exact ⟨a, ⟨start, member, before⟩, edge⟩

theorem Reaches.mem_of_closed {closed : N → Prop} (all : ∀ n ∈ starts, closed n)
    (edges : ∀ a b, closed a → Edge children a b → closed b)
    (reaches : Reaches children starts n) : closed n := by
  obtain ⟨start, member, path⟩ := reaches
  induction path with
  | refl => exact all start member
  | tail _ edge ih => exact edges _ _ ih edge

theorem not_hasCycle_of_rank {rank : N → ℕ}
    (increases : ∀ a b, Edge children a b → rank a < rank b) : ¬ HasCycle children starts := by
  rintro ⟨n, -, cycle⟩
  have grows : ∀ m, TransGen (Edge children) n m → rank n < rank m := by
    intro m path
    induction path with
    | single edge => exact increases _ _ edge
    | tail _ edge ih => exact ih.trans (increases _ _ edge)
  exact lt_irrefl _ (grows n cycle)

/-! ### Orders -/

variable {nodes : N → Prop}

theorem ordered_nil : Ordered children nodes [] := by
  intro before n after split
  simp at split

theorem Ordered.concat {log : List N} (ordered : Ordered children nodes log)
    (last : ∀ a, nodes a → Edge children a n → a ∈ log) : Ordered children nodes (log ++ [n]) := by
  intro before b after split
  rcases eq_nil_or_concat after with rfl | ⟨rest, _, rfl⟩
  · -- The node is the last one.
    obtain ⟨rfl, rfl⟩ : log = before ∧ n = b := by
      have parts := append_inj' split rfl
      exact ⟨parts.1, by simpa using parts.2⟩
    exact last
  · have shorter : log = before ++ b :: rest := by
      rw [concat_eq_append, ← cons_append, ← append_assoc] at split
      exact (append_inj' split rfl).1
    exact ordered before b rest shorter

theorem Ordered.left {first second : List N}
    (ordered : Ordered children nodes (first ++ second)) : Ordered children nodes first := by
  intro before n after split
  apply ordered before n (after ++ second)
  rw [split, append_assoc, cons_append]

theorem Ordered.acyclic {log : List N}
    (ordered : Ordered children (Reaches children starts) log) (member : n ∈ log)
    (reaches : Reaches children starts n) : ¬ TransGen (Edge children) n n := by
  -- The predecessor of the node on the cycle is earlier in the order, and is on the cycle.
  induction log using reverseRecOn generalizing n with
  | nil => cases member
  | append_singleton rest _ ih =>
    intro cycle
    rcases mem_append.mp member with earlier | isLast
    · exact ih ordered.left earlier reaches cycle
    · obtain rfl := mem_singleton.mp isLast
      obtain ⟨a, path, edge⟩ := TransGen.tail'_iff.mp cycle
      have reachesA : Reaches children starts a := reaches.path path
      have before : a ∈ rest := ordered rest n [] rfl a reachesA edge
      exact ih ordered.left before reachesA (TransGen.head' edge path)

theorem Reaches.mem_of_acyclic [Finite N] (acyclic : ¬ HasCycle children starts) (done : N → Prop)
    (next : ∀ n, Reaches children starts n →
      (∀ a, Reaches children starts a → Edge children a n → done a) → done n)
    (reaches : Reaches children starts n) : done n := by
  -- Paths from what can be reached are a strict order, which is well founded.
  let before : N → N → Prop := fun a b =>
    Reaches children starts a ∧ TransGen (Edge children) a b
  have trans : IsTrans N before := ⟨fun _ _ _ first second =>
    ⟨first.1, first.2.trans second.2⟩⟩
  have irrefl : Std.Irrefl before := ⟨fun a loop => acyclic ⟨a, loop.1, loop.2⟩⟩
  have wellFounded : WellFounded before := Finite.wellFounded_of_trans_of_irrefl before
  induction n using wellFounded.induction with
  | _ n ih =>
    apply next n reaches
    intro a reachesA edge
    exact ih a ⟨reachesA, .single edge⟩ reachesA

section Incoming

variable [DecidableEq N]

theorem incoming_concat (nodes : List N) (a n : N) :
    incoming children (nodes ++ [a]) n = incoming children nodes n + (children a).count n := by
  simp [incoming]

variable {first second : List N}

theorem incoming_perm (perm : first.Perm second) (n : N) :
    incoming children first n = incoming children second n :=
  (perm.map _).sum_eq

theorem incoming_le (nodup : first.Nodup) (subset : first ⊆ second)
    (n : N) : incoming children first n ≤ incoming children second n := by
  obtain ⟨_, perm, sublist⟩ := nodup.subperm subset
  rw [← incoming_perm perm n]
  exact (sublist.map _).sum_le_sum (fun _ _ => Nat.zero_le _)

variable {n : N}

theorem edge_iff_count {a : N} : Edge children a n ↔ 0 < (children a).count n := count_pos_iff.symm

theorem incoming_le_of_edges (nodup : first.Nodup)
    (subset : ∀ a ∈ first, Edge children a n → a ∈ second) :
    incoming children first n ≤ incoming children second n := by
  have same : incoming children first n
      = incoming children (first.filter fun a => 0 < (children a).count n) n := by
    clear nodup subset
    induction first with
    | nil => rfl
    | cons a _ ih =>
      simp only [incoming, map_cons, sum_cons] at ih ⊢
      rw [ih, filter_cons]
      split
      · rw [map_cons, sum_cons]
      · rename_i none
        have zero : (children a).count n = 0 := count_eq_zero.mpr (by simpa using none)
        omega
  rw [same]
  apply incoming_le (nodup.filter _)
  intro a member
  obtain ⟨inFirst, positive⟩ := mem_filter.mp member
  exact subset a inFirst (edge_iff_count.mpr (of_decide_eq_true positive))

theorem incoming_lt (nodup : first.Nodup) (subset : first ⊆ second)
    {a : N} (member : a ∈ second) (missing : a ∉ first) (edge : Edge children a n) :
    incoming children first n < incoming children second n := by
  have longer : (first ++ [a]).Nodup := by
    rw [nodup_append]
    refine ⟨nodup, nodup_singleton a, ?_⟩
    intro b inFirst c isA same
    obtain rfl := mem_singleton.mp isA
    exact missing (same ▸ inFirst)
  have all : first ++ [a] ⊆ second := append_subset.mpr ⟨subset, by simpa using member⟩
  have bound : incoming children (first ++ [a]) n ≤ incoming children second n :=
    incoming_le longer all n
  rw [incoming_concat] at bound
  have positive := edge_iff_count.mp edge
  omega

end Incoming

end TopologicalOrder


