import ReactNative.Foundation.LinkedForest

/-! Some nodes of a forest are shown, and some of those host what is shown below them. What a node
that is no host has below it is hoisted to the next host above. -/
namespace HostedNodes

open KeyedTree LinkedForest Forest List

/-- Which nodes are shown, and which of these are hosts. -/
structure Roles (N : Type) where
  shown : N → Bool
  hosts : N → Bool
  shown_of_hosts : ∀ {n}, hosts n = true → shown n = true

variable {N : Type} (K : Roles N) (F : Forest N)

def own (n : N) : List N := if K.shown n then [n] else []

mutual
/-- What is shown of a tree outside of the hosts in it, in preorder. -/
def flatten : KeyedTree.Tree N → List N
  | ⟨n, children⟩ => own K n ++ if K.hosts n then [] else flattenForest children

def flattenForest : List (KeyedTree.Tree N) → List N
  | [] => []
  | tree :: rest => flatten tree ++ flattenForest rest
end

/-- What a subtree contributes to the host above. -/
def pieces (n : N) : List N := flatten K (F.tree n)

def content (n : N) : List N := (F.children n).flatMap (pieces K F)

variable {K F} {G : Forest N}

theorem flattenForest_eq (forest : List (KeyedTree.Tree N)) :
    flattenForest K forest = forest.flatMap (flatten K) := by
  induction forest with
  | nil => rfl
  | cons _ _ ih => rw [flattenForest, ih, flatMap_cons]

theorem flattenForest_children (n : N) : flattenForest K (F.tree n).children = content K F n := by
  rw [F.unfolds n, flattenForest_eq, flatMap_map]
  rfl

theorem pieces_eq (n : N) : pieces K F n = own K n ++ if K.hosts n then [] else content K F n := by
  rw [pieces, ← flattenForest_children n]
  cases unfolded : F.tree n with
  | mk label =>
    have same : label = n := by
      have labels := congrArg Tree.label unfolded
      rw [F.unfolds n] at labels
      exact labels.symm
    rw [flatten, same]

variable {n : N}

theorem pieces_of_host (host : K.hosts n = true) : pieces K F n = [n] := by
  rw [pieces_eq, if_pos host, own, if_pos (K.shown_of_hosts host), append_nil]

theorem pieces_of_not_host (notHost : K.hosts n = false) :
    pieces K F n = own K n ++ content K F n := by
  rw [pieces_eq, notHost, if_neg Bool.false_ne_true]

variable {e : N}

theorem mem_own : e ∈ own K n ↔ e = n ∧ K.shown n = true := by
  unfold own
  by_cases isShown : K.shown n = true <;> simp [isShown]

theorem mem_content : e ∈ content K F n ↔ ∃ c ∈ F.children n, e ∈ pieces K F c := mem_flatMap

theorem mem_pieces :
    e ∈ pieces K F n ↔ (e = n ∧ K.shown n = true) ∨ (K.hosts n = false ∧ e ∈ content K F n) := by
  rw [pieces_eq, mem_append, mem_own]
  cases K.hosts n <;> simp

theorem shown_of_mem_pieces (member : e ∈ pieces K F n) : K.shown e = true := by
  induction n using F.induction with
  | step n ih =>
    rcases mem_pieces.mp member with ⟨rfl, isShown⟩ | ⟨-, inside⟩
    · exact isShown
    · obtain ⟨c, child, deeper⟩ := mem_content.mp inside
      exact ih c child deeper

theorem shown_of_mem_content (member : e ∈ content K F n) : K.shown e = true := by
  obtain ⟨c, -, deeper⟩ := mem_content.mp member
  exact shown_of_mem_pieces deeper

theorem descends_of_mem_pieces (member : e ∈ pieces K F n) : F.Descends n e := by
  induction n using F.induction with
  | step n ih =>
    rcases mem_pieces.mp member with ⟨rfl, -⟩ | ⟨-, inside⟩
    · exact .refl
    · obtain ⟨c, child, deeper⟩ := mem_content.mp inside
      exact descends_of_child child (ih c child deeper)

theorem nodup_flatMap_pieces {nodes : List N} (nodup : nodes.Nodup)
    (each : ∀ c ∈ nodes, (pieces K F c).Nodup)
    (apart : ∀ a ∈ nodes, ∀ b ∈ nodes, ∀ e, F.Descends a e → F.Descends b e → a = b) :
    (nodes.flatMap (pieces K F)).Nodup := by
  rw [nodup_flatMap]
  refine ⟨each, ?_⟩
  apply nodup.imp_of_mem
  intro a b first second different e inA inB
  exact different
    (apart a first b second e (descends_of_mem_pieces inA) (descends_of_mem_pieces inB))

theorem nodup_pieces (n : N) : (pieces K F n).Nodup := by
  induction n using F.induction with
  | step n ih =>
    have inner : (content K F n).Nodup :=
      nodup_flatMap_pieces (F.nodup n) ih fun a first b second e => siblings_apart first second
    have outer : n ∉ content K F n := by
      intro member
      obtain ⟨c, child, deeper⟩ := mem_content.mp member
      exact not_descends_child child (descends_of_mem_pieces deeper)
    rw [pieces_eq, nodup_append]
    refine ⟨?_, ?_, ?_⟩
    · unfold own
      split <;> simp
    · split
      · exact nodup_nil
      · exact inner
    · intro e isOwn d inside same
      obtain ⟨rfl, -⟩ := mem_own.mp isOwn
      split at inside
      · cases inside
      · exact outer (same ▸ inside)

theorem nodup_content (n : N) : (content K F n).Nodup :=
  nodup_flatMap_pieces (F.nodup n) (fun c _ => nodup_pieces c)
    fun _ first _ second _ => siblings_apart first second

/-! ### Hosts -/

/-- Walking up from a node leads to a host; the lists are what the host contains before and
after the content of the node. -/
inductive HostedAt (K : Roles N) (F : Forest N) : N → N → List N → List N → Prop where
  | here {n : N} : K.hosts n = true → HostedAt K F n n [] []
  | above {n p q : N} {left right before after : List N} : K.hosts n = false →
    F.children p = left ++ n :: right → HostedAt K F p q before after →
    HostedAt K F n q (before ++ left.flatMap (pieces K F) ++ own K n)
      (right.flatMap (pieces K F) ++ after)

def Hosted (K : Roles N) (F : Forest N) (n q : N) : Prop :=
  ∃ before after, HostedAt K F n q before after

variable {q : N} {before after : List N}

theorem content_eq_of_hostedAt (hosted : HostedAt K F n q before after) :
    content K F q = before ++ content K F n ++ after := by
  induction hosted with
  | here => simp
  | @above n p q left right before after notHost siblings _ ih =>
    have inParent : content K F p =
        left.flatMap (pieces K F) ++ (own K n ++ content K F n) ++ right.flatMap (pieces K F) := by
      rw [content, siblings, flatMap_append, flatMap_cons, pieces_of_not_host notHost]
      simp
    rw [ih, inParent]
    simp

theorem host_of_hosted (hosted : Hosted K F n q) : K.hosts q = true := by
  obtain ⟨_, _, path⟩ := hosted
  induction path with
  | here host => exact host
  | above _ _ _ ih => exact ih

theorem descends_of_hosted (hosted : Hosted K F n q) : F.Descends q n := by
  obtain ⟨_, _, path⟩ := hosted
  induction path with
  | here => exact .refl
  | above _ siblings _ ih =>
    apply ih.child
    rw [siblings]
    simp

theorem hosted_self (host : K.hosts n = true) (hosted : Hosted K F n q) : q = n := by
  obtain ⟨_, _, path⟩ := hosted
  cases path with
  | here => rfl
  | above notHost => rw [host] at notHost; cases notHost

theorem hosted_parent {p : N} (notHost : K.hosts n = false) (child : n ∈ F.children p)
    (hosted : Hosted K F n q) : Hosted K F p q := by
  obtain ⟨_, _, path⟩ := hosted
  cases path with
  | here host => rw [host] at notHost; cases notHost
  | above _ siblings upper =>
    rw [F.unique child (by rw [siblings]; simp)]
    exact ⟨_, _, upper⟩

theorem hosted_child {p : N} (notHost : K.hosts n = false) (child : n ∈ F.children p)
    (hosted : Hosted K F p q) : Hosted K F n q := by
  obtain ⟨_, _, path⟩ := hosted
  obtain ⟨_, _, siblings⟩ := append_of_mem child
  exact ⟨_, _, .above notHost siblings path⟩

theorem hosted_unique {r : N} (first : Hosted K F n q) (second : Hosted K F n r) : q = r := by
  obtain ⟨_, _, path⟩ := first
  induction path with
  | here host => exact (hosted_self host second).symm
  | above notHost siblings _ ih =>
    exact ih (hosted_parent notHost (by rw [siblings]; simp) second)

theorem hosted_of_mem_pieces {x m p : N} (member : e ∈ pieces K F x) (child : x ∈ F.children m)
    (parent : e ∈ F.children p) : Hosted K F p q ↔ Hosted K F m q := by
  induction x using F.induction generalizing m with
  | step x ih =>
    rcases mem_pieces.mp member with ⟨rfl, -⟩ | ⟨notHost, inside⟩
    · rw [F.unique parent child]
    · obtain ⟨c, isChild, deeper⟩ := mem_content.mp inside
      rw [ih c isChild deeper isChild]
      constructor
      · exact hosted_parent notHost child
      · exact hosted_child notHost child

theorem mem_content_iff (host : K.hosts q = true) :
    e ∈ content K F q ↔ K.shown e = true ∧ ∃ p, e ∈ F.children p ∧ Hosted K F p q := by
  constructor
  · intro member
    refine ⟨shown_of_mem_content member, ?_⟩
    obtain ⟨c, child, deeper⟩ := mem_content.mp member
    obtain ⟨p, parent⟩ : ∃ p, e ∈ F.children p := by
      rcases Relation.ReflTransGen.cases_tail (descends_of_mem_pieces deeper) with
        rfl | ⟨p, -, isChild⟩
      · exact ⟨q, child⟩
      · exact ⟨p, isChild⟩
    exact ⟨p, parent, (hosted_of_mem_pieces deeper child parent).mpr ⟨[], [], .here host⟩⟩
  · rintro ⟨isShown, p, parent, _, _, path⟩
    rw [content_eq_of_hostedAt path]
    apply mem_append_left
    apply mem_append_right
    exact mem_content.mpr ⟨e, parent, mem_pieces.mpr (.inl ⟨rfl, isShown⟩)⟩

theorem host_unique {r : N} (hostQ : K.hosts q = true) (hostR : K.hosts r = true)
    (inQ : e ∈ content K F q) (inR : e ∈ content K F r) : q = r := by
  obtain ⟨-, p, parent, hosted⟩ := (mem_content_iff hostQ).mp inQ
  obtain ⟨-, _, parent', hosted'⟩ := (mem_content_iff hostR).mp inR
  rw [F.unique parent' parent] at hosted'
  exact hosted_unique hosted hosted'

/-! ### Forests that differ below a node -/

theorem pieces_congr (same : G.tree n = F.tree n) : pieces K G n = pieces K F n := by
  rw [pieces, pieces, same]

theorem HostedAt.congr {m : N} (same : ∀ n, ¬ F.Descends m n → G.children n = F.children n)
    (hosted : HostedAt K F m q before after) : HostedAt K G m q before after := by
  -- The induction is on the way up, where every node is above the given one.
  suffices upwards : ∀ n q before after, HostedAt K F n q before after → F.Descends n m →
      HostedAt K G n q before after from upwards m q before after hosted .refl
  intro n q before after path
  induction path with
  | here host => exact fun _ => .here host
  | @above n p q left right before after notHost siblings _ ih =>
    intro descends
    have child : n ∈ F.children p := by
      rw [siblings]
      simp
    have upper : ¬ F.Descends m p := fun cycle =>
      not_descends_child child (Relation.ReflTransGen.trans descends cycle)
    have nodup := F.nodup p
    rw [siblings] at nodup
    have sibling : ∀ c ∈ F.children p, c ≠ n → pieces K G c = pieces K F c := by
      intro c isChild different
      apply pieces_congr
      apply tree_congr
      intro d below
      apply same d
      intro inside
      exact different (siblings_apart isChild child below
        (Relation.ReflTransGen.trans descends inside))
    have leftSame : left.flatMap (pieces K G) = left.flatMap (pieces K F) := by
      apply flatMap_congr
      intro c member
      apply sibling c (by rw [siblings]; exact mem_append_left _ member)
      rintro rfl
      exact (nodup_append.mp nodup).2.2 c member c mem_cons_self rfl
    have rightSame : right.flatMap (pieces K G) = right.flatMap (pieces K F) := by
      apply flatMap_congr
      intro c member
      apply sibling c (by rw [siblings]; simp [member])
      rintro rfl
      exact (nodup_cons.mp (nodup_append.mp nodup).2.1).1 member
    rw [← leftSame, ← rightSame]
    apply HostedAt.above notHost _ (ih (descends_of_child child descends))
    rw [same p upper]
    exact siblings

section Differ

variable {m : N} (differ : ∀ n, n ≠ m → G.children n = F.children n)
include differ

theorem pieces_of_not_descends {n : N} (apart : ¬ F.Descends n m) :
    pieces K G n = pieces K F n := by
  apply pieces_congr
  apply tree_congr
  intro d below
  apply differ
  rintro rfl
  exact apart below

theorem hostedAt_congr {q : N} {before after : List N}
    (hosted : HostedAt K F m q before after) : HostedAt K G m q before after := by
  apply hosted.congr
  intro n apart
  apply differ
  rintro rfl
  exact apart .refl

theorem content_of_not_hosted {q : N} (host : K.hosts q = true) (elsewhere : ¬ Hosted K F m q) :
    content K G q = content K F q := by
  have hostedSelf : Hosted K F q q := ⟨[], [], .here host⟩
  have same : ∀ n p, n ∈ F.children p → Hosted K F p q → pieces K G n = pieces K F n := by
    intro n
    induction n using F.induction with
    | step n ih =>
      intro p child hosted
      cases isHost : K.hosts n with
      | true => rw [pieces_of_host isHost, pieces_of_host isHost]
      | false =>
        have hostedN := hosted_child isHost child hosted
        have different : n ≠ m := by
          rintro rfl
          exact elsewhere hostedN
        rw [pieces_of_not_host isHost, pieces_of_not_host isHost, content, content,
          differ n different]
        congr 1
        apply flatMap_congr
        intro c isChild
        exact ih c isChild n isChild hostedN
  have different : q ≠ m := by
    rintro rfl
    exact elsewhere hostedSelf
  rw [content, content, differ q different]
  apply flatMap_congr
  intro c child
  exact same c q child hostedSelf

end Differ

/-! ### Sweeping a subtree -/

mutual
def sweep (K : Roles N) : KeyedTree.Tree N → List N
  | ⟨n, children⟩ => (if K.hosts n then [] else sweepForest K children) ++ [n]

def sweepForest (K : Roles N) : List (KeyedTree.Tree N) → List N
  | [] => []
  | tree :: rest => sweepForest K rest ++ sweep K tree
end

def swept (K : Roles N) (F : Forest N) (n : N) : List N := sweep K (F.tree n)

theorem sweepForest_eq (forest : List (KeyedTree.Tree N)) :
    sweepForest K forest = forest.reverse.flatMap (sweep K) := by
  induction forest with
  | nil => rfl
  | cons _ _ ih => simp [sweepForest, ih]

theorem swept_eq (n : N) : swept K F n =
      (if K.hosts n then [] else (F.children n).reverse.flatMap (swept K F)) ++ [n] := by
  rw [swept, F.unfolds n, sweep, sweepForest_eq, ← map_reverse, flatMap_map]
  rfl

theorem mem_swept :
    e ∈ swept K F n ↔ e = n ∨ (K.hosts n = false ∧ ∃ c ∈ F.children n, e ∈ swept K F c) := by
  rw [swept_eq, mem_append, mem_singleton]
  cases K.hosts n
  · simp [or_comm]
  · simp

theorem descends_of_mem_swept (member : e ∈ swept K F n) : F.Descends n e := by
  induction n using F.induction with
  | step n ih =>
    rcases mem_swept.mp member with rfl | ⟨-, c, child, inside⟩
    · exact .refl
    · exact descends_of_child child (ih c child inside)

theorem mem_swept_iff (isShown : K.shown e = true) : e ∈ swept K F n ↔ e ∈ pieces K F n := by
  induction n using F.induction with
  | step n ih =>
    rw [mem_swept, mem_pieces, mem_content]
    constructor
    · rintro (rfl | ⟨notHost, c, child, inside⟩)
      · exact .inl ⟨rfl, isShown⟩
      · exact .inr ⟨notHost, c, child, (ih c child).mp inside⟩
    · rintro (⟨rfl, -⟩ | ⟨notHost, c, child, inside⟩)
      · exact .inl rfl
      · exact .inr ⟨notHost, c, child, (ih c child).mpr inside⟩

end HostedNodes

