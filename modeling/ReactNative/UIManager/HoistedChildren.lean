import ReactNative.UIManager.NativeViewHierarchyOptimizer
import ReactNative.UIManager.NativeChildrenCount

/-! A subtree leaves its native parent node by node, from the last to the first, and enters one in
preorder. -/
namespace ReactNative

open LinkedForest Forest HostedNodes Function ShadowTree List

/-! ### Replaying operations -/

namespace UIOperation

def removeIndex (tag : Tag) (lists : Tag → List Tag) (index : ℕ) : Option (Tag → List Tag) :=
  if index < (lists tag).length then
    some (update lists tag ((lists tag).eraseIdx index))
  else none

def addView (tag : Tag) (lists : Tag → List Tag) (view : ViewAtIndex) : Option (Tag → List Tag) :=
  if view.index ≤ (lists tag).length then
    some (update lists tag ((lists tag).insertIdx view.index view.tag))
  else none

/-- An operation on plain lists of tags; it fails where an index is out of range. -/
def replay (lists : Tag → List Tag) : UIOperation → Option (Tag → List Tag)
  | .manageChildren tag call =>
    (call.indicesToRemove.reverse.foldlM (removeIndex tag) lists).bind fun removed =>
      call.viewsToAdd.foldlM (addView tag) removed
  | _ => some lists

def Removes (shouldDelete : Bool) (q x : Tag) (operation : UIOperation) : Prop :=
  ∃ index, operation = .manageChildren q
    { indicesToRemove := [index], tagsToDelete := if shouldDelete then [x] else [] }

def Adds (q x : Tag) (operation : UIOperation) : Prop :=
  ∃ index, operation = .manageChildren q { viewsToAdd := [⟨x, index⟩] }

variable {lists : Tag → List Tag} {tag : Tag} {index : ℕ}

theorem replay_removal (tagsToDelete : List Tag) (inRange : index < (lists tag).length) :
    replay lists (.manageChildren tag
      { indicesToRemove := [index], tagsToDelete := tagsToDelete }) =
        some (update lists tag ((lists tag).eraseIdx index)) := by
  simp [replay, removeIndex, inRange]

theorem replay_addition {child : Tag} (inRange : index ≤ (lists tag).length) :
    replay lists (.manageChildren tag { viewsToAdd := [⟨child, index⟩] }) =
      some (update lists tag ((lists tag).insertIdx index child)) := by
  simp [replay, addView, inRange]

end UIOperation

namespace NativeTree

/-- The operations lead to the lists that are kept, and the native parents agree with them. -/
structure Consistent (native : NativeTree) : Prop where
  parent_iff : ∀ n q, native.nativeParent n = some q ↔ n ∈ native.nativeChildren q
  nodup : ∀ q, (native.nativeChildren q).Nodup
  replayed : Runs.run UIOperation.replay (fun _ => []) native.operations =
    some native.nativeChildren

variable {native middle after : NativeTree}

theorem replayed_enqueue {operation : UIOperation} {operations : List UIOperation}
    {lists new : Tag → List Tag}
    (before : Runs.run UIOperation.replay (fun _ => []) operations = some lists)
    (change : UIOperation.replay lists operation = some new) :
    Runs.run UIOperation.replay (fun _ => []) (operations ++ [operation]) = some new := by
  rw [Runs.run_append, before, Option.bind_some, Runs.run, change]
  rfl

def Logs (kind : UIOperation → Prop) (native after : NativeTree) : Prop :=
  ∃ log, after.operations = native.operations ++ log ∧ ∀ operation ∈ log, kind operation

namespace Logs

variable {kind other : UIOperation → Prop}

theorem refl (kind : UIOperation → Prop) (native : NativeTree) : Logs kind native native :=
  ⟨[], by simp, by simp⟩

theorem trans (first : Logs kind native middle) (second : Logs kind middle after) :
    Logs kind native after := by
  obtain ⟨earlier, opsFirst, eachFirst⟩ := first
  obtain ⟨later, opsSecond, eachSecond⟩ := second
  refine ⟨earlier ++ later, by rw [opsSecond, opsFirst, append_assoc], ?_⟩
  intro operation member
  rcases mem_append.mp member with isEarlier | isLater
  · exact eachFirst operation isEarlier
  · exact eachSecond operation isLater

theorem mono (logs : Logs kind native after) (weaker : ∀ operation, kind operation → other operation) :
    Logs other native after := by
  obtain ⟨log, ops, each⟩ := logs
  exact ⟨log, ops, fun operation member => weaker operation (each operation member)⟩

theorem enqueue {operation : UIOperation} (ops : after.operations = native.operations ++ [operation])
    (holds : kind operation) : Logs kind native after :=
  ⟨[operation], ops, by simpa using holds⟩

end Logs

/-! ### Taking nodes out -/

/-- The nodes are in no list any more, and those that were have been taken out by operations
of their own. -/
structure Taken (shouldDelete : Bool) (native : NativeTree) (nodes : List Tag)
    (after : NativeTree) : Prop where
  children : ∀ q, after.nativeChildren q = (native.nativeChildren q).filter fun e => e ∉ nodes
  parent : ∀ n, after.nativeParent n = if n ∈ nodes then none else native.nativeParent n
  consistent : Consistent after
  operations : Logs (fun operation => ∃ q, ∃ x ∈ nodes, native.nativeParent x = some q ∧
    operation.Removes shouldDelete q x) native after

theorem Consistent.filter {nodes : List Tag} (consistent : Consistent native)
    (children : ∀ q, after.nativeChildren q = (native.nativeChildren q).filter fun e => e ∉ nodes)
    (parent : ∀ n, after.nativeParent n = if n ∈ nodes then none else native.nativeParent n)
    (replayed : Runs.run UIOperation.replay (fun _ => []) after.operations =
      some after.nativeChildren) : Consistent after where
  parent_iff n q := by
    rw [children, parent, mem_filter, decide_eq_true_iff]
    by_cases isTaken : n ∈ nodes
    · simp [isTaken]
    · simp [isTaken, consistent.parent_iff]
  nodup q := by
    rw [children]
    exact (consistent.nodup q).filter _
  replayed := replayed

namespace Taken

variable {shouldDelete : Bool}

theorem nil (consistent : Consistent native) : Taken shouldDelete native [] native where
  children q := by simp
  parent n := by simp
  consistent := consistent
  operations := .refl _ native

theorem append {first second : List Tag} (one : Taken shouldDelete native first middle)
    (two : Taken shouldDelete middle second after) :
    Taken shouldDelete native (first ++ second) after where
  children q := by
    rw [two.children, one.children, filter_filter]
    apply filter_congr
    intro e _
    by_cases inFirst : e ∈ first <;> by_cases inSecond : e ∈ second <;>
      simp [inFirst, inSecond]
  parent n := by
    rw [two.parent, one.parent]
    by_cases inFirst : n ∈ first <;> by_cases inSecond : n ∈ second <;>
      simp [inFirst, inSecond]
  consistent := two.consistent
  operations := by
    apply (one.operations.mono _).trans (two.operations.mono _)
    · rintro operation ⟨q, x, inFirst, hosted, removes⟩
      exact ⟨q, x, mem_append_left _ inFirst, hosted, removes⟩
    · rintro operation ⟨q, x, inSecond, hosted, removes⟩
      rw [one.parent] at hosted
      split at hosted
      · cases hosted
      · exact ⟨q, x, mem_append_right _ inSecond, hosted, removes⟩

end Taken

/-! ### Putting nodes in -/

/-- The nodes are a segment of the list of one native parent, and have been added to it by
operations of their own. -/
structure Put (native : NativeTree) (q : Tag) (first nodes last : List Tag) (after : NativeTree) :
    Prop where
  children : after.nativeChildren = update native.nativeChildren q (first ++ nodes ++ last)
  parent : ∀ n, after.nativeParent n = if n ∈ nodes then some q else native.nativeParent n
  consistent : Consistent after
  operations : Logs (fun operation => ∃ c ∈ nodes, operation.Adds q c) native after

structure Ready (shadow : ShadowTree) (native : NativeTree) (q : Tag) (first nodes last : List Tag) :
    Prop where
  consistent : Consistent native
  host : shadow.getNativeKind q = .parent
  split : native.nativeChildren q = first ++ last
  hidden : ∀ n, shadow.getNativeKind n = .none → native.nativeParent n = none
  free : ∀ e ∈ nodes, native.nativeParent e = none

variable {shadow : ShadowTree} {q : Tag} {first last : List Tag}

theorem Put.nil (consistent : Consistent native) (split : native.nativeChildren q = first ++ last) :
    Put native q first [] last native where
  children := by
    rw [append_nil, ← split, update_eq_self]
  parent n := by simp
  consistent := consistent
  operations := .refl _ native

variable {one two : List Tag}

theorem Put.append (putOne : Put native q first one last middle)
    (putTwo : Put middle q (first ++ one) two last after) :
    Put native q first (one ++ two) last after where
  children := by
    rw [putTwo.children, putOne.children, update_idem]
    simp
  parent n := by
    rw [putTwo.parent, putOne.parent]
    by_cases inOne : n ∈ one <;> by_cases inTwo : n ∈ two <;> simp [inOne, inTwo]
  consistent := putTwo.consistent
  operations := by
    apply (putOne.operations.mono _).trans (putTwo.operations.mono _)
    · rintro operation ⟨c, inOne, adds⟩
      exact ⟨c, mem_append_left _ inOne, adds⟩
    · rintro operation ⟨c, inTwo, adds⟩
      exact ⟨c, mem_append_right _ inTwo, adds⟩

theorem Ready.left (ready : Ready shadow native q first (one ++ two) last) :
    Ready shadow native q first one last where
  consistent := ready.consistent
  host := ready.host
  split := ready.split
  hidden := ready.hidden
  free e member := ready.free e (mem_append_left _ member)

theorem Ready.next (ready : Ready shadow native q first (one ++ two) last)
    (nodup : (one ++ two).Nodup) (shown : ∀ e ∈ one, shadow.getNativeKind e ≠ .none)
    (put : Put native q first one last middle) :
    Ready shadow middle q (first ++ one) two last where
  consistent := put.consistent
  host := ready.host
  split := by rw [put.children, update_self]
  hidden n isNone := by
    rw [put.parent, if_neg fun member => shown n member isNone]
    exact ready.hidden n isNone
  free e member := by
    rw [put.parent, if_neg fun earlier => (nodup_append.mp nodup).2.2 e earlier e member rfl]
    exact ready.free e (mem_append_right _ member)

theorem addNativeChildAt_spec {child : Tag} (ready : Ready shadow native q first [child] last)
    (shown : shadow.getNativeKind child ≠ .none) :
    ∃ added, native.addNativeChildAt shadow q child first.length = some added ∧
      Put native q first [child] last
        (added.enqueue (.manageChildren q { viewsToAdd := [⟨child, first.length⟩] })) := by
  -- The index is in range, and the view is in no list yet.
  have inRange : first.length ≤ (native.nativeChildren q).length := by
    rw [ready.split, length_append]
    omega
  have inserted : (native.nativeChildren q).insertIdx first.length child =
      first ++ [child] ++ last := by
    rw [ready.split, KeyedTree.insertIdx_between]
    simp
  have nowhere : ∀ r, child ∉ native.nativeChildren r := by
    intro r member
    have free := ready.free child (mem_singleton_self child)
    rw [(ready.consistent.parent_iff child r).mpr member] at free
    cases free
  have parent : ∀ n, update native.nativeParent child (some q) n =
      if n ∈ [child] then some q else native.nativeParent n := by
    intro n
    by_cases same : n = child
    · subst same
      simp
    · rw [update_of_ne same, if_neg (by simpa using same)]
  unfold addNativeChildAt
  rw [if_pos ⟨ready.host, shown, Int.natCast_nonneg _, Int.ofNat_le.mpr inRange⟩, Int.toNat_natCast,
    inserted]
  -- The fields of `Put`, and then those of `Consistent`.
  refine ⟨_, rfl, rfl, parent, ⟨?_, ?_, ?_⟩, .enqueue rfl ⟨child, by simp, _, rfl⟩⟩
  · intro n r
    change update native.nativeParent child (some q) n = some r ↔
      n ∈ update native.nativeChildren q (first ++ [child] ++ last) r
    have before := ready.consistent.parent_iff n r
    by_cases isQ : r = q
    · subst isQ
      rw [ready.split] at before
      by_cases same : n = child <;> simp [same, before]
    · rw [update_of_ne isQ]
      by_cases same : n = child
      · subst same
        simp [nowhere r, Ne.symm isQ]
      · simp [same, before]
  · intro r
    change (update native.nativeChildren q (first ++ [child] ++ last) r).Nodup
    by_cases isQ : r = q
    · subst isQ
      have nodup := ready.consistent.nodup r
      have apart := nowhere r
      rw [ready.split] at nodup apart
      rw [update_self, append_assoc, singleton_append, nodup_middle, nodup_cons]
      exact ⟨apart, nodup⟩
    · rw [update_of_ne isQ]
      exact ready.consistent.nodup r
  · apply replayed_enqueue ready.consistent.replayed
    rw [UIOperation.replay_addition inRange, inserted]
    rfl

end NativeTree

namespace Optimizer

open NativeTree

variable {shadow : ShadowTree} {F G H : Forest Tag} {native : NativeTree}

theorem detach_spec (shouldDelete : Bool) (node : Tag) (consistent : Consistent native) :
    ∃ after, detach shouldDelete node native = some after ∧
      Taken shouldDelete native [node] after := by
  unfold detach
  -- A view without a native parent is in no list, and nothing is to be done.
  cases found : native.nativeParent node with
  | none =>
    have nowhere : ∀ q, node ∉ native.nativeChildren q := by
      intro q member
      rw [(consistent.parent_iff node q).mpr member] at found
      cases found
    refine ⟨native, rfl, ?_, ?_, consistent, .refl _ native⟩
    · intro q
      rw [eq_comm, filter_eq_self]
      intro e member
      rw [decide_eq_true_iff, mem_singleton]
      rintro rfl
      exact nowhere q member
    · intro n
      by_cases same : n = node <;> simp [same, found]
  | some q =>
    have member := (consistent.parent_iff node q).mp found
    have inRange := idxOf_lt_length_iff.mpr member
    -- Otherwise it is taken out of the list of its parent, where it stands once.
    have isThere : (native.nativeChildren q)[(native.nativeChildren q).idxOf node]? = some node := by
      rw [getElem?_eq_getElem inRange, getElem_idxOf]
    have erased := HiddenEntries.eraseIdx_eq_filter (consistent.nodup q) isThere
    dsimp only
    unfold removeNativeChildAt
    rw [isThere]
    have children : ∀ r, update native.nativeChildren q
          ((native.nativeChildren q).eraseIdx ((native.nativeChildren q).idxOf node)) r =
        (native.nativeChildren r).filter fun e => e ∉ [node] := by
      intro r
      by_cases isQ : r = q
      · subst isQ
        rw [update_self, erased]
        simp
      · rw [update_of_ne isQ, eq_comm, filter_eq_self]
        intro e inR
        rw [decide_eq_true_iff, mem_singleton]
        rintro rfl
        have other := (consistent.parent_iff e r).mpr inR
        rw [found] at other
        exact isQ (Option.some.inj other).symm
    have parent : ∀ n, update native.nativeParent node none n =
        if n ∈ [node] then none else native.nativeParent n := by
      intro n
      by_cases same : n = node
      · subst same
        simp
      · rw [update_of_ne same, if_neg (by simpa using same)]
    refine ⟨_, rfl, children, parent, consistent.filter children parent ?_,
      .enqueue rfl ⟨q, node, by simp, found, _, rfl⟩⟩
    exact replayed_enqueue consistent.replayed (UIOperation.replay_removal _ inRange)

theorem foldlM_detach (shouldDelete : Bool) (nodes : List Tag) (consistent : Consistent native) :
    ∃ after, nodes.foldlM (fun native node => detach shouldDelete node native) native = some after ∧
      Taken shouldDelete native nodes after := by
  induction nodes generalizing native with
  | nil => exact ⟨native, rfl, .nil consistent⟩
  | cons node _ ih =>
    obtain ⟨_, detached, taken⟩ := detach_spec shouldDelete node consistent
    obtain ⟨after, done, takenRest⟩ := ih taken.consistent
    refine ⟨after, ?_, taken.append takenRest⟩
    rw [foldlM_cons, detached]
    exact done

theorem foldlM_swept {A : Type} (step : NativeTree → A → Option NativeTree) {removal : Tag → List A}
    {remove : NativeTree → Tag → Option NativeTree} {nodes : List Tag}
    (each : ∀ node ∈ nodes, ∀ native, remove native node = (removal node).foldlM step native) :
    nodes.foldlM remove native = (nodes.flatMap removal).foldlM step native := by
  induction nodes generalizing native with
  | nil => rfl
  | cons node _ ih =>
    rw [foldlM_cons, flatMap_cons, foldlM_append, each node mem_cons_self native]
    congr 1
    funext middle
    exact ih fun other member => each other (mem_cons_of_mem node member)

variable {fuel : ℕ}

theorem removeNodeFromParent_eq (shouldDelete : Bool) {x : Tag}
    (children : shadow.children = F.children) (enough : (F.tree x).height ≤ fuel) :
    removeNodeFromParent shadow shouldDelete fuel x native =
      (swept shadow.roles F x).foldlM (fun native node => detach shouldDelete node native)
        native := by
  induction fuel generalizing x native with
  | zero =>
    have positive := height_pos (F := F) x
    omega
  | succ fuel ih =>
    have below : ∀ c ∈ (F.children x).reverse, ∀ native,
        removeNodeFromParent shadow shouldDelete fuel c native =
          (swept shadow.roles F c).foldlM (fun native node => detach shouldDelete node native)
            native := by
      intro c member native
      apply ih
      have lower := height_child (mem_reverse.mp member)
      omega
    rw [removeNodeFromParent, swept_eq, foldlM_append, children]
    by_cases host : shadow.getNativeKind x = .parent
    · rw [if_pos host, if_pos (roles_hosts.mpr host)]
      simp
    · rw [if_neg host, if_neg (by rw [roles_hosts]; exact host), foldlM_swept _ below]
      cases (flatMap (swept shadow.roles F) (F.children x).reverse).foldlM
        (fun native node => detach shouldDelete node native) native <;> simp

section Add

variable {q x : Tag} {first last : List Tag} {add : Tag → Tag → ℤ → NativeTree → Option NativeTree}

def AddsContent (shadow : ShadowTree) (F : Forest Tag) (x : Tag)
    (add : Tag → Tag → ℤ → NativeTree → Option NativeTree) : Prop :=
  shadow.getNativeKind x ≠ .parent → ∀ (q : Tag) (first last : List Tag) (native : NativeTree),
    Ready shadow native q first (content shadow.roles F x) last →
    ∃ after, add q x first.length native = some after ∧
      Put native q first (content shadow.roles F x) last after

section

variable (adds : AddsContent shadow F x add)
  (ready : Ready shadow native q first (pieces shadow.roles F x) last)
include adds ready

theorem addSubtree_spec :
    ∃ after, (if shadow.getNativeKind x = .none then add q x first.length native
        else addNativeChild shadow add q x first.length native) = some after ∧
      Put native q first (pieces shadow.roles F x) last after := by
  -- One case for each native kind: what the node puts into the list of its host.
  cases kind : shadow.getNativeKind x with
  | none =>
    have same : pieces shadow.roles F x = content shadow.roles F x := by
      rw [pieces_of_not_host (roles_not_hosts.mpr (by rw [kind]; decide)), own,
        if_neg (by rw [roles_shown, kind]; simp), nil_append]
    rw [same] at ready ⊢
    exact adds (by rw [kind]; decide) q first last native ready
  | leaf =>
    have same : pieces shadow.roles F x = [x] ++ content shadow.roles F x := by
      rw [pieces_of_not_host (roles_not_hosts.mpr (by rw [kind]; decide)), own,
        if_pos (roles_shown.mpr (by rw [kind]; decide))]
    have nodup := nodup_pieces (K := shadow.roles) (F := F) x
    rw [same] at ready nodup ⊢
    obtain ⟨added, isAdded, put⟩ := addNativeChildAt_spec ready.left (by rw [kind]; decide)
    have next := ready.next nodup (by
      intro e member
      rw [mem_singleton.mp member, kind]
      decide) put
    obtain ⟨after, done, putContent⟩ := adds (by rw [kind]; decide) q _ last _ next
    refine ⟨after, ?_, put.append putContent⟩
    rw [if_neg (by decide), addNativeChild, isAdded]
    dsimp only
    rw [if_neg (by rw [kind]; decide), Int.toNat_natCast]
    simpa using done
  | parent =>
    have same : pieces shadow.roles F x = [x] := pieces_of_host (roles_hosts.mpr kind)
    rw [same] at ready ⊢
    obtain ⟨added, isAdded, put⟩ := addNativeChildAt_spec ready (by rw [kind]; decide)
    refine ⟨_, ?_, put⟩
    rw [if_neg (by decide), addNativeChild, isAdded]
    dsimp only
    rw [if_pos kind, Int.toNat_natCast]

theorem addGrandchild_spec :
    ∃ after, addGrandchild shadow add q (native, first.length) x =
        some (after, ((first ++ pieces shadow.roles F x).length : ℤ)) ∧
      Put native q first (pieces shadow.roles F x) last after := by
  obtain ⟨after, added, put⟩ := addSubtree_spec adds ready
  have free : native.nativeParent x = none := by
    by_cases isShown : shadow.getNativeKind x = .none
    · exact ready.hidden x isShown
    · exact ready.free x (mem_pieces.mpr (.inl ⟨rfl, roles_shown.mpr isShown⟩))
  refine ⟨after, ?_, put⟩
  unfold addGrandchild
  dsimp only
  rw [if_neg (by rw [free]; simp), added, Option.map_some, put.children, update_self, ready.split]
  simp

end

theorem addGrandchildren_loop {nodes : List Tag} (adds : ∀ c ∈ nodes, AddsContent shadow F c add)
    (nodup : (nodes.flatMap (pieces shadow.roles F)).Nodup)
    (ready : Ready shadow native q first (nodes.flatMap (pieces shadow.roles F)) last) :
    ∃ after, (nodes.foldlM (addGrandchild shadow add q) (native, (first.length : ℤ))).map Prod.fst =
        some after ∧ Put native q first (nodes.flatMap (pieces shadow.roles F)) last after := by
  induction nodes generalizing native first with
  | nil => exact ⟨native, rfl, .nil ready.consistent ready.split⟩
  | cons c _ ih =>
    obtain ⟨_, turned, put⟩ := addGrandchild_spec (adds c mem_cons_self) ready.left
    have next := ready.next nodup
      (fun e member => roles_shown.mp (shown_of_mem_pieces member)) put
    obtain ⟨after, done, putRest⟩ := ih
      (fun other member => adds other (mem_cons_of_mem c member))
      (nodup_append.mp nodup).2.1 next
    refine ⟨after, ?_, put.append putRest⟩
    rw [foldlM_cons, turned]
    exact done

theorem addGrandchildren_spec {fuel : ℕ} (children : shadow.children = F.children)
    (enough : (F.tree x).height ≤ fuel) : AddsContent shadow F x (addGrandchildren shadow fuel) := by
  induction fuel generalizing x with
  | zero =>
    have positive := height_pos (F := F) x
    omega
  | succ fuel ih =>
    intro notHost q first last native ready
    rw [addGrandchildren, if_neg notHost, children]
    apply addGrandchildren_loop _ (nodup_content x) ready
    intro c child
    apply ih
    have lower := height_child child
    omega

end Add

theorem walkUpUntilNativeKindIsParent_hosted {n q : Tag} {before after : List Tag}
    (valid : Valid shadow F) (path : HostedAt shadow.roles F n q before after)
    (enough : shadow.depth < fuel + (F.tree n).height) (index : ℤ) :
    walkUpUntilNativeKindIsParent shadow fuel n index = some (some (q, index + before.length)) := by
  induction path generalizing fuel index with
  | @here n host =>
    have height := valid.height_le n
    obtain ⟨fuel, rfl⟩ : ∃ less, fuel = less + 1 := Nat.exists_eq_succ_of_ne_zero (by omega)
    rw [walkUpUntilNativeKindIsParent, if_pos (roles_hosts.mp host)]
    simp
  | @above n p q _ _ before after notHost siblings _ ih =>
    have child : n ∈ F.children p := by
      rw [siblings]
      simp
    have height := valid.height_le n
    have lower := height_child child
    obtain ⟨fuel, rfl⟩ : ∃ less, fuel = less + 1 := Nat.exists_eq_succ_of_ne_zero (by omega)
    rw [walkUpUntilNativeKindIsParent, if_neg (roles_not_hosts.mp notHost),
      (valid.parent n p).mpr child]
    dsimp only
    rw [getNativeOffsetForChild_spec valid siblings]
    dsimp only
    rw [ih (by omega)]
    -- A node with a view of its own comes before what is below it.
    have isLeaf : (if shadow.getNativeKind n = .leaf then (1 : ℤ) else 0) =
        (own shadow.roles n).length := by
      have notParent := roles_not_hosts.mp notHost
      rw [length_own]
      cases kind : shadow.getNativeKind n with
      | parent => exact absurd kind notParent
      | leaf => rfl
      | none => rfl
    simp only [length_append, Nat.cast_add]
    congr 3
    omega

theorem walkUpUntilNativeKindIsParent_unhosted {n : Tag}
    (valid : Valid shadow F) (unhosted : ∀ q, ¬ Hosted shadow.roles F n q)
    (enough : shadow.depth < fuel + (F.tree n).height) (index : ℤ) :
    walkUpUntilNativeKindIsParent shadow fuel n index = some none := by
  induction fuel generalizing n index with
  | zero =>
    have height := valid.height_le n
    omega
  | succ fuel ih =>
    have notHost : shadow.roles.hosts n = false := by
      cases host : shadow.roles.hosts n with
      | false => rfl
      | true => exact absurd ⟨[], [], .here host⟩ (unhosted n)
    rw [walkUpUntilNativeKindIsParent, if_neg (roles_not_hosts.mp notHost)]
    cases above : shadow.parent n with
    | none => rfl
    | some p =>
      have child := (valid.parent n p).mp above
      have lower := height_child child
      obtain ⟨left, right, siblings⟩ := append_of_mem child
      dsimp only
      rw [getNativeOffsetForChild_spec valid siblings]
      apply ih _ (by omega)
      intro q hosted
      exact unhosted q (hosted_child notHost child hosted)

/-! ### Lists that follow the shadow tree

The forest `G` is what the native lists show while `F` is the shadow tree, in which all
changes have been made already. -/

section Follow

variable {m x : Tag} {left right rest : List Tag}

structure Awaited (shadow : ShadowTree) (F G : Forest Tag) (m x : Tag)
    (left right rest : List Tag) : Prop where
  valid : Valid shadow F
  part : ∀ n, G.children n ⊆ F.children n
  agree : ∀ n, ¬ F.Descends m n → G.children n = F.children n
  samePieces : ∀ c ∈ left ++ [x], pieces shadow.roles G c = pieces shadow.roles F c
  old : G.children m = left ++ right
  final : F.children m = left ++ x :: rest

theorem hosted_of_part {n q : Tag} {K : Roles Tag} (part : ∀ n, G.children n ⊆ F.children n)
    (hosted : Hosted K G n q) : Hosted K F n q := by
  obtain ⟨before, after, path⟩ := hosted
  induction path with
  | here host => exact ⟨[], [], .here host⟩
  | @above n p q _ _ before after notHost siblings _ ih =>
    apply hosted_child notHost (part p _) ih
    rw [siblings]
    simp

theorem addNodeToNode_spec (awaited : Awaited shadow F G m x left right rest)
    (mirrors : Mirrors shadow.roles G native.nativeChildren native.nativeParent)
    (consistent : Consistent native) (differ : ∀ n, n ≠ m → H.children n = G.children n)
    (new : H.children m = left ++ x :: right) :
    ∃ after, addNodeToNode shadow m x left.length native = some after ∧
      Mirrors shadow.roles H after.nativeChildren after.nativeParent ∧ Consistent after ∧
      Logs (fun operation => ∃ q, Hosted shadow.roles F m q ∧
        ∃ c ∈ pieces shadow.roles F x, operation.Adds q c) native after := by
  obtain ⟨valid, part, agree, samePieces, old, final⟩ := awaited
  have found : (shadow.children m)[left.length]? = some x := by
    rw [valid.children, final]
    simp
  have positive := height_pos (F := F) m
  unfold addNodeToNode
  rw [found]
  dsimp only
  rw [getNativeOffsetForChild_spec valid final]
  dsimp only
  -- Either some node hosts this place, or the subtree is not shown at all.
  by_cases isHosted : ∃ q, Hosted shadow.roles F m q
  · obtain ⟨q, before, after, path⟩ := isHosted
    have pathG := path.congr agree
    have sameLeft : left.flatMap (pieces shadow.roles G) = left.flatMap (pieces shadow.roles F) :=
      flatMap_congr fun c member => samePieces c (mem_append_left _ member)
    have sameX := samePieces x (by simp)
    have host := host_of_hosted ⟨_, _, path⟩
    have inserted := mirrors.insert differ old new pathG
    rw [sameLeft, sameX] at inserted
    -- The node is new at this place, and has no other parent.
    have noParent : ∀ p, x ∉ G.children p := by
      intro p child
      by_cases isM : p = m
      · subst isM
        have nodup := H.nodup p
        rw [new, nodup_middle, nodup_cons] at nodup
        rw [old] at child
        exact nodup.1 child
      · rw [← differ p isM] at child
        exact isM (H.unique child (by rw [new]; simp))
    have ready : Ready shadow native q (before ++ left.flatMap (pieces shadow.roles F))
        (pieces shadow.roles F x) (right.flatMap (pieces shadow.roles G) ++ after) := by
      constructor
      · exact consistent
      · exact roles_hosts.mp host
      · rw [mirrors.list_of_host host, content_eq_of_hostedAt pathG, content, old, ← sameLeft]
        simp
      · intro n isNone
        cases isSome : native.nativeParent n with
        | none => rfl
        | some r =>
          have member := (mirrors.host_of_mem ((mirrors.hostOf_iff n r).mp isSome)).2
          exact absurd isNone (roles_shown.mp (shown_of_mem_content member))
      · intro e member
        rw [← sameX] at member
        exact mirrors.hostOf_of_mem_pieces noParent member
    obtain ⟨native', added, put⟩ := addSubtree_spec
      (addGrandchildren_spec valid.children (valid.height_le x)) ready
    refine ⟨native', ?_, ?_, put.consistent, ?_⟩
    · rw [walkUpUntilNativeKindIsParent_hosted valid path (by omega)]
      rw [← added]
      have place : ((left.flatMap (pieces shadow.roles F)).length : ℤ) + before.length =
          (before ++ left.flatMap (pieces shadow.roles F)).length := by
        rw [length_append, Nat.cast_add, Int.add_comm]
      rw [place]
    · rw [put.children, show native'.nativeParent = _ from funext put.parent]
      exact inserted
    · exact put.operations.mono fun operation adds => ⟨q, ⟨_, _, path⟩, adds⟩
  · have unhosted : ∀ q, ¬ Hosted shadow.roles F m q := fun q hosted => isHosted ⟨q, hosted⟩
    refine ⟨native, ?_, ?_, consistent, .refl _ native⟩
    · rw [walkUpUntilNativeKindIsParent_unhosted valid unhosted (by omega)]
    · exact mirrors.unhosted differ fun q hosted => unhosted q (hosted_of_part part hosted)

theorem removeNodeFromParent_spec (shouldDelete : Bool) (linked : Linked shadow F)
    (sameTree : F.tree x = G.tree x)
    (mirrors : Mirrors shadow.roles G native.nativeChildren native.nativeParent)
    (consistent : Consistent native) (old : G.children m = left ++ x :: right)
    (differ : ∀ n, n ≠ m → H.children n = G.children n) (new : H.children m = left ++ right) :
    ∃ after, removeNodeFromParent shadow shouldDelete shadow.depth x native = some after ∧
      Mirrors shadow.roles H after.nativeChildren after.nativeParent ∧ Consistent after ∧
      Logs (fun operation => ∃ q, Hosted shadow.roles G m q ∧
        ∃ e ∈ swept shadow.roles G x, operation.Removes shouldDelete q e) native after := by
  have sameSwept : swept shadow.roles F x = swept shadow.roles G x := by
    rw [swept, swept, sameTree]
  have child : x ∈ G.children m := by
    rw [old]
    simp
  obtain ⟨after, done, taken⟩ := foldlM_detach shouldDelete (swept shadow.roles G x) consistent
  refine ⟨after, ?_, ?_, taken.consistent, ?_⟩
  · rw [removeNodeFromParent_eq shouldDelete linked.children (linked.height_le x), sameSwept, done]
  · rw [show after.nativeChildren = _ from funext taken.children,
      show after.nativeParent = _ from funext taken.parent]
    exact mirrors.remove differ old new
  · apply taken.operations.mono
    rintro operation ⟨q, e, inside, isSome, removes⟩
    obtain ⟨host, inContent⟩ := mirrors.host_of_mem ((mirrors.hostOf_iff e q).mp isSome)
    obtain ⟨isShown, p, parent, hostedP⟩ := (mem_content_iff host).mp inContent
    have visible := (mem_swept_iff isShown).mp inside
    exact ⟨q, (hosted_of_mem_pieces visible child parent).mp hostedP, e, inside, removes⟩

end Follow

end Optimizer

end ReactNative


