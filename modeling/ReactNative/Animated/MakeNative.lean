import ReactNative.Animated.NativeTags
import Mathlib.Algebra.BigOperators.Group.Finset.Basic
import Mathlib.Data.Fintype.Card
import Mathlib.Tactic.Abel

/-! A node that becomes native connects itself to all its children, once, and makes them native; a
node that depends on parents makes these native first. -/
namespace ReactNative

open Loops List AnimatedNode

namespace AnimatedNodes

variable {count : ℕ} {nodes after : AnimatedNodes count} {n child : Fin count}
  {connected : Multiset (Fin count × Fin count)}

def edgesFrom (nodes : AnimatedNodes count) (n : Fin count) : Multiset (Fin count × Fin count) :=
  if (nodes.node n).isNative then ((nodes.node n).children.map (Prod.mk n) : List _) else 0

def edges (nodes : AnimatedNodes count) : Multiset (Fin count × Fin count) :=
  Finset.univ.sum nodes.edgesFrom

def Held (nodes : AnimatedNodes count) (n : Fin count) : Prop :=
  (nodes.node n).children ≠ [] ∨ (∃ parent, n ∈ (nodes.node parent).children) ∨
    (nodes.node n).listeners ≠ ∅

theorem edges_congr (children : ∀ m, (after.node m).children = (nodes.node m).children)
    (native : ∀ m, (after.node m).isNative = (nodes.node m).isNative) :
    after.edges = nodes.edges := by
  refine Finset.sum_congr rfl fun m _ => ?_
  rw [edgesFrom, edgesFrom, children, native]

theorem edges_modify (nodes : AnimatedNodes count) (n : Fin count)
    (change : AnimatedNode count → AnimatedNode count) :
    (nodes.modify n change).edges + nodes.edgesFrom n =
      nodes.edges + (nodes.modify n change).edgesFrom n := by
  have rest : (Finset.univ.erase n).sum (nodes.modify n change).edgesFrom =
      (Finset.univ.erase n).sum nodes.edgesFrom := by
    refine Finset.sum_congr rfl fun m member => ?_
    rw [edgesFrom, edgesFrom, modify_node_of_ne _ _ (Finset.ne_of_mem_erase member)]
  have before := Finset.add_sum_erase Finset.univ nodes.edgesFrom (Finset.mem_univ n)
  have later := Finset.add_sum_erase Finset.univ (nodes.modify n change).edgesFrom
    (Finset.mem_univ n)
  rw [edges, edges, ← before, ← later, rest]
  abel

structure Grows (nodes after : AnimatedNodes count) : Prop where
  kept : ∀ m tag, (nodes.node m).nativeTag = some tag → (after.node m).nativeTag = some tag
  created : ∀ m, (after.node m).nativeTag ≠ none → (nodes.node m).nativeTag ≠ none ∨ nodes.Held m
  children : ∀ m, (after.node m).children = (nodes.node m).children
  listeners : ∀ m, (after.node m).listeners = (nodes.node m).listeners
  native : ∀ m, (nodes.node m).isNative = true → (after.node m).isNative = true
  queueConnections : after.queueConnections = nodes.queueConnections
  queue : nodes.queueConnections = false → after.queue = nodes.queue

theorem held_iff (children : ∀ m, (after.node m).children = (nodes.node m).children)
    (listeners : ∀ m, (after.node m).listeners = (nodes.node m).listeners) (m : Fin count) :
    after.Held m ↔ nodes.Held m := by
  unfold Held
  simp only [children, listeners]

theorem Grows.refl (nodes : AnimatedNodes count) : Grows nodes nodes :=
  ⟨fun _ _ => id, fun _ => Or.inl, fun _ => rfl, fun _ => rfl, fun _ => id, rfl, fun _ => rfl⟩

variable {between : AnimatedNodes count}

theorem Grows.trans (first : Grows nodes between)
    (second : Grows between after) : Grows nodes after where
  kept m tag isTag := second.kept m tag (first.kept m tag isTag)
  created m tagged := by
    rcases second.created m tagged with taggedBetween | held
    · exact first.created m taggedBetween
    · exact Or.inr ((held_iff first.children first.listeners m).mp held)
  children m := (second.children m).trans (first.children m)
  listeners m := (second.listeners m).trans (first.listeners m)
  native m isNative := second.native m (first.native m isNative)
  queueConnections := second.queueConnections.trans first.queueConnections
  queue unqueued :=
    (second.queue (first.queueConnections.trans unqueued)).trans (first.queue unqueued)

variable {named : Fin count → Prop}

theorem ReadsTags.grows (reads : ReadsTags named nodes after)
    (held : ∀ m, named m → nodes.Held m) : Grows nodes after where
  kept := reads.kept
  created m tagged := (reads.created m tagged).imp_right (held m)
  children := reads.children
  listeners := reads.listeners
  native m isNative := (reads.native m).trans isNative
  queueConnections := reads.queueConnections
  queue := reads.queue

theorem ReadsTags.edges (reads : ReadsTags named nodes after) :
    after.edges = nodes.edges := edges_congr reads.children reads.native

structure Nativizes (nodes : AnimatedNodes count) (connected : Multiset (Fin count × Fin count))
    (after : AnimatedNodes count) (connectedAfter : Multiset (Fin count × Fin count)) : Prop where
  grows : Grows nodes after
  closed : ∀ m, (nodes.node m).isNative = false → (after.node m).isNative = true →
    ∀ child ∈ (nodes.node m).children, (after.node child).isNative = true
  mirrors : after.Mirrors connectedAfter
  balance : connectedAfter + nodes.edges = connected + after.edges

theorem Nativizes.refl (mirrors : nodes.Mirrors connected) :
    Nativizes nodes connected nodes connected :=
  ⟨Grows.refl nodes, (fun _ notNative isNative => by cases notNative.symm.trans isNative), mirrors,
    rfl⟩

variable {connectedBetween : Multiset (Fin count × Fin count)}

theorem balance_trans {before middle later connectedLater : Multiset (Fin count × Fin count)}
    (first : connectedBetween + before = connected + middle)
    (second : connectedLater + middle = connectedBetween + later) :
    connectedLater + before = connected + later := by
  ext pair
  have firstCount := congrArg (Multiset.count pair) first
  have secondCount := congrArg (Multiset.count pair) second
  simp only [Multiset.count_add] at firstCount secondCount ⊢
  omega

theorem Nativizes.trans {connectedAfter : Multiset (Fin count × Fin count)}
    (first : Nativizes nodes connected between connectedBetween)
    (second : Nativizes between connectedBetween after connectedAfter) :
    Nativizes nodes connected after connectedAfter where
  grows := first.grows.trans second.grows
  closed m notNative isNative child member := by
    cases nativeBetween : (between.node m).isNative with
    | true => exact second.grows.native child (first.closed m notNative nativeBetween child member)
    | false =>
      rw [← first.grows.children m] at member
      exact second.closed m nativeBetween isNative child member
  mirrors := second.mirrors
  balance := balance_trans first.balance second.balance

theorem ReadsTags.nativizes (reads : ReadsTags named nodes after)
    (held : ∀ m, named m → nodes.Held m) (mirrors : after.Mirrors connected) :
    Nativizes nodes connected after connected where
  grows := reads.grows held
  closed m notNative isNative := by
    rw [reads.native m, notNative] at isNative
    cases isNative
  mirrors := mirrors
  balance := by rw [reads.edges]

/-! ### Fuel -/

def nonNative (nodes : AnimatedNodes count) : ℕ :=
  (Finset.univ.filter fun m => (nodes.node m).isNative = false).card

theorem nonNative_le_count (nodes : AnimatedNodes count) : nodes.nonNative ≤ count := by
  have bound := Finset.card_le_univ (Finset.univ.filter fun m => (nodes.node m).isNative = false)
  rw [Fintype.card_fin] at bound
  exact bound

theorem Grows.nonNative_le (grows : Grows nodes after) : after.nonNative ≤ nodes.nonNative := by
  refine Finset.card_le_card fun m member => ?_
  rw [Finset.mem_filter] at member ⊢
  refine ⟨member.1, ?_⟩
  by_contra isNative
  rw [Bool.not_eq_false] at isNative
  cases member.2.symm.trans (grows.native m isNative)

theorem nonNative_lt (native : ∀ m, (nodes.node m).isNative = true → (after.node m).isNative = true)
    (notNative : (nodes.node n).isNative = false) (isNative : (after.node n).isNative = true) :
    after.nonNative < nodes.nonNative := by
  refine Finset.card_lt_card (Finset.ssubset_iff_of_subset ?_ |>.mpr ⟨n, ?_, ?_⟩)
  · intro m member
    rw [Finset.mem_filter] at member ⊢
    refine ⟨member.1, ?_⟩
    by_contra nativeBefore
    rw [Bool.not_eq_false] at nativeBefore
    cases member.2.symm.trans (native m nativeBefore)
  · exact Finset.mem_filter.mpr ⟨Finset.mem_univ n, notNative⟩
  · intro member
    cases (Finset.mem_filter.mp member).2.symm.trans isNative

/-! ### The walk over the children -/

/-- The node has become native, and is connected to those of its children that are not still to
come. -/
structure ConnectingChildren (nodes : AnimatedNodes count)
    (connected : Multiset (Fin count × Fin count)) (n : Fin count) (rest : List (Fin count))
    (state : AnimatedNodes count) (connectedHere : Multiset (Fin count × Fin count)) : Prop where
  isChild : ∀ child ∈ rest, child ∈ (nodes.node n).children
  grows : Grows nodes state
  isNative : (state.node n).isNative = true
  closed : ∀ m, m ≠ n → (nodes.node m).isNative = false → (state.node m).isNative = true →
    ∀ child ∈ (nodes.node m).children, (state.node child).isNative = true
  children : ∀ child ∈ (nodes.node n).children, child ∈ rest ∨ (state.node child).isNative = true
  mirrors : state.Mirrors connectedHere
  balance : connectedHere + (rest.map (Prod.mk n) : List _) + nodes.edges = connected + state.edges

theorem grows_modify_native (nodes : AnimatedNodes count) (n : Fin count) :
    Grows nodes (nodes.modify n fun node => { node with isNative := true }) where
  kept m tag isTag := by
    rw [modify_node_eq nativeTag rfl]
    exact isTag
  created m tagged := by
    rw [modify_node_eq nativeTag rfl] at tagged
    exact Or.inl tagged
  children := modify_node_eq children rfl
  listeners := modify_node_eq listeners rfl
  native m isNative := by
    by_cases same : m = n
    · rw [same, modify_node_self]
    · rw [modify_node_of_ne _ _ same]
      exact isNative
  queueConnections := rfl
  queue _ := rfl

theorem edges_modify_native (notNative : (nodes.node n).isNative = false) :
    (nodes.modify n fun node => { node with isNative := true }).edges =
      nodes.edges + ((nodes.node n).children.map (Prod.mk n) : List _) := by
  have modified := nodes.edges_modify n fun node => { node with isNative := true }
  rw [edgesFrom, edgesFrom, notNative, modify_node_self] at modified
  simpa using modified

theorem ConnectingChildren.start (mirrors : nodes.Mirrors connected)
    (notNative : (nodes.node n).isNative = false) :
    ConnectingChildren nodes connected n (nodes.node n).children
      (nodes.modify n fun node => { node with isNative := true }) connected where
  isChild _ := id
  grows := grows_modify_native nodes n
  isNative := by rw [modify_node_self]
  closed m differs notNativeM isNative := by
    rw [modify_node_of_ne _ _ differs, notNativeM] at isNative
    cases isNative
  children child member := Or.inl member
  mirrors := mirrors.modify n _ rfl fun _ => rfl
  balance := by
    rw [edges_modify_native notNative, add_assoc, add_comm nodes.edges]

variable {state : AnimatedNodes count} {connectedHere : Multiset (Fin count × Fin count)}

theorem ConnectingChildren.next {rest : List (Fin count)}
    (connecting : ConnectingChildren nodes connected n (child :: rest) state connectedHere)
    (nativizes : Nativizes state connectedHere between connectedBetween)
    (childNative : (between.node child).isNative = true) :
    ConnectingChildren nodes connected n rest (between.connect n child)
      ((n, child) ::ₘ connectedBetween) := by
  have grows := connecting.grows.trans nativizes.grows
  have nativeBetween := nativizes.grows.native n connecting.isNative
  obtain ⟨mirrors, reads⟩ := nativizes.mirrors.connect nativeBetween childNative
  have isChild := connecting.isChild child mem_cons_self
  -- Both ends of the new connection are held, by the list of children of `n`.
  have held : ∀ m, m = n ∨ m = child → between.Held m := by
    rw [← grows.children n] at isChild
    rintro m (rfl | rfl)
    · exact Or.inl (ne_nil_of_mem isChild)
    · exact Or.inr (Or.inl ⟨n, isChild⟩)
  refine ⟨fun other member => connecting.isChild other (mem_cons_of_mem _ member),
    grows.trans (reads.grows held), (reads.native n).trans nativeBetween, ?_, ?_, mirrors, ?_⟩
  -- A node that has become native in between has only native children, `n` apart.
  · intro m differs notNative isNative other member
    rw [reads.native] at isNative ⊢
    cases nativeState : (state.node m).isNative with
    | true =>
      exact nativizes.grows.native other
        (connecting.closed m differs notNative nativeState other member)
    | false =>
      rw [← connecting.grows.children m] at member
      exact nativizes.closed m nativeState isNative other member
  · intro other member
    rw [reads.native]
    rcases connecting.children other member with inRest | isNative
    · rcases mem_cons.mp inRest with rfl | later
      · exact Or.inr childNative
      · exact Or.inl later
    · exact Or.inr (nativizes.grows.native other isNative)
  -- Each connection is counted once: those made in between, then that of `n` and `child`.
  · rw [reads.edges]
    ext pair
    have before := congrArg (Multiset.count pair) connecting.balance
    have here := congrArg (Multiset.count pair) nativizes.balance
    simp only [Multiset.count_add, map_cons, ← Multiset.cons_coe, Multiset.count_cons]
      at before here ⊢
    omega

theorem ConnectingChildren.nativizes
    (connecting : ConnectingChildren nodes connected n [] state connectedHere) :
    Nativizes nodes connected state connectedHere where
  grows := connecting.grows
  closed m notNative isNative child member := by
    by_cases same : m = n
    · subst same
      rcases connecting.children child member with none | childNative
      · cases none
      · exact childNative
    · exact connecting.closed m same notNative isNative child member
  mirrors := connecting.mirrors
  balance := by simpa using connecting.balance

section

variable {parents : Fin count → List (Fin count)}

/-- **`makeNative` makes a node native with all that this entails**: it ends, and each node that
has become native is connected to each of its children once. -/
theorem makeNative_spec (older : ∀ n, ∀ parent ∈ parents n, parent < n) {fuel : ℕ}
    (mirrors : nodes.Mirrors connected) (enough : nodes.nonNative * (count + 1) + n < fuel) :
    ∃ after connectedAfter, makeNative parents fuel nodes n = some after ∧
      Nativizes nodes connected after connectedAfter ∧ (after.node n).isNative = true := by
  induction fuel generalizing nodes n connected with
  | zero => exact absurd enough (Nat.not_lt_zero _)
  | succ fuel ih =>
    -- The parents are older.
    obtain ⟨made, parentsLoop, -, connectedMade, nativizesMade⟩ := foldlM_countdown
      (makeNative parents fuel) (fun rest state => (∀ parent ∈ rest, parent < n) ∧
        ∃ connectedHere, Nativizes nodes connected state connectedHere) (by
        rintro parent rest state ⟨before, connectedHere, nativizes⟩
        have smaller : (parent : ℕ) < n := before parent mem_cons_self
        have fewer := Nat.mul_le_mul_right (count + 1) nativizes.grows.nonNative_le
        obtain ⟨next, connectedNext, makes, nativizesNext, -⟩ :=
          ih nativizes.mirrors (by omega : state.nonNative * (count + 1) + parent < fuel)
        exact ⟨next, makes, fun other member => before other (mem_cons_of_mem _ member),
          connectedNext, nativizes.trans nativizesNext⟩)
      (⟨older n, connected, Nativizes.refl mirrors⟩ : (∀ parent ∈ parents n, parent < n) ∧
          ∃ connectedHere, Nativizes nodes connected nodes connectedHere)
    have fewerMade := Nat.mul_le_mul_right (count + 1) nativizesMade.grows.nonNative_le
    -- The node itself, with its children if it was not native.
    have itself : ∃ between connectedBetween, (if (made.node n).isNative then some made
          else (made.node n).children.foldlM
            (fun nodes child =>
              (makeNative parents fuel nodes child).map fun nodes => nodes.connect n child)
            (made.modify n fun node => { node with isNative := true })) = some between ∧
        Nativizes made connectedMade between connectedBetween ∧
        (between.node n).isNative = true := by
      cases isNative : (made.node n).isNative with
      | true => exact ⟨made, connectedMade, rfl, Nativizes.refl nativizesMade.mirrors, isNative⟩
      | false =>
        obtain ⟨final, childrenLoop, connectedFinal, connecting⟩ := foldlM_countdown
          (fun nodes child =>
            (makeNative parents fuel nodes child).map fun nodes => nodes.connect n child)
          (fun rest state => ∃ connectedHere,
            ConnectingChildren made connectedMade n rest state connectedHere) (by
            rintro child rest state ⟨connectedHere, connecting⟩
            have fewer := nonNative_lt connecting.grows.native isNative connecting.isNative
            have room := Nat.mul_le_mul_right (count + 1) (Nat.succ_le_of_lt fewer)
            obtain ⟨next, connectedNext, makes, nativizes, childNative⟩ :=
              ih connecting.mirrors (by
                rw [Nat.succ_mul] at room
                omega : state.nonNative * (count + 1) + child < fuel)
            refine ⟨next.connect n child, ?_, _, connecting.next nativizes childNative⟩
            rw [makes]
            rfl)
          ⟨connectedMade, ConnectingChildren.start nativizesMade.mirrors isNative⟩
        exact ⟨final, connectedFinal, childrenLoop, connecting.nativizes, connecting.isNative⟩
    obtain ⟨between, connectedBetween, makesItself, nativizesBetween, isNative⟩ := itself
    have whole := nativizesMade.trans nativizesBetween
    have makes : makeNative parents (fuel + 1) nodes n =
        if (between.node n).listeners = ∅ then some between
        else some (between.startListeningToNativeValueUpdates n) := by
      rw [makeNative, parentsLoop, Option.bind_some, makesItself, Option.bind_some]
    rw [makes]
    split
    next => exact ⟨between, connectedBetween, rfl, whole, isNative⟩
    next listened =>
      obtain ⟨mirrorsAfter, reads⟩ := whole.mirrors.startListening isNative
      have held : ∀ m, m = n → between.Held m := by
        rintro m rfl
        exact Or.inr (Or.inr listened)
      exact ⟨_, connectedBetween, rfl, whole.trans (reads.nativizes held mirrorsAfter),
        (reads.native n).trans isNative⟩

theorem enough_fuel (nodes : AnimatedNodes count) (n : Fin count) :
    nodes.nonNative * (count + 1) + n < nativeFuel count := by
  have few := Nat.mul_le_mul_right (count + 1) nodes.nonNative_le_count
  rw [nativeFuel, Nat.succ_mul]
  omega

/-! ### Adding a child -/

/-- The children of native nodes are native. -/
def Closed (nodes : AnimatedNodes count) : Prop :=
  ∀ m, (nodes.node m).isNative = true →
    ∀ child ∈ (nodes.node m).children, (nodes.node child).isNative = true

structure Adds (nodes : AnimatedNodes count) (connected : Multiset (Fin count × Fin count))
    (after : AnimatedNodes count) (connectedAfter : Multiset (Fin count × Fin count)) : Prop where
  created : ∀ m, (after.node m).nativeTag ≠ none → (nodes.node m).nativeTag ≠ none ∨ after.Held m
  children : ∀ m, ∀ child ∈ (nodes.node m).children, child ∈ (after.node m).children
  listeners : ∀ m, (after.node m).listeners = (nodes.node m).listeners
  native : ∀ m, (nodes.node m).isNative = true → (after.node m).isNative = true
  queueConnections : after.queueConnections = nodes.queueConnections
  queue : nodes.queueConnections = false → after.queue = nodes.queue
  closed : nodes.Closed → after.Closed
  mirrors : after.Mirrors connectedAfter
  balance : connectedAfter + nodes.edges = connected + after.edges

theorem held_of_more (children : ∀ m, ∀ child ∈ (nodes.node m).children,
      child ∈ (after.node m).children)
    (listeners : ∀ m, (after.node m).listeners = (nodes.node m).listeners) {m : Fin count}
    (held : nodes.Held m) : after.Held m := by
  rcases held with hasChildren | ⟨parent, isChild⟩ | listened
  · obtain ⟨child, isChild⟩ := exists_mem_of_ne_nil _ hasChildren
    exact Or.inl (ne_nil_of_mem (children m child isChild))
  · exact Or.inr (Or.inl ⟨parent, children parent m isChild⟩)
  · exact Or.inr (Or.inr (by rw [listeners]; exact listened))

variable {connectedAfter : Multiset (Fin count × Fin count)}

theorem Nativizes.adds (nativizes : Nativizes nodes connected after connectedAfter) :
    Adds nodes connected after connectedAfter where
  created m tagged := (nativizes.grows.created m tagged).imp_right
    (held_iff nativizes.grows.children nativizes.grows.listeners m).mpr
  children m child isChild := by
    rw [nativizes.grows.children]
    exact isChild
  listeners := nativizes.grows.listeners
  native := nativizes.grows.native
  queueConnections := nativizes.grows.queueConnections
  queue := nativizes.grows.queue
  closed isClosed m isNative child isChild := by
    rw [nativizes.grows.children] at isChild
    cases nativeBefore : (nodes.node m).isNative with
    | true => exact nativizes.grows.native child (isClosed m nativeBefore child isChild)
    | false => exact nativizes.closed m nativeBefore isNative child isChild
  mirrors := nativizes.mirrors
  balance := nativizes.balance

theorem Adds.trans {between : AnimatedNodes count}
    {connectedBetween : Multiset (Fin count × Fin count)}
    (first : Adds nodes connected between connectedBetween)
    (second : Adds between connectedBetween after connectedAfter) :
    Adds nodes connected after connectedAfter where
  created m tagged := by
    rcases second.created m tagged with taggedBetween | held
    · exact (first.created m taggedBetween).imp_right
        (held_of_more second.children second.listeners)
    · exact Or.inr held
  children m child isChild := second.children m child (first.children m child isChild)
  listeners m := (second.listeners m).trans (first.listeners m)
  native m isNative := second.native m (first.native m isNative)
  queueConnections := second.queueConnections.trans first.queueConnections
  queue unqueued :=
    (second.queue (first.queueConnections.trans unqueued)).trans (first.queue unqueued)
  closed isClosed := second.closed (first.closed isClosed)
  mirrors := second.mirrors
  balance := balance_trans first.balance second.balance

theorem Adds.refl (mirrors : nodes.Mirrors connected) : Adds nodes connected nodes connected :=
  (Nativizes.refl mirrors).adds

theorem mem_children_push (nodes : AnimatedNodes count) (n child m other : Fin count) :
    other ∈ ((nodes.modify n fun node =>
        { node with children := node.children ++ [child] }).node m).children ↔
      other ∈ (nodes.node m).children ∨ m = n ∧ other = child := by
  by_cases same : m = n
  · subst same
    simp
  · simp [same]

theorem adds_push (mirrors : nodes.Mirrors connected)
    (notNative : (nodes.node n).isNative = false) :
    Adds nodes connected (nodes.modify n fun node =>
      { node with children := node.children ++ [child] }) connected where
  created m tagged := by
    rw [modify_node_eq nativeTag rfl] at tagged
    exact Or.inl tagged
  children m other isChild := (mem_children_push nodes n child m other).mpr (Or.inl isChild)
  listeners := modify_node_eq listeners rfl
  native m isNative := by
    rw [modify_node_eq AnimatedNode.isNative rfl]
    exact isNative
  queueConnections := rfl
  queue _ := rfl
  closed isClosed m isNative other isChild := by
    rw [modify_node_eq AnimatedNode.isNative rfl] at isNative ⊢
    rcases (mem_children_push nodes n child m other).mp isChild with isOld | ⟨rfl, rfl⟩
    · exact isClosed m isNative other isOld
    · cases notNative.symm.trans isNative
  mirrors := mirrors.modify n _ rfl id
  -- `n` is not native, so that neither list of its connections counts.
  balance := by
    have modified := nodes.edges_modify n fun node =>
      { node with children := node.children ++ [child] }
    have none : nodes.edgesFrom n = 0 := by
      rw [edgesFrom, notNative]
      rfl
    have noneAfter : (nodes.modify n fun node =>
        { node with children := node.children ++ [child] }).edgesFrom n = 0 := by
      rw [edgesFrom, modify_node_self, notNative]
      rfl
    rw [none, noneAfter, add_zero, add_zero] at modified
    rw [modified]

theorem adds_connect {made : AnimatedNodes count} {connectedMade : Multiset (Fin count × Fin count)}
    (isNative : (nodes.node n).isNative = true)
    (nativizes : Nativizes (nodes.modify n fun node =>
      { node with children := node.children ++ [child] }) connected made connectedMade)
    (childNative : (made.node child).isNative = true) :
    Adds nodes connected (made.connect n child) ((n, child) ::ₘ connectedMade) := by
  have nativePushed : ((nodes.modify n fun node =>
      { node with children := node.children ++ [child] }).node n).isNative = true := by
    rw [modify_node_self]
    exact isNative
  have nativeMade := nativizes.grows.native n nativePushed
  obtain ⟨mirrors, reads⟩ := nativizes.mirrors.connect nativeMade childNative
  have children : ∀ m other, other ∈ ((made.connect n child).node m).children ↔
      other ∈ (nodes.node m).children ∨ m = n ∧ other = child := by
    intro m other
    rw [reads.children, nativizes.grows.children]
    exact mem_children_push nodes n child m other
  have isChild : child ∈ ((made.connect n child).node n).children :=
    (children n child).mpr (Or.inr ⟨rfl, rfl⟩)
  -- The fields in the order of `Adds`: what is held, the lists, the flags, the queue, the balance.
  refine ⟨?_, ?_, ?_, ?_, ?_, ?_, ?_, mirrors, ?_⟩
  · intro m tagged
    rcases reads.created m tagged with taggedMade | rfl | rfl
    · rcases nativizes.grows.created m taggedMade with taggedPushed | held
      · rw [modify_node_eq nativeTag rfl] at taggedPushed
        exact Or.inl taggedPushed
      · rw [← held_iff nativizes.grows.children nativizes.grows.listeners,
          ← held_iff reads.children reads.listeners] at held
        exact Or.inr held
    · exact Or.inr (Or.inl (ne_nil_of_mem isChild))
    · exact Or.inr (Or.inr (Or.inl ⟨n, isChild⟩))
  · intro m other isOther
    exact (children m other).mpr (Or.inl isOther)
  · intro m
    rw [reads.listeners, nativizes.grows.listeners, modify_node_eq listeners rfl]
  · intro m nativeBefore
    rw [reads.native]
    apply nativizes.grows.native
    rw [modify_node_eq AnimatedNode.isNative rfl]
    exact nativeBefore
  · rw [reads.queueConnections, nativizes.grows.queueConnections]
    rfl
  · intro unqueued
    rw [reads.queue (nativizes.grows.queueConnections.trans unqueued),
      nativizes.grows.queue unqueued]
    rfl
  · intro isClosed m nativeAfter other isOther
    rw [reads.native] at nativeAfter ⊢
    -- A child of old is native by `closed`; the pushed one has just been made so.
    rcases (children m other).mp isOther with isOld | ⟨-, rfl⟩
    · cases nativeBefore : (nodes.node m).isNative with
      | true =>
        apply nativizes.grows.native
        rw [modify_node_eq AnimatedNode.isNative rfl]
        exact isClosed m nativeBefore other isOld
      | false =>
        refine nativizes.closed m ?_ nativeAfter other ?_
        · rw [modify_node_eq AnimatedNode.isNative rfl]
          exact nativeBefore
        · exact (mem_children_push nodes n child m other).mpr (Or.inl isOld)
    · exact childNative
  -- Pushing the child into the list of a native node adds one edge from it, the one connected.
  · have modified := nodes.edges_modify n fun node =>
      { node with children := node.children ++ [child] }
    have pushed : (nodes.modify n fun node =>
        { node with children := node.children ++ [child] }).edgesFrom n =
          nodes.edgesFrom n + {(n, child)} := by
      rw [edgesFrom, edgesFrom, modify_node_self, isNative]
      simp only [if_true, map_append, map_cons, map_nil, ← Multiset.coe_add]
      rfl
    rw [reads.edges]
    ext pair
    have here := congrArg (Multiset.count pair) modified
    have made := congrArg (Multiset.count pair) nativizes.balance
    rw [pushed] at here
    simp only [Multiset.count_add, Multiset.count_cons, Multiset.count_singleton] at here made ⊢
    omega

/-- **`addChild` always ends**, and connects what it puts into the lists of native nodes. -/
theorem addChild_spec (older : ∀ n, ∀ parent ∈ parents n, parent < n) {fuel : ℕ}
    (mirrors : nodes.Mirrors connected) (enough : (n : ℕ) < fuel) (child : Fin count) :
    ∃ after connectedAfter, addChild parents fuel nodes n child = some after ∧
      Adds nodes connected after connectedAfter := by
  -- Induction on the fuel: each parent is older than `n`, so that the walk up ends.
  induction fuel generalizing nodes n connected child with
  | zero => exact absurd enough (Nat.not_lt_zero _)
  | succ fuel ih =>
    -- A node without children is attached to all of its parents first.
    have attached : ∃ between connectedBetween,
        (if (nodes.node n).children = [] then
            (parents n).foldlM (fun nodes parent => addChild parents fuel nodes parent n) nodes
          else some nodes) = some between ∧ Adds nodes connected between connectedBetween := by
      split
      next =>
        obtain ⟨between, loops, -, connectedBetween, adds⟩ := foldlM_countdown
          (fun nodes parent => addChild parents fuel nodes parent n)
          (fun rest state => (∀ parent ∈ rest, parent < n) ∧
            ∃ connectedHere, Adds nodes connected state connectedHere) (by
            rintro parent rest state ⟨before, connectedHere, adds⟩
            have smaller : (parent : ℕ) < n := before parent mem_cons_self
            obtain ⟨next, connectedNext, addsParent, addsNext⟩ :=
              ih adds.mirrors (by omega : (parent : ℕ) < fuel) n
            exact ⟨next, addsParent, fun other member => before other (mem_cons_of_mem _ member),
              connectedNext, adds.trans addsNext⟩)
          (⟨older n, connected, Adds.refl mirrors⟩ : (∀ parent ∈ parents n, parent < n) ∧
            ∃ connectedHere, Adds nodes connected nodes connectedHere)
        exact ⟨between, connectedBetween, loops, adds⟩
      next => exact ⟨nodes, connected, rfl, Adds.refl mirrors⟩
    obtain ⟨between, connectedBetween, attaches, adds⟩ := attached
    rw [addChild, attaches, Option.bind_some]
    dsimp only
    rw [modify_node_self]
    -- Only a native node passes its nature on to the child and connects it.
    cases isNative : (between.node n).isNative with
    | false => exact ⟨_, connectedBetween, rfl, adds.trans (adds_push adds.mirrors isNative)⟩
    | true =>
      have pushed := adds.mirrors.modify n
        (fun node => { node with children := node.children ++ [child] }) rfl id
      obtain ⟨made, connectedMade, makes, nativizes, childNative⟩ :=
        makeNative_spec older pushed (enough_fuel _ child)
      refine ⟨made.connect n child, _, ?_, adds.trans (adds_connect isNative nativizes childNative)⟩
      rw [if_pos rfl, makes]
      rfl

end

end AnimatedNodes

end ReactNative


