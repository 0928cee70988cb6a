import ReactNative.Foundation.Trails

/-! In a line each node has at most one child. A test may look at the nodes above the one it is
about. It singles out the furthest node such that the test passes there and at all nodes above it.
-/
namespace KeyedTree

open List Option

variable {α : Type}

def IsLine (tree : Tree α) : Prop := ∀ node ∈ tree.nodes, node.children.length ≤ 1

variable (test other : List (Tree α) → Tree α → Bool)

def furthest (above : List (Tree α)) : Tree α → Option (Tree α)
  | ⟨label, []⟩ => if test above ⟨label, []⟩ then some ⟨label, []⟩ else none
  | ⟨label, child :: rest⟩ =>
    if test above ⟨label, child :: rest⟩ then
      (furthest (above ++ [⟨label, child :: rest⟩]) child).or (some ⟨label, child :: rest⟩)
    else none

/-- Both tests tell the same of all nodes that the first one reaches. -/
def AgreesAlong (above : List (Tree α)) : Tree α → Prop
  | ⟨label, []⟩ => test above ⟨label, []⟩ = other above ⟨label, []⟩
  | ⟨label, child :: rest⟩ =>
    test above ⟨label, child :: rest⟩ = other above ⟨label, child :: rest⟩ ∧
      (test above ⟨label, child :: rest⟩ = true →
        AgreesAlong (above ++ [⟨label, child :: rest⟩]) child)

def Passes (above : List (Tree α)) (trail : Trail α) : Prop :=
  ∀ front node back, trail.nodes = front ++ node :: back → test (above ++ front) node = true

structure IsFurthest (above : List (Tree α)) (tree : Tree α) (trail : Trail α) : Prop where
  isTrail : trail ∈ tree.trails
  passes : Passes test above trail
  furthest : ∀ further ∈ tree.trails, Passes test above further →
    further.above.length ≤ trail.above.length

variable {test other} {above : List (Tree α)} {tree node child : Tree α} {label : α}
  {trail : Trail α}

/-! ### Lines -/

theorem isLine_child {rest : List (Tree α)} (line : IsLine ⟨label, child :: rest⟩) :
    rest = [] ∧ IsLine child := by
  constructor
  · have short := line _ (self_mem_nodes _)
    simpa using short
  · intro node member
    exact line node (mem_nodes.mpr (.inr (mem_forestNodes.mpr ⟨child, mem_cons_self, member⟩)))

theorem IsLine.induction {P : Tree α → Prop} (leaf : ∀ label, P ⟨label, []⟩)
    (step : ∀ label child, IsLine child → P child → P ⟨label, [child]⟩) (tree : Tree α)
    (line : IsLine tree) : P tree := by
  revert line
  refine Tree.induction (P := fun tree => IsLine tree → P tree) ?_ tree
  rintro ⟨label, _ | ⟨child, _⟩⟩ ih line
  · exact leaf label
  · obtain ⟨rfl, below⟩ := isLine_child line
    exact step label child below (ih child mem_cons_self below)

theorem nodes_singleton : (⟨label, [child]⟩ : Tree α).nodes = ⟨label, [child]⟩ :: child.nodes := by
  rw [Tree.nodes, forestNodes, forestNodes, append_nil]

theorem trails_singleton : (⟨label, [child]⟩ : Tree α).trails =
    ⟨[], ⟨label, [child]⟩⟩ :: child.trails.map (Trail.under ⟨label, [child]⟩) := by
  rw [Tree.trails, forestTrails, forestTrails, append_nil]

/-! ### The furthest node -/

theorem furthest_isSome : (furthest test above tree).isSome = test above tree := by
  obtain ⟨-, _ | ⟨-, -⟩⟩ := tree <;> rw [furthest] <;> split <;> simp_all

theorem furthest_mem (line : IsLine tree) :
    ∀ above, ∀ found ∈ furthest test above tree, found ∈ tree.nodes := by
  refine IsLine.induction (P := fun tree => ∀ above, ∀ found ∈ furthest test above tree,
    found ∈ tree.nodes) ?_ ?_ tree line
  · intro label above found isFound
    rw [furthest, mem_def, ite_none_right_eq_some, some.injEq] at isFound
    exact isFound.2 ▸ self_mem_nodes _
  · intro label child _ ih above found isFound
    rw [furthest, mem_def, ite_none_right_eq_some, or_eq_some_iff, some.injEq] at isFound
    rw [nodes_singleton]
    rcases isFound.2 with below | ⟨-, rfl⟩
    · exact mem_cons_of_mem _ (ih _ found below)
    · exact mem_cons_self

variable {first second : Option (Tree α)}

theorem or_self_inj (firstBelow : node ∉ first) (secondBelow : node ∉ second) :
    first.or (some node) = second.or (some node) ↔ first = second := by
  cases first <;> cases second <;> simp_all [eq_comm]

theorem or_self_eq_iff (secondBelow : node ∉ second) :
    first.or (some node) = second ↔ first = second ∧ first.isSome := by
  cases first with
  | none =>
    refine iff_of_false ?_ (by simp)
    intro same
    exact secondBelow same.symm
  | some => simp

/-- **Two tests find the same node** exactly if they agree on the nodes that the first one reaches. -/
theorem furthest_eq_iff (line : IsLine tree) (distinct : tree.nodes.Nodup) : ∀ above,
    furthest test above tree = furthest other above tree ↔ AgreesAlong test other above tree := by
  revert distinct
  refine IsLine.induction (P := fun tree => tree.nodes.Nodup → ∀ above,
    furthest test above tree = furthest other above tree ↔ AgreesAlong test other above tree)
    ?_ ?_ tree line
  · intro label _ above
    rw [furthest, furthest, AgreesAlong]
    cases test above ⟨label, []⟩ <;> cases other above ⟨label, []⟩ <;> simp
  · intro label child line ih distinct above
    rw [nodes_singleton, nodup_cons] at distinct
    have apart : ∀ test, (⟨label, [child]⟩ : Tree α) ∉
        furthest test (above ++ [⟨label, [child]⟩]) child := by
      intro test isFound
      exact distinct.1 (furthest_mem line _ _ isFound)
    rw [furthest, furthest, AgreesAlong, ← ih distinct.2, ← or_self_inj (apart test) (apart other)]
    cases test above ⟨label, [child]⟩ <;> cases other above ⟨label, [child]⟩ <;> simp

/-! ### The trail of the furthest node -/

theorem passes_nil : Passes test above ⟨[], node⟩ ↔ test above node = true := by
  constructor
  · intro passes
    simpa using passes [] node [] rfl
  · intro passed front found back split
    -- the node is the whole trail
    obtain ⟨rfl, rfl, rfl⟩ : front = [] ∧ found = node ∧ back = [] := by
      simpa [Trail.nodes, singleton_eq_append_iff] using split
    simpa using passed

theorem passes_under : Passes test above (trail.under tree) ↔
    test above tree = true ∧ Passes test (above ++ [tree]) trail := by
  constructor
  · intro passes
    constructor
    · simpa using passes [] tree trail.nodes rfl
    · intro front found back split
      have passed := passes (tree :: front) found back (by rw [Trail.under_nodes, split]; rfl)
      simpa using passed
  · rintro ⟨here, passes⟩ front found back split
    cases front with
    | nil =>
      obtain ⟨rfl, -⟩ := cons_eq_cons.mp split
      simpa using here
    | cons _ front =>
      obtain ⟨rfl, rest⟩ := cons_eq_cons.mp split
      have passed := passes front found back rest
      simpa using passed

theorem passes_here (member : trail ∈ tree.trails) (passes : Passes test above trail) :
    test above tree = true := by
  rw [trails_eq, mem_cons, List.mem_map] at member
  rcases member with rfl | ⟨_, -, rfl⟩
  · exact passes_nil.mp passes
  · exact (passes_under.mp passes).1

theorem under_mem_trails : trail.under ⟨label, [child]⟩ ∈ (⟨label, [child]⟩ : Tree α).trails ↔
    trail ∈ child.trails := by
  rw [trails_singleton, mem_cons, List.mem_map]
  constructor
  · rintro (noAbove | ⟨same, member, isSame⟩)
    · exact absurd (congrArg Trail.above noAbove) (by simp)
    · obtain ⟨sameAbove, sameNode⟩ := Trail.mk.inj isSame
      have isTrail : same = trail := by
        cases same
        simp_all
      exact isTrail ▸ member
  · exact fun member => .inr ⟨trail, member, rfl⟩

theorem isFurthest_under : IsFurthest test above ⟨label, [child]⟩ (trail.under ⟨label, [child]⟩) ↔
    test above ⟨label, [child]⟩ = true ∧
      IsFurthest test (above ++ [⟨label, [child]⟩]) child trail := by
  constructor
  · intro isFurthest
    obtain ⟨here, passes⟩ := passes_under.mp isFurthest.passes
    refine ⟨here, under_mem_trails.mp isFurthest.isTrail, passes, ?_⟩
    intro further isTrail passesFurther
    have longest := isFurthest.furthest _ (under_mem_trails.mpr isTrail)
      (passes_under.mpr ⟨here, passesFurther⟩)
    simpa using longest
  · rintro ⟨here, isFurthest⟩
    refine ⟨under_mem_trails.mpr isFurthest.isTrail, passes_under.mpr ⟨here, isFurthest.passes⟩, ?_⟩
    intro further isTrail passesFurther
    rw [trails_singleton, mem_cons, List.mem_map] at isTrail
    rcases isTrail with rfl | ⟨below, belowMem, rfl⟩
    · exact Nat.zero_le _
    · have longest := isFurthest.furthest below belowMem (passes_under.mp passesFurther).2
      simpa using longest

theorem isFurthest_self : IsFurthest test above ⟨label, [child]⟩ ⟨[], ⟨label, [child]⟩⟩ ↔
    test above ⟨label, [child]⟩ = true ∧ test (above ++ [⟨label, [child]⟩]) child = false := by
  constructor
  · intro isFurthest
    have here := passes_nil.mp isFurthest.passes
    refine ⟨here, Bool.eq_false_iff.mpr fun passesChild => ?_⟩
    have childTrail : (⟨[], child⟩ : Trail α) ∈ child.trails := by
      rw [trails_eq]
      exact mem_cons_self
    have shorter := isFurthest.furthest _ (under_mem_trails.mpr childTrail)
      (passes_under.mpr ⟨here, passes_nil.mpr passesChild⟩)
    exact absurd shorter (Nat.not_succ_le_zero 0)
  · rintro ⟨here, stops⟩
    refine ⟨?_, passes_nil.mpr here, ?_⟩
    · exact mem_cons_self
    · intro further isTrail passesFurther
      rw [trails_singleton, mem_cons, List.mem_map] at isTrail
      rcases isTrail with rfl | ⟨_, belowMem, rfl⟩
      · exact Nat.le_refl 0
      · have passesChild := passes_here belowMem (passes_under.mp passesFurther).2
        exact absurd passesChild (Bool.eq_false_iff.mp stops)

/-- **Going down finds the furthest node.** -/
theorem furthest_eq_some_iff (line : IsLine tree) : ∀ above node,
    furthest test above tree = some node ↔
      ∃ trail, IsFurthest test above tree trail ∧ trail.node = node := by
  -- Induction down the line: the node itself counts exactly if the search stops below it.
  refine IsLine.induction (P := fun tree => ∀ above node, furthest test above tree = some node ↔
    ∃ trail, IsFurthest test above tree trail ∧ trail.node = node) ?_ ?_ tree line
  · intro label above node
    rw [furthest, ite_none_right_eq_some, some.injEq]
    constructor
    · rintro ⟨passed, rfl⟩
      refine ⟨⟨[], ⟨label, []⟩⟩, ⟨?_, passes_nil.mpr passed, ?_⟩, rfl⟩
      · exact mem_singleton_self _
      · intro further isTrail _
        obtain rfl := mem_singleton.mp isTrail
        exact Nat.le_refl 0
    · rintro ⟨trail, isFurthest, rfl⟩
      have isTrail := isFurthest.isTrail
      obtain rfl := mem_singleton.mp isTrail
      exact ⟨passes_nil.mp isFurthest.passes, rfl⟩
  · intro label child line ih above node
    have stops : furthest test (above ++ [⟨label, [child]⟩]) child = none ↔
        test (above ++ [⟨label, [child]⟩]) child = false := by
      rw [← @furthest_isSome α test, isSome_eq_false_iff, isNone_iff_eq_none]
    rw [furthest, ite_none_right_eq_some, or_eq_some_iff, ih, stops, some.injEq]
    constructor
    · rintro ⟨here, ⟨trail, isFurthest, isNode⟩ | ⟨stopped, isNode⟩⟩
      · exact ⟨_, isFurthest_under.mpr ⟨here, isFurthest⟩, isNode⟩
      · exact ⟨_, isFurthest_self.mpr ⟨here, stopped⟩, isNode⟩
    · rintro ⟨trail, isFurthest, isNode⟩
      have isTrail := isFurthest.isTrail
      rw [trails_singleton, mem_cons, List.mem_map] at isTrail
      rcases isTrail with rfl | ⟨below, -, rfl⟩
      · obtain ⟨here, stopped⟩ := isFurthest_self.mp isFurthest
        exact ⟨here, .inr ⟨stopped, isNode⟩⟩
      · obtain ⟨here, isFurthestBelow⟩ := isFurthest_under.mp isFurthest
        exact ⟨here, .inl ⟨below, isFurthestBelow, isNode⟩⟩

end KeyedTree

