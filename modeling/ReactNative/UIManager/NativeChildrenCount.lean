import ReactNative.UIManager.ShadowTree
import ReactNative.Foundation.HostLists
import ReactNative.Foundation.EditScript

/-! The count of every node is the number of native nodes that its children contribute, which is
what the children of a node add to the list of the native parent. -/
namespace ReactNative

open LinkedForest Forest HostedNodes Function List

namespace ShadowTree

variable (shadow : ShadowTree)

/-- Nodes with a view are shown, and host the views below them if their view can. -/
def roles : Roles Tag where
  shown node := shadow.getNativeKind node ≠ .none
  hosts node := shadow.getNativeKind node = .parent
  shown_of_hosts := by
    intro node host
    have isParent := of_decide_eq_true host
    apply decide_eq_true
    rw [isParent]
    exact nofun

/-- The links of a tree are those of a forest, in both directions. -/
structure Linked (F : Forest Tag) : Prop where
  children : shadow.children = F.children
  parent : ∀ c p, shadow.parent c = some p ↔ c ∈ F.children p
  known : ∀ p, ∀ c ∈ F.children p, c ∈ shadow.tags ∧ p ∈ shadow.tags

def CountsBut (off : Option Tag) (delta : ℤ) : Prop :=
  ∀ n, shadow.totalNativeChildren n + (if off = some n then delta else 0) =
    ((shadow.children n).map shadow.getTotalNativeNodeContributionToParent).sum

/-- The links and counts of a tree are right. -/
structure Valid (F : Forest Tag) : Prop extends Linked shadow F where
  counts : ∀ n, shadow.totalNativeChildren n =
    ((shadow.children n).map shadow.getTotalNativeNodeContributionToParent).sum

structure SameNodes (shadow other : ShadowTree) : Prop where
  nodeClass : other.nodeClass = shadow.nodeClass
  isLayoutOnly : other.isLayoutOnly = shadow.isLayoutOnly
  registry : other.registry = shadow.registry
  tags : other.tags = shadow.tags

variable {shadow other third : ShadowTree} {F : Forest Tag} {n : Tag}

theorem kind_congr (nodeClass : other.nodeClass n = shadow.nodeClass n)
    (isLayoutOnly : other.isLayoutOnly n = shadow.isLayoutOnly n) :
    other.getNativeKind n = shadow.getNativeKind n := by
  rw [getNativeKind, getNativeKind, nodeClass, isLayoutOnly]

namespace SameNodes

theorem refl (shadow : ShadowTree) : SameNodes shadow shadow := ⟨rfl, rfl, rfl, rfl⟩

theorem trans (first : SameNodes shadow other) (second : SameNodes other third) :
    SameNodes shadow third where
  nodeClass := second.nodeClass.trans first.nodeClass
  isLayoutOnly := second.isLayoutOnly.trans first.isLayoutOnly
  registry := second.registry.trans first.registry
  tags := second.tags.trans first.tags

theorem kind (same : SameNodes shadow other) : other.getNativeKind = shadow.getNativeKind := by
  funext node
  exact kind_congr (by rw [same.nodeClass]) (by rw [same.isLayoutOnly])

theorem roles (same : SameNodes shadow other) : other.roles = shadow.roles := by
  unfold ShadowTree.roles
  congr 1 <;> simp only [same.kind]

end SameNodes

theorem Valid.congr {G : Forest Tag} (valid : Valid shadow F) (same : G.children = F.children) :
    Valid shadow G where
  children := valid.children.trans same.symm
  parent := by
    rw [same]
    exact valid.parent
  known := by
    rw [same]
    exact valid.known
  counts := valid.counts

/-! ### Bounds -/

theorem Linked.height_le (linked : Linked shadow F) (n : Tag) :
    (F.tree n).height ≤ shadow.depth := by
  by_cases isKnown : n ∈ shadow.tags
  · apply (height_le_card _).trans (Nat.le_succ _)
    intro d descends
    rcases Relation.ReflTransGen.cases_tail descends with rfl | ⟨p, -, child⟩
    · exact isKnown
    · exact (linked.known p d child).1
  · have none : F.children n = [] := by
      apply eq_nil_iff_forall_not_mem.mpr
      intro c child
      exact isKnown (linked.known n c child).2
    rw [F.unfolds n, none]
    exact Nat.succ_le_succ (Nat.zero_le _)

theorem height_pos (n : Tag) : 0 < (F.tree n).height := by
  rw [KeyedTree.height_eq]
  exact Nat.succ_pos _

theorem subtree_eq {fuel : ℕ} (children : shadow.children = F.children)
    (enough : (F.tree n).height ≤ fuel) : shadow.subtree fuel n = F.below n := by
  induction fuel generalizing n with
  | zero =>
    have positive := height_pos (F := F) n
    omega
  | succ fuel ih =>
    rw [subtree, below_eq, children]
    congr 1
    apply flatMap_congr
    intro c child
    apply ih
    have lower := height_child child
    omega

theorem Linked.mem_subtree (linked : Linked shadow F) {a : Tag} :
    n ∈ shadow.subtree shadow.depth a ↔ F.Descends a n := by
  rw [subtree_eq linked.children (linked.height_le a), mem_below]

/-! ### Counts are lengths -/

theorem roles_hosts : shadow.roles.hosts n = true ↔ shadow.getNativeKind n = .parent :=
  decide_eq_true_iff

theorem roles_not_hosts : shadow.roles.hosts n = false ↔ shadow.getNativeKind n ≠ .parent :=
  decide_eq_false_iff_not

theorem roles_shown : shadow.roles.shown n = true ↔ shadow.getNativeKind n ≠ .none :=
  decide_eq_true_iff

theorem sum_contributions_eq {nodes : List Tag}
    (each : ∀ c ∈ nodes, shadow.getTotalNativeNodeContributionToParent c =
      (pieces shadow.roles F c).length) :
    (nodes.map shadow.getTotalNativeNodeContributionToParent).sum =
      (nodes.flatMap (pieces shadow.roles F)).length := by
  induction nodes with
  | nil => rfl
  | cons c _ ih =>
    rw [map_cons, sum_cons, each c mem_cons_self,
      ih fun d member => each d (mem_cons_of_mem c member), flatMap_cons,
      length_append, Nat.cast_add]

theorem length_own :
    (own shadow.roles n).length = if shadow.getNativeKind n = .none then 0 else 1 := by
  unfold own
  by_cases isNone : shadow.getNativeKind n = .none <;> simp [roles, isNone]

theorem Valid.contribution_eq (valid : Valid shadow F) (n : Tag) :
    shadow.getTotalNativeNodeContributionToParent n = (pieces shadow.roles F n).length ∧
      shadow.totalNativeChildren n = (content shadow.roles F n).length := by
  induction n using F.induction with
  | step n ih =>
    have total : shadow.totalNativeChildren n = (content shadow.roles F n).length := by
      rw [valid.counts, valid.children]
      exact sum_contributions_eq fun c child => (ih c child).1
    refine ⟨?_, total⟩
    unfold getTotalNativeNodeContributionToParent
    cases kind : shadow.getNativeKind n with
    | parent =>
      rw [pieces_of_host (roles_hosts.mpr kind)]
      rfl
    | leaf =>
      rw [pieces_of_not_host (roles_not_hosts.mpr (by rw [kind]; decide)), length_append,
        length_own, kind, total, Nat.cast_add]
      rfl
    | none =>
      rw [pieces_of_not_host (roles_not_hosts.mpr (by rw [kind]; decide)), length_append,
        length_own, kind, total, Nat.cast_add]
      simp

theorem Valid.sum_contributions (valid : Valid shadow F) (nodes : List Tag) :
    (nodes.map shadow.getTotalNativeNodeContributionToParent).sum =
      (nodes.flatMap (pieces shadow.roles F)).length :=
  sum_contributions_eq fun c _ => (valid.contribution_eq c).1

theorem Valid.changeKind {x : Tag} (valid : Valid shadow F)
    (children : other.children = shadow.children) (parent : other.parent = shadow.parent)
    (totals : other.totalNativeChildren = shadow.totalNativeChildren)
    (tags : shadow.tags ⊆ other.tags)
    (kinds : ∀ n, n ≠ x → other.getNativeKind n = shadow.getNativeKind n)
    (noParent : ∀ p, x ∉ F.children p) : Valid other F := by
  refine ⟨⟨children.trans valid.children, ?_, ?_⟩, ?_⟩
  · intro c p
    rw [parent]
    exact valid.parent c p
  · intro p c child
    obtain ⟨knownC, knownP⟩ := valid.known p c child
    exact ⟨tags knownC, tags knownP⟩
  · intro n
    rw [totals, valid.counts, children]
    congr 1
    apply map_congr_left
    intro c child
    have different : c ≠ x := by
      rintro rfl
      rw [valid.children] at child
      exact noParent n child
    rw [getTotalNativeNodeContributionToParent, getTotalNativeNodeContributionToParent,
      kinds c different, totals]

/-! ### Adjusting counts -/

variable {delta : ℤ}

theorem sum_map_update {nodes : List Tag} (nodup : nodes.Nodup) {f g : Tag → ℤ} {p : Tag}
    (other : ∀ n, n ≠ p → g n = f n) (changed : g p = f p + delta) :
    (nodes.map g).sum = (nodes.map f).sum + if p ∈ nodes then delta else 0 := by
  induction nodes with
  | nil => simp
  | cons n rest ih =>
    obtain ⟨notRest, nodupRest⟩ := nodup_cons.mp nodup
    rw [map_cons, map_cons, sum_cons, sum_cons, ih nodupRest]
    by_cases same : n = p
    · subst same
      rw [changed, if_neg notRest, if_pos mem_cons_self]
      omega
    · have iff : p ∈ n :: rest ↔ p ∈ rest := by simp [Ne.symm same]
      rw [other n same, if_congr iff rfl rfl]
      omega

variable (p : Tag)

@[simp] theorem addToTotal_kind (delta : ℤ) :
    (shadow.addToTotal p delta).getNativeKind = shadow.getNativeKind := rfl

@[simp] theorem addToTotal_children (delta : ℤ) :
    (shadow.addToTotal p delta).children = shadow.children := rfl

theorem contribution_addToTotal_of_ne {p n : Tag} (different : n ≠ p) (delta : ℤ) :
    (shadow.addToTotal p delta).getTotalNativeNodeContributionToParent n =
      shadow.getTotalNativeNodeContributionToParent n := by
  have same : (shadow.addToTotal p delta).totalNativeChildren n = shadow.totalNativeChildren n :=
    update_of_ne different _ _
  simp only [getTotalNativeNodeContributionToParent, addToTotal_kind, same]

theorem contribution_addToTotal_self (delta : ℤ) :
    (shadow.addToTotal p delta).getTotalNativeNodeContributionToParent p =
      shadow.getTotalNativeNodeContributionToParent p +
        if shadow.getNativeKind p = .parent then 0 else delta := by
  have changed : (shadow.addToTotal p delta).totalNativeChildren p =
      shadow.totalNativeChildren p + delta := update_self ..
  simp only [getTotalNativeNodeContributionToParent, addToTotal_kind, changed]
  cases shadow.getNativeKind p
  · simp
  · simp [Int.add_assoc]
  · simp

theorem Linked.addToTotal (linked : Linked shadow F) (p : Tag) (delta : ℤ) :
    Linked (shadow.addToTotal p delta) F := ⟨linked.children, linked.parent, linked.known⟩

theorem CountsBut.addToTotal {p : Tag} (linked : Linked shadow F)
    (counts : CountsBut shadow (some p) delta) :
    CountsBut (shadow.addToTotal p delta)
      (if shadow.getNativeKind p = .parent then none else shadow.parent p) delta := by
  intro n
  have nodup : (shadow.children n).Nodup := by
    rw [linked.children]
    exact F.nodup n
  have sum := sum_map_update nodup
    (fun m different => @contribution_addToTotal_of_ne shadow p m different delta)
    (contribution_addToTotal_self p delta)
  have before := counts n
  -- The contribution of the node counts where it is a child.
  have child : p ∈ shadow.children n ↔ shadow.parent p = some n := by
    rw [linked.children, linked.parent]
  have total : (shadow.addToTotal p delta).totalNativeChildren n =
      shadow.totalNativeChildren n + if some p = some n then delta else 0 := by
    by_cases same : n = p
    · subst same
      rw [if_pos rfl]
      exact update_self ..
    · rw [if_neg fun equal => same (Option.some.inj equal).symm, add_zero]
      exact update_of_ne same _ _
  rw [addToTotal_children, sum, total, before]
  by_cases host : shadow.getNativeKind p = .parent
  · simp [host]
  · simp [host, child]

theorem addToTotalsAbove_spec {fuel : ℕ} {off : Option Tag} (linked : Linked shadow F)
    (counts : CountsBut shadow off delta)
    (enough : ∀ p, off = some p → shadow.depth < fuel + (F.tree p).height) :
    ∃ after, addToTotalsAbove delta fuel off shadow = some after ∧ Valid after F ∧
      SameNodes shadow after := by
  -- Induction on the fuel: the loop moves up, and stops at the first node that hosts.
  induction fuel generalizing shadow off with
  | zero =>
    cases off with
    | none =>
      refine ⟨shadow, by rw [addToTotalsAbove], ⟨linked, ?_⟩, .refl shadow⟩
      simpa [CountsBut] using counts
    | some p =>
      have bound := enough p rfl
      have height := linked.height_le p
      omega
  | succ fuel ih =>
    cases off with
    | none =>
      refine ⟨shadow, by rw [addToTotalsAbove], ⟨linked, ?_⟩, .refl shadow⟩
      simpa [CountsBut] using counts
    | some p =>
      have next := counts.addToTotal linked
      have linkedNext := linked.addToTotal p delta
      rw [addToTotalsAbove]
      by_cases host : shadow.getNativeKind p = .parent
      · rw [if_pos host] at next ⊢
        refine ⟨_, rfl, ⟨linkedNext, ?_⟩, rfl, rfl, rfl, rfl⟩
        simpa [CountsBut] using next
      · rw [if_neg host] at next ⊢
        obtain ⟨after, done, valid, same⟩ := ih linkedNext next (by
          intro q above
          have lower := height_child ((linked.parent p q).mp above)
          have bound := enough p rfl
          have sameDepth : (shadow.addToTotal p delta).depth = shadow.depth := rfl
          omega)
        exact ⟨after, done, valid, ⟨same.nodeClass, same.isLayoutOnly, same.registry, same.tags⟩⟩

theorem countChild_eq (node : Tag) (delta : ℤ) : shadow.countChild node delta =
      addToTotalsAbove delta (shadow.depth + 1) (some node) shadow := rfl

theorem countChild_spec {node : Tag} (linked : Linked shadow F)
    (counts : CountsBut shadow (some node) delta) :
    ∃ after, shadow.countChild node delta = some after ∧ Valid after F ∧
      SameNodes shadow after := by
  rw [countChild_eq]
  apply addToTotalsAbove_spec linked counts
  omega

section Child

variable {m x : Tag} {left right : List Tag}

theorem not_child_of_fits (old : F.children m = left ++ right)
    (fits : F.Fits m (left ++ x :: right)) (p : Tag) : x ∉ F.children p := by
  intro child
  have parent := fits.unowned x (by simp) p child
  subst parent
  rw [old] at child
  have nodup := fits.nodup
  rw [nodup_middle, nodup_cons] at nodup
  exact nodup.1 child

theorem relink {new : List Tag} {link : Option Tag} {delta : ℤ} (valid : Valid shadow F)
    (fits : F.Fits m new) (others : ∀ c, c ≠ x → (c ∈ new ↔ c ∈ F.children m))
    (linkX : ∀ p, link = some p ↔ x ∈ (F.replace m new fits).children p)
    (knownX : x ∈ new → x ∈ shadow.tags ∧ m ∈ shadow.tags)
    (sum : (new.map shadow.getTotalNativeNodeContributionToParent).sum =
      ((F.children m).map shadow.getTotalNativeNodeContributionToParent).sum + delta) :
    ∃ after, countChild
        { shadow with
          children := update shadow.children m new
          parent := update shadow.parent x link } m delta = some after ∧
      Valid after (F.replace m new fits) ∧ SameNodes shadow after := by
  -- The lists and the links agree again, and only the count of `m` is off.
  have linked : Linked
      { shadow with
        children := update shadow.children m new
        parent := update shadow.parent x link }
      (F.replace m new fits) := by
    constructor
    · rw [valid.children]
      rfl
    · intro c p
      dsimp only
      by_cases isX : c = x
      · subst isX
        rw [update_self]
        exact linkX p
      · rw [update_of_ne isX, valid.parent]
        by_cases isM : p = m
        · subst isM
          rw [replace_self]
          exact (others c isX).symm
        · rw [replace_of_ne isM]
    · intro p c child
      by_cases isM : p = m
      · subst isM
        rw [replace_self] at child
        by_cases isX : c = x
        · subst isX
          exact knownX child
        · exact valid.known p c ((others c isX).mp child)
      · rw [replace_of_ne isM] at child
        exact valid.known p c child
  have counts : CountsBut
      { shadow with
        children := update shadow.children m new
        parent := update shadow.parent x link }
      (some m) delta := by
    intro n
    have total := valid.counts n
    change shadow.totalNativeChildren n + _ = ((update shadow.children m new n).map
        shadow.getTotalNativeNodeContributionToParent).sum
    by_cases isM : n = m
    · subst isM
      rw [update_self, sum, total, if_pos rfl, valid.children]
    · rw [update_of_ne isM, if_neg fun same => isM (Option.some.inj same).symm, add_zero, total]
  obtain ⟨after, done, validAfter, same⟩ := countChild_spec linked counts
  exact ⟨after, done, validAfter, same.nodeClass, same.isLayoutOnly, same.registry, same.tags⟩

theorem addChildAt_spec (valid : Valid shadow F) (old : F.children m = left ++ right)
    (fits : F.Fits m (left ++ x :: right)) (knownX : x ∈ shadow.tags) (knownM : m ∈ shadow.tags) :
    ∃ after, shadow.addChildAt m x left.length = some after ∧
      Valid after (F.replace m (left ++ x :: right) fits) ∧ SameNodes shadow after := by
  have noParent := not_child_of_fits old fits
  have length : ¬ (shadow.children m).length < left.length := by
    rw [valid.children, old, length_append]
    omega
  have inserted : (shadow.children m).insertIdx left.length x = left ++ x :: right := by
    rw [valid.children, old, KeyedTree.insertIdx_between]
  unfold addChildAt
  rw [if_neg length, inserted]
  apply relink valid fits
  · intro c different
    rw [old]
    simp [different]
  · intro p
    by_cases isM : p = m
    · subst isM
      simp
    · rw [replace_of_ne isM]
      simp [Ne.symm isM, noParent p]
  · exact fun _ => ⟨knownX, knownM⟩
  · change _ = _ + shadow.getTotalNativeNodeContributionToParent x
    rw [old]
    simp
    omega

theorem removeChildAt_spec (valid : Valid shadow F) (old : F.children m = left ++ x :: right)
    (fits : F.Fits m (left ++ right)) :
    ∃ after, shadow.removeChildAt m left.length = some after ∧
      Valid after (F.replace m (left ++ right) fits) ∧ SameNodes shadow after := by
  have nodup := F.nodup m
  rw [old, nodup_middle, nodup_cons] at nodup
  have found : (shadow.children m)[left.length]? = some x := by
    rw [valid.children, old]
    simp
  have erased : (shadow.children m).eraseIdx left.length = left ++ right := by
    rw [valid.children, old, eraseIdx_append_of_length_le (Nat.le_refl _), Nat.sub_self]
    rfl
  unfold removeChildAt
  rw [found]
  rw [erased]
  apply relink valid fits
  · intro c different
    rw [old]
    simp [different]
  · intro p
    by_cases isM : p = m
    · subst isM
      simpa using nodup.1
    · rw [replace_of_ne isM]
      simpa using fun child => isM (F.unique child (by rw [old]; simp))
  · exact fun member => absurd member nodup.1
  · change _ = _ + -shadow.getTotalNativeNodeContributionToParent x
    rw [old]
    simp
    omega

theorem getNativeOffsetForChild_spec (valid : Valid shadow F)
    (siblings : F.children m = left ++ x :: right) :
    shadow.getNativeOffsetForChild m x =
      some ((left.flatMap (pieces shadow.roles F)).length : ℤ) := by
  have nodup := F.nodup m
  rw [siblings, nodup_middle, nodup_cons] at nodup
  have before : (left ++ x :: right).takeWhile (fun current => decide (current ≠ x)) = left := by
    rw [takeWhile_append_of_pos]
    · simp
    · intro c member
      rw [decide_eq_true_iff]
      rintro rfl
      exact nodup.1 (mem_append_left _ member)
  rw [getNativeOffsetForChild, valid.children, siblings, if_pos (by simp), before,
    valid.sum_contributions]

end Child

end ShadowTree

end ReactNative


