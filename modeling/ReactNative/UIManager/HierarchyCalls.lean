import ReactNative.UIManager.ChildrenChanges

/-! What each call does to the shadow tree and to the native hierarchy. -/
namespace ReactNative

open LinkedForest Forest HostedNodes NativeTree Optimizer List Function ShadowTree

namespace UIOperation

def uses : UIOperation → List Tag
  | .createView _ => []
  | .updateProperties tag => [tag]
  | .manageChildren tag call => tag :: call.viewsToAdd.map ViewAtIndex.tag
  | .updateLayout parentTag tag => [parentTag, tag]

def deletes : UIOperation → List Tag
  | .manageChildren _ call => call.tagsToDelete
  | _ => []

end UIOperation

/-! ### Layouts -/

namespace Optimizer

variable {shadow : ShadowTree} {F : Forest Tag} {native middle after : NativeTree}

/-- Nothing happens but that layouts are sent for nodes below a node, which have a view and a
native parent. -/
structure LaidOut (F : Forest Tag) (top : Tag) (native after : NativeTree) : Prop where
  children : after.nativeChildren = native.nativeChildren
  parent : after.nativeParent = native.nativeParent
  operations : Logs (fun operation => ∃ q n, F.Descends top n ∧ native.nativeParent n = some q ∧
    operation = .updateLayout q n) native after

namespace LaidOut

variable {top : Tag}

theorem refl (native : NativeTree) : LaidOut F top native native := ⟨rfl, rfl, .refl _ native⟩

theorem trans (first : LaidOut F top native middle)
    (second : LaidOut F top middle after) : LaidOut F top native after where
  children := second.children.trans first.children
  parent := second.parent.trans first.parent
  operations := by
    have later := second.operations
    rw [first.parent] at later
    exact first.operations.trans later

theorem above {p : Tag} (laidOut : LaidOut F top native after)
    (child : top ∈ F.children p) : LaidOut F p native after where
  children := laidOut.children
  parent := laidOut.parent
  operations := by
    apply laidOut.operations.mono
    rintro operation ⟨q, n, below, isSome, same⟩
    exact ⟨q, n, descends_of_child child below, isSome, same⟩

theorem consistent (laidOut : LaidOut F top native after) (before : Consistent native) :
    Consistent after where
  parent_iff := by
    rw [laidOut.children, laidOut.parent]
    exact before.parent_iff
  nodup := by
    rw [laidOut.children]
    exact before.nodup
  replayed := by
    obtain ⟨log, ops, each⟩ := laidOut.operations
    have nothing : Runs.run UIOperation.replay native.nativeChildren log =
        some native.nativeChildren := by
      clear ops
      induction log with
      | nil => rfl
      | cons operation _ ih =>
        obtain ⟨q, n, -, -, rfl⟩ := each operation mem_cons_self
        exact ih fun later member => each later (mem_cons_of_mem _ member)
    rw [ops, Runs.run_append, before.replayed, laidOut.children]
    exact nothing

end LaidOut

theorem layoutLoop_spec {top : Tag} {nodes : List Tag}
    {layout : Finset Tag × NativeTree → Tag → Option (Finset Tag × NativeTree)}
    (each : ∀ node ∈ nodes, ∀ state, ∃ visited after,
      layout state node = some (visited, after) ∧ LaidOut F top state.2 after)
    (state : Finset Tag × NativeTree) :
    ∃ visited after, nodes.foldlM layout state = some (visited, after) ∧
      LaidOut F top state.2 after := by
  induction nodes generalizing state with
  | nil => exact ⟨state.1, state.2, rfl, .refl _⟩
  | cons node _ ih =>
    obtain ⟨visited, middle, turned, first⟩ := each node mem_cons_self state
    obtain ⟨visited', after, done, later⟩ :=
      ih (fun other member => each other (mem_cons_of_mem node member)) (visited, middle)
    refine ⟨visited', after, ?_, first.trans later⟩
    rw [foldlM_cons, turned]
    exact done

theorem applyLayoutRecursive_spec {fuel : ℕ} {node : Tag} (children : shadow.children = F.children)
    (enough : (F.tree node).height ≤ fuel) (state : Finset Tag × NativeTree) :
    ∃ visited after, applyLayoutRecursive shadow fuel node state = some (visited, after) ∧
      LaidOut F node state.2 after := by
  induction fuel generalizing node state with
  | zero =>
    have positive := height_pos (F := F) node
    omega
  | succ fuel ih =>
    obtain ⟨visited, native⟩ := state
    have loop : ∃ visited' after, (F.children node).foldlM (fun state child =>
          if child ∈ state.1 then some state
          else applyLayoutRecursive shadow fuel child (insert child state.1, state.2))
          (visited, native) = some (visited', after) ∧ LaidOut F node native after := by
      apply layoutLoop_spec
      intro child isChild state
      have lower : (F.tree child).height ≤ fuel := by
        have less := height_child isChild
        omega
      by_cases isVisited : child ∈ state.1
      · rw [if_pos isVisited]
        exact ⟨state.1, state.2, rfl, .refl _⟩
      · rw [if_neg isVisited]
        obtain ⟨visited, after, done, laidOut⟩ := ih lower (insert child state.1, state.2)
        exact ⟨visited, after, done, laidOut.above isChild⟩
    unfold applyLayoutRecursive
    split
    · rename_i q _ isSome
      exact ⟨visited, _, rfl, rfl, rfl, .enqueue rfl ⟨q, node, .refl, isSome, rfl⟩⟩
    · rename_i q _ isSome
      exact ⟨visited, _, rfl, rfl, rfl, .enqueue rfl ⟨q, node, .refl, isSome, rfl⟩⟩
    · rw [children]
      exact loop

theorem applyLayoutBase_spec (linked : ShadowTree.Linked shadow F) (node : Tag)
    (state : Finset Tag × NativeTree) :
    ∃ visited after, applyLayoutBase shadow state node = some (visited, after) ∧
      LaidOut F node state.2 after := by
  unfold applyLayoutBase
  by_cases isVisited : node ∈ state.1
  · rw [if_pos isVisited]
    exact ⟨state.1, state.2, rfl, .refl _⟩
  · rw [if_neg isVisited]
    exact applyLayoutRecursive_spec linked.children (linked.height_le node) _

end Optimizer

/-! ### Calls that change no links -/

def ShadowTree.withLayoutOnly (shadow : ShadowTree) (node : Tag) (isLayoutOnly : Bool) :
    ShadowTree :=
  { shadow with isLayoutOnly := Function.update shadow.isLayoutOnly node isLayoutOnly }

theorem ShadowTree.withLayoutOnly_kind {shadow : ShadowTree} {node n : Tag} {isLayoutOnly : Bool}
    (different : n ≠ node) :
    (shadow.withLayoutOnly node isLayoutOnly).getNativeKind n = shadow.getNativeKind n :=
  kind_congr rfl (update_of_ne different _ _)

namespace UIImplementation

variable {ui : UIImplementation} {F : Forest Tag} {x : Tag}

/-- What holds between calls: counts, lists and operations fit the shadow tree. -/
structure Sound (ui : UIImplementation) (F : Forest Tag) : Prop where
  valid : ui.shadow.Valid F
  mirrors : Mirrors ui.shadow.roles F ui.native.nativeChildren ui.native.nativeParent
  consistent : ui.native.Consistent
  known : ui.shadow.registry ⊆ ui.shadow.tags
  isView : ∀ n, ui.shadow.isLayoutOnly n = true →
    n ∈ ui.shadow.tags ∧ (ui.shadow.nodeClass n).isView = true

theorem initial_sound (roots : Finset Tag) : (initial roots).Sound (discrete Tag) where
  valid :=
    { children := rfl
      parent := by
        intro c p
        constructor <;> intro impossible <;> cases impossible
      known := by
        intro p c child
        cases child
      counts := fun _ => rfl }
  mirrors :=
    { lists_eq := by
        intro q
        split <;> rfl
      hostOf_iff := by
        intro n q
        constructor <;> intro impossible <;> cases impossible }
  consistent :=
    { parent_iff := by
        intro n q
        constructor <;> intro impossible <;> cases impossible
      nodup := fun _ => nodup_nil
      replayed := rfl }
  known := Finset.Subset.refl _
  isView := by
    intro n impossible
    cases impossible

theorem Sound.unlinked (sound : ui.Sound F) (fresh : x ∉ ui.shadow.tags) :
    F.children x = [] ∧ ∀ p, x ∉ F.children p := by
  constructor
  · apply eq_nil_iff_forall_not_mem.mpr
    intro c child
    exact fresh (sound.valid.known x c child).2
  · intro p child
    exact fresh (sound.valid.known p x child).1

theorem Sound.noParent (sound : ui.Sound F) (detached : ui.shadow.parent x = none) (p : Tag) :
    x ∉ F.children p := by
  intro child
  rw [(sound.valid.parent x p).mpr child] at detached
  cases detached

theorem Sound.changeKind (sound : ui.Sound F) (next : UIImplementation)
    (noParent : ∀ p, x ∉ F.children p) (empty : ui.native.nativeChildren x = [])
    (noContent : next.shadow.getNativeKind x = .parent → content ui.shadow.roles F x = [])
    (links : next.shadow.children = ui.shadow.children ∧ next.shadow.parent = ui.shadow.parent ∧
      next.shadow.totalNativeChildren = ui.shadow.totalNativeChildren)
    (tags : ui.shadow.tags ⊆ next.shadow.tags)
    (kinds : ∀ n, n ≠ x → next.shadow.getNativeKind n = ui.shadow.getNativeKind n)
    (native : next.native.nativeChildren = ui.native.nativeChildren ∧
      next.native.nativeParent = ui.native.nativeParent) :
    next.shadow.Valid F ∧
      Mirrors next.shadow.roles F next.native.nativeChildren next.native.nativeParent := by
  have sameShown : ∀ n, n ≠ x → next.shadow.roles.shown n = ui.shadow.roles.shown n := by
    intro n different
    simp only [roles, kinds n different]
  have sameHosts : ∀ n, n ≠ x → next.shadow.roles.hosts n = ui.shadow.roles.hosts n := by
    intro n different
    simp only [roles, kinds n different]
  constructor
  · exact sound.valid.changeKind links.1 links.2.1 links.2.2 tags kinds noParent
  · rw [native.1, native.2]
    apply sound.mirrors.changeRole noParent (fun _ _ => rfl) sameShown sameHosts empty
    intro host
    rw [← noContent (roles_hosts.mp host)]
    apply flatMap_congr
    intro c child
    exact Mirrors.pieces_changeRole noParent (fun _ _ => rfl) sameShown sameHosts (ne_child child)

theorem consistent_enqueue {native : NativeTree} {operation : UIOperation}
    (consistent : native.Consistent)
    (nothing : UIOperation.replay native.nativeChildren operation = some native.nativeChildren) :
    (native.enqueue operation).Consistent where
  parent_iff := consistent.parent_iff
  nodup := consistent.nodup
  replayed := replayed_enqueue consistent.replayed nothing

theorem setIsLayoutOnly_eq (ui : UIImplementation) (isLayoutOnly : Bool)
    (detached : ui.shadow.parent x = none) (noNativeParent : ui.native.nativeParent x = none)
    (empty : ui.native.nativeChildren x = []) :
    ui.setIsLayoutOnly x isLayoutOnly =
      some ⟨ui.shadow.withLayoutOnly x isLayoutOnly, ui.native⟩ := by
  rw [setIsLayoutOnly, if_pos ⟨detached, noNativeParent, empty⟩]
  rfl

theorem Sound.addNode {isLayoutOnly : Bool} {shadow : ShadowTree} (sound : ui.Sound F)
    (nodeClass : ShadowNodeClass) (native : NativeTree) (fresh : x ∉ ui.shadow.tags)
    (added : shadow = (ui.shadow.addNode x nodeClass).withLayoutOnly x isLayoutOnly)
    (isView : isLayoutOnly = true → nodeClass.isView = true)
    (same : native.nativeChildren = ui.native.nativeChildren ∧
      native.nativeParent = ui.native.nativeParent) (consistent : native.Consistent) :
    Sound ⟨shadow, native⟩ F ∧ ∀ n, n ≠ x → shadow.getNativeKind n = ui.shadow.getNativeKind n := by
  subst added
  -- Nothing links to a fresh tag, so that no list can show it.
  obtain ⟨noChildren, noParent⟩ := sound.unlinked fresh
  have noContent : content ui.shadow.roles F x = [] := by
    rw [content, noChildren]
    rfl
  have empty : ui.native.nativeChildren x = [] := by
    rw [sound.mirrors.lists_eq, noContent]
    split <;> rfl
  have kinds : ∀ n, n ≠ x →
      ((ui.shadow.addNode x nodeClass).withLayoutOnly x isLayoutOnly).getNativeKind n =
        ui.shadow.getNativeKind n := by
    intro n different
    rw [withLayoutOnly_kind different]
    exact kind_congr (update_of_ne different _ _) rfl
  obtain ⟨valid, mirrors⟩ := sound.changeKind
    ⟨(ui.shadow.addNode x nodeClass).withLayoutOnly x isLayoutOnly, native⟩ noParent empty
    (fun _ => noContent) ⟨rfl, rfl, rfl⟩ (Finset.subset_insert x _) kinds same
  refine ⟨⟨valid, mirrors, consistent, Finset.insert_subset_insert x sound.known, ?_⟩, kinds⟩
  -- A layout-only node is a view, the new one included.
  intro n layoutOnly
  by_cases isX : n = x
  · subst isX
    simpa [ShadowTree.withLayoutOnly, ShadowTree.addNode] using
      isView (by simpa [ShadowTree.withLayoutOnly] using layoutOnly)
  · obtain ⟨isKnown, nodeIsView⟩ := sound.isView n
      (by simpa [ShadowTree.withLayoutOnly, ShadowTree.addNode, isX] using layoutOnly)
    refine ⟨Finset.mem_insert_of_mem isKnown, ?_⟩
    simpa [ShadowTree.withLayoutOnly, ShadowTree.addNode, isX] using nodeIsView

theorem createView_sound (nodeClass : ShadowNodeClass) (layoutOnlyAndCollapsable : Bool)
    (sound : ui.Sound F) (fresh : x ∉ ui.shadow.tags) :
    ∃ next, ui.createView x nodeClass layoutOnlyAndCollapsable = some next ∧ next.Sound F ∧
      next.shadow.registry = insert x ui.shadow.registry ∧
      (∀ n, n ≠ x → next.shadow.getNativeKind n = ui.shadow.getNativeKind n) ∧
      next.native.operations = ui.native.operations ++
        if next.shadow.getNativeKind x = .none then [] else [.createView x] := by
  obtain ⟨noChildren, noParent⟩ := sound.unlinked fresh
  unfold createView
  -- A virtual node is added to the shadow tree only.
  by_cases isVirtual : nodeClass.isVirtual = true
  · have notLayoutOnly : ui.shadow.isLayoutOnly x = false := by
      cases layoutOnly : ui.shadow.isLayoutOnly x with
      | false => rfl
      | true => exact absurd (sound.isView x layoutOnly).1 fresh
    have added : ui.shadow.addNode x nodeClass =
        (ui.shadow.addNode x nodeClass).withLayoutOnly x false := by
      rw [ShadowTree.withLayoutOnly, ← notLayoutOnly]
      simp [ShadowTree.addNode]
    have kind : (ui.shadow.addNode x nodeClass).getNativeKind x = .none := by
      simp [getNativeKind, ShadowTree.addNode, isVirtual]
    obtain ⟨soundNext, kinds⟩ := sound.addNode nodeClass ui.native fresh added
      (by simp) ⟨rfl, rfl⟩ sound.consistent
    rw [if_pos isVirtual]
    refine ⟨_, rfl, soundNext, rfl, kinds, ?_⟩
    rw [kind, if_pos rfl, append_nil]
  -- A real one has no parent yet, so that its layout-only flag can still be set.
  · have detached : ui.shadow.parent x = none := by
      cases found : ui.shadow.parent x with
      | none => rfl
      | some p => exact absurd ((sound.valid.parent x p).mp found) (noParent p)
    have empty : ui.native.nativeChildren x = [] := by
      rw [sound.mirrors.lists_eq, content, noChildren]
      split <;> rfl
    have nodeIs : (ui.shadow.addNode x nodeClass).nodeClass x = nodeClass := update_self ..
    have isView : (nodeClass.isView && layoutOnlyAndCollapsable) = true → nodeClass.isView = true :=
      fun both => (Bool.and_eq_true_iff.mp both).1
    rw [if_neg isVirtual, handleCreateView,
      setIsLayoutOnly_eq ⟨ui.shadow.addNode x nodeClass, ui.native⟩ _ detached
        (sound.mirrors.hostOf_of_not_child noParent) empty, Option.map_some, nodeIs]
    split
    · rename_i isNone
      obtain ⟨soundNext, kinds⟩ := sound.addNode nodeClass ui.native fresh rfl isView ⟨rfl, rfl⟩
        sound.consistent
      refine ⟨_, rfl, soundNext, rfl, kinds, ?_⟩
      rw [if_pos isNone, append_nil]
    · rename_i isShown
      obtain ⟨soundNext, kinds⟩ := sound.addNode nodeClass (ui.native.enqueue (.createView x)) fresh
        rfl isView ⟨rfl, rfl⟩ (consistent_enqueue sound.consistent rfl)
      refine ⟨_, rfl, soundNext, rfl, kinds, ?_⟩
      dsimp only
      rw [if_neg isShown]
      rfl

/-! ### Operations around a node -/

/-- The operation uses only views of nodes above or below a node, and deletes only some. -/
def Around (shadow : ShadowTree) (F : Forest Tag) (p : Tag) (deleted : Tag → Prop)
    (operation : UIOperation) : Prop :=
  (∀ tag ∈ operation.uses, shadow.getNativeKind tag ≠ .none ∧
    (F.Descends p tag ∨ F.Descends tag p)) ∧
  ∀ tag ∈ operation.deletes, deleted tag

section Around

variable {shadow : ShadowTree} {p m q c y : Tag} {deleted : Tag → Prop} {operation : UIOperation}

theorem kind_of_hosted (hosted : Hosted shadow.roles F m q) : shadow.getNativeKind q ≠ .none :=
  roles_shown.mp (shadow.roles.shown_of_hosts (host_of_hosted hosted))

theorem around_of_adds (below : F.Descends p m) (hosted : Hosted shadow.roles F m q)
    (belowY : F.Descends p y) (member : c ∈ pieces shadow.roles F y) (adds : operation.Adds q c) :
    Around shadow F p deleted operation := by
  obtain ⟨-, rfl⟩ := adds
  constructor
  · intro tag isUsed
    simp only [UIOperation.uses, map_cons, map_nil, mem_cons, not_mem_nil, or_false] at isUsed
    rcases isUsed with rfl | rfl
    · exact ⟨kind_of_hosted hosted, descends_total below (descends_of_hosted hosted)⟩
    · refine ⟨roles_shown.mp (shown_of_mem_pieces member), .inl ?_⟩
      exact Relation.ReflTransGen.trans belowY (descends_of_mem_pieces member)
  · nofun

theorem around_of_removes {shouldDelete : Bool} (hosted : Hosted shadow.roles F p q)
    (isDeleted : shouldDelete = true → deleted c) (removes : operation.Removes shouldDelete q c) :
    Around shadow F p deleted operation := by
  obtain ⟨-, rfl⟩ := removes
  constructor
  · intro tag isUsed
    simp only [UIOperation.uses, map_nil, mem_singleton] at isUsed
    rw [isUsed]
    exact ⟨kind_of_hosted hosted, .inr (descends_of_hosted hosted)⟩
  · intro tag member
    cases shouldDelete with
    | false => cases member
    | true =>
      simp only [UIOperation.deletes, if_pos, mem_singleton] at member
      rw [member]
      exact isDeleted rfl

theorem around_of_layout {native : NativeTree}
    (mirrors : Mirrors shadow.roles F native.nativeChildren native.nativeParent)
    (below : F.Descends p y) (isSome : native.nativeParent y = some q) :
    Around shadow F p deleted (.updateLayout q y) := by
  obtain ⟨host, member⟩ := mirrors.host_of_mem ((mirrors.hostOf_iff y q).mp isSome)
  obtain ⟨isShown, _, child, hosted⟩ := (mem_content_iff host).mp member
  constructor
  · intro tag isUsed
    simp only [UIOperation.uses, mem_cons, not_mem_nil, or_false] at isUsed
    rcases isUsed with rfl | rfl
    · exact ⟨kind_of_hosted hosted, descends_total below ((descends_of_hosted hosted).child child)⟩
    · exact ⟨roles_shown.mp isShown, .inl below⟩
  · nofun

end Around

section Transition

variable {shadow : ShadowTree} {native : NativeTree} {p : Tag} {left right : List Tag}

theorem refill_spec {G : Forest Tag} (valid : shadow.Valid F)
    (host : shadow.getNativeKind x = .parent) (siblings : F.children p = left ++ x :: right)
    (without : G.children p = left ++ right) (emptied : G.children x = [])
    (others : ∀ n, n ≠ p → n ≠ x → G.children n = F.children n)
    (mirrors : Mirrors shadow.roles G native.nativeChildren native.nativeParent)
    (consistent : native.Consistent) :
    ∃ added after, addNodeToNode shadow p x left.length native = some added ∧
      handleSetChildren shadow x (shadow.children x) added = some after ∧
      Mirrors shadow.roles F after.nativeChildren after.nativeParent ∧ after.Consistent ∧
      Logs (Around shadow F p fun _ => False) native after := by
  have child : x ∈ F.children p := by
    rw [siblings]
    simp
  have different : p ≠ x := (ne_child child).symm
  have nodup := F.nodup p
  rw [siblings] at nodup
  -- The node is added first without children, and hosts them itself afterwards.
  have fits : F.Fits x [] := fits_of_subset nodup_nil (nil_subset _)
  have awaited : Awaited shadow F G p x left right right := by
    constructor
    · exact valid
    · intro n
      by_cases isX : n = x
      · rw [isX, emptied]
        exact nil_subset _
      · by_cases isP : n = p
        · rw [isP, without, siblings]
          simp
        · rw [others n isP isX]
          exact List.Subset.refl _
    · intro n apart
      apply others n
      · rintro rfl
        exact apart .refl
      · rintro rfl
        exact apart (descends_of_child child .refl)
    · intro c member
      rcases mem_append.mp member with isLeft | isX
      · -- Nothing differs below the siblings.
        have sibling : c ∈ F.children p := by
          rw [siblings]
          exact mem_append_left _ isLeft
        apply pieces_congr
        apply tree_congr
        intro d below
        apply others d
        · rintro rfl
          exact not_descends_child sibling below
        · rintro rfl
          have same := siblings_apart sibling child below .refl
          exact (nodup_append.mp nodup).2.2 c isLeft d mem_cons_self same
      · rw [mem_singleton.mp isX, pieces_of_host (roles_hosts.mpr host),
          pieces_of_host (roles_hosts.mpr host)]
    · exact without
    · exact siblings
  obtain ⟨added, isAdded, mirrorsAdded, consistentAdded, logs⟩ := addNodeToNode_spec
    (H := F.replace x [] fits) awaited mirrors consistent
    (by
      intro n isP
      by_cases isX : n = x
      · rw [isX, replace_self, emptied]
      · rw [replace_of_ne isX, others n isP isX])
    (by rw [replace_of_ne different, siblings])
  -- Then its children are put in, in order.
  have final : F.children x =
      addViews (viewsInOrder (F.children x) 0) ((F.replace x [] fits).children x) := by
    have inOrder := addViews_viewsInOrder (F.children x) [] []
    rw [append_nil, nil_append, append_nil, length_nil] at inOrder
    rw [replace_self, inOrder]
  obtain ⟨after, done, mirrorsAfter, consistentAfter, logsChildren⟩ := addNodesToNode_spec
    valid (fun n isX => replace_of_ne isX) final (ascending_viewsInOrder (F.children x) 0).1
    (inRange_viewsInOrder _ (Nat.zero_le _)) mirrorsAdded consistentAdded
  refine ⟨added, after, isAdded, ?_, mirrorsAfter, consistentAfter, (logs.mono ?_).trans
    (logsChildren.mono ?_)⟩
  · rw [handleSetChildren_eq, valid.children]
    exact done
  · rintro operation ⟨q, hosted, c, member, adds⟩
    exact around_of_adds .refl hosted (descends_of_child child .refl) member adds
  · rintro operation ⟨q, hosted, view, isView, c, member, adds⟩
    have isChild : view.tag ∈ F.children x := by
      rw [← tags_viewsInOrder (F.children x) 0]
      exact mem_map_of_mem isView
    apply around_of_adds (descends_of_child child .refl) hosted _ member adds
    exact descends_of_child child (descends_of_child isChild .refl)

section

variable (sound : ui.Sound F) (layoutOnly : ui.shadow.isLayoutOnly x = true)
include sound layoutOnly

theorem putIn_spec (notVirtual : (ui.shadow.nodeClass x).isVirtual = false)
    (old : F.children p = left ++ right) (fits : F.Fits p (left ++ x :: right))
    (knownP : p ∈ ui.shadow.tags) :
    ∃ shadow added filled laidOut native visited visited',
      (ui.shadow.withLayoutOnly x false).addChildAt p x left.length = some shadow ∧
      addNodeToNode shadow p x left.length (ui.native.enqueue (.createView x)) = some added ∧
      handleSetChildren shadow x (shadow.children x) added = some filled ∧
      applyLayoutBase shadow (∅, filled) x = some (visited, laidOut) ∧
      (shadow.children x).foldlM (applyLayoutBase shadow) (visited, laidOut) =
        some (visited', native) ∧
      Sound ⟨shadow, native⟩ (F.replace p (left ++ x :: right) fits) ∧
      shadow.registry = ui.shadow.registry ∧
      (∀ n, n ≠ x → shadow.getNativeKind n = ui.shadow.getNativeKind n) ∧
      shadow.getNativeKind x = .parent ∧
      Logs (Around shadow (F.replace p (left ++ x :: right) fits) p fun _ => False)
        (ui.native.enqueue (.createView x)) native := by
  have noParent := not_child_of_fits old fits
  obtain ⟨knownX, isView⟩ := sound.isView x layoutOnly
  have isNone : ui.shadow.getNativeKind x = .none := by
    simp [getNativeKind, layoutOnly]
  have isParent : (ui.shadow.withLayoutOnly x false).getNativeKind x = .parent := by
    simp [getNativeKind, ShadowTree.withLayoutOnly, notVirtual,
      (ui.shadow.nodeClass x).hosts_of_view isView]
  have kinds : ∀ n, n ≠ x → (ui.shadow.withLayoutOnly x false).getNativeKind n =
      ui.shadow.getNativeKind n := fun n different => withLayoutOnly_kind different
  have valid : (ui.shadow.withLayoutOnly x false).Valid F :=
    sound.valid.changeKind rfl rfl rfl (Finset.Subset.refl _) kinds noParent
  obtain ⟨shadow, isAdded, validShadow, same⟩ :=
    addChildAt_spec valid old fits knownX knownP
  have host : shadow.getNativeKind x = .parent := by
    rw [same.kind]
    exact isParent
  -- While nothing below the node is shown, the lists do not depend on its kind.
  have empty : ui.native.nativeChildren x = [] := by
    rw [sound.mirrors.lists_eq, if_neg]
    rw [roles_hosts, isNone]
    decide
  have fitsNil : F.Fits x [] := fits_of_subset nodup_nil (nil_subset _)
  have mirrors : Mirrors shadow.roles (F.replace x [] fitsNil)
      (ui.native.enqueue (.createView x)).nativeChildren
      (ui.native.enqueue (.createView x)).nativeParent := by
    rw [same.roles]
    apply sound.mirrors.changeRole noParent (fun n isX => replace_of_ne isX) _ _ empty
    · intro _
      rw [content, replace_self]
      rfl
    · intro n different
      simp only [roles, kinds n different]
    · intro n different
      simp only [roles, kinds n different]
  have different : p ≠ x := by
    rintro rfl
    exact fits.apart p (by simp) .refl
  obtain ⟨added, filled, isPut, isFilled, mirrorsFilled, consistentFilled, logs⟩ :=
    refill_spec validShadow host replace_self
      (by rw [replace_of_ne different, old]) replace_self
      (by
        intro n isP isX
        rw [replace_of_ne isX, replace_of_ne isP])
      mirrors (consistent_enqueue sound.consistent rfl)
  obtain ⟨visited, laidOut, isLaidOut, first⟩ :=
    applyLayoutBase_spec validShadow.toLinked x (∅, filled)
  have loop : ∀ node ∈ shadow.children x, ∀ state, ∃ visited after,
      applyLayoutBase shadow state node = some (visited, after) ∧
        LaidOut (F.replace p (left ++ x :: right) fits) x state.2 after := by
    intro node member state
    obtain ⟨visited, after, done, below⟩ := applyLayoutBase_spec validShadow.toLinked node state
    rw [validShadow.children] at member
    exact ⟨visited, after, done, below.above member⟩
  obtain ⟨visited', native, isDone, rest⟩ := layoutLoop_spec loop (visited, laidOut)
  have layouts := first.trans rest
  have child : x ∈ (F.replace p (left ++ x :: right) fits).children p := by
    simp
  refine ⟨shadow, added, filled, laidOut, native, visited, visited', isAdded, isPut, isFilled,
    isLaidOut, isDone, ⟨validShadow, ?_, layouts.consistent consistentFilled, ?_, ?_⟩, ?_, ?_, host,
    logs.trans (layouts.operations.mono ?_)⟩
  · rw [layouts.children, layouts.parent]
    exact mirrorsFilled
  · rw [same.registry, same.tags]
    exact sound.known
  · intro n stillLayoutOnly
    rw [same.isLayoutOnly] at stillLayoutOnly
    rw [same.tags, same.nodeClass]
    apply sound.isView n
    by_cases isX : n = x
    · rw [isX]
      exact layoutOnly
    · simpa [ShadowTree.withLayoutOnly, isX] using stillLayoutOnly
  · rw [same.registry]
    rfl
  · intro n isX
    rw [same.kind, kinds n isX]
  · rintro operation ⟨q, n, below, isSome, rfl⟩
    exact around_of_layout mirrorsFilled (descends_of_child child below) isSome

theorem transition_sound (notVirtual : (ui.shadow.nodeClass x).isVirtual = false)
    (above : ui.shadow.parent x = some p) :
    ∃ next, ui.transitionLayoutOnlyViewToNativeView x = some next ∧ next.Sound F ∧
      next.shadow.registry = ui.shadow.registry ∧
      (∀ n, n ≠ x → next.shadow.getNativeKind n = ui.shadow.getNativeKind n) ∧
      next.shadow.getNativeKind x = .parent ∧
      ∃ detached, Logs (Around ui.shadow F p fun _ => False) ui.native detached ∧
        Logs (Around next.shadow F p fun _ => False) (detached.enqueue (.createView x))
          next.native := by
  have child := (sound.valid.parent x p).mp above
  obtain ⟨left, right, siblings⟩ := append_of_mem child
  obtain ⟨-, knownP⟩ := sound.valid.known p x child
  have nodup := F.nodup p
  rw [siblings] at nodup
  have place : (ui.shadow.children p).idxOf x = left.length := by
    have notLeft : x ∉ left := fun member =>
      (nodup_append.mp nodup).2.2 x member x mem_cons_self rfl
    rw [sound.valid.children, siblings, idxOf_append_of_notMem notLeft, idxOf_cons_self,
      Nat.add_zero]
  -- The node leaves the shadow tree and the native lists.
  have part : (left ++ right).Sublist (left ++ x :: right) :=
    List.Sublist.append_left (sublist_cons_self x right) left
  have fits : F.Fits p (left ++ right) := by
    apply fits_of_subset (part.nodup nodup)
    rw [siblings]
    exact part.subset
  obtain ⟨taken, isTaken, validTaken, same⟩ :=
    removeChildAt_spec sound.valid siblings fits
  have differ : ∀ n, n ≠ p → (F.replace p (left ++ right) fits).children n = F.children n :=
    fun n different => replace_of_ne different
  obtain ⟨detached, isDetached, mirrors, consistent, logsDetached⟩ :=
    removeNodeFromParent_spec (G := F) (H := F.replace p (left ++ right) fits) false
      validTaken.toLinked (tree_of_child differ child) (same.roles ▸ sound.mirrors)
      sound.consistent siblings differ replace_self
  have soundTaken : Sound ⟨taken, detached⟩ (F.replace p (left ++ right) fits) := by
    refine ⟨validTaken, mirrors, consistent, ?_, ?_⟩
    · rw [same.registry, same.tags]
      exact sound.known
    · rw [same.isLayoutOnly, same.tags, same.nodeClass]
      exact sound.isView
  have fitsBack : (F.replace p (left ++ right) fits).Fits p (left ++ x :: right) := by
    apply fits_of_part (F := F) _ nodup (by rw [siblings]; exact List.Subset.refl _)
    intro n
    by_cases isP : n = p
    · subst isP
      rw [replace_self, siblings]
      exact part.subset
    · rw [differ n isP]
      exact List.Subset.refl _
  have noParent := not_child_of_fits replace_self fitsBack
  have layoutOnlyTaken : taken.isLayoutOnly x = true := by
    rw [same.isLayoutOnly]
    exact layoutOnly
  have isNone : taken.getNativeKind x = .none := by
    simp [getNativeKind, layoutOnlyTaken]
  have unlinked : taken.parent x = none := by
    cases found : taken.parent x with
    | none => rfl
    | some r => exact absurd ((validTaken.parent x r).mp found) (noParent r)
  have empty : detached.nativeChildren x = [] := by
    rw [mirrors.lists_eq, if_neg]
    rw [roles_hosts, isNone]
    decide
  obtain ⟨shadow, _, _, _, native, _, _, isAdded, isPut, isFilled,
    isLaidOut, isDone, soundNext, registry, kinds, host, logs⟩ :=
    putIn_spec soundTaken layoutOnlyTaken (by rw [same.nodeClass]; exact notVirtual) replace_self
      fitsBack (by rw [same.tags]; exact knownP)
  have back : F.children =
      ((F.replace p (left ++ right) fits).replace p (left ++ x :: right) fitsBack).children := by
    rw [replace_children, replace_children, update_idem, ← siblings, update_eq_self]
  refine ⟨⟨shadow, native⟩, ?_, ⟨soundNext.valid.congr back, soundNext.mirrors.congr back,
    soundNext.consistent, soundNext.known, soundNext.isView⟩, ?_, ?_, host, detached, ?_, ?_⟩
  · have isChanged := setIsLayoutOnly_eq ⟨taken, detached⟩ false unlinked
      (mirrors.hostOf_of_not_child noParent) empty
    simp only [transitionLayoutOnlyViewToNativeView, above, place, isTaken, isDetached, isChanged,
      isAdded, isPut, isFilled, isLaidOut, isDone, Option.bind_eq_bind, Option.bind_some,
      Option.pure_def]
  · rw [registry]
    exact same.registry
  · intro n isX
    rw [kinds n isX]
    exact congrFun same.kind n
  · apply logsDetached.mono
    rintro operation ⟨q, hosted, e, -, removes⟩
    rw [same.roles] at hosted
    exact around_of_removes hosted (fun impossible => by cases impossible) removes
  · apply logs.mono
    rintro operation ⟨uses, deletes⟩
    rw [← descends_eq back] at uses
    exact ⟨uses, deletes⟩

theorem transition_detached_sound (detached : ui.shadow.parent x = none)
    (nothing : ui.shadow.totalNativeChildren x = 0) :
    ∃ next, ui.transitionLayoutOnlyViewToNativeView x = some next ∧ next.Sound F ∧
      next.shadow.registry = ui.shadow.registry := by
  have noParent := sound.noParent detached
  have isNone : ui.shadow.getNativeKind x = .none := by
    simp [getNativeKind, layoutOnly]
  have empty : ui.native.nativeChildren x = [] := by
    rw [sound.mirrors.lists_eq, if_neg]
    rw [roles_hosts, isNone]
    decide
  have noContent : content ui.shadow.roles F x = [] := by
    have total := (sound.valid.contribution_eq x).2
    exact length_eq_zero_iff.mp (by omega)
  have changed := setIsLayoutOnly_eq ui false detached
    (sound.mirrors.hostOf_of_not_child noParent) empty
  obtain ⟨valid, mirrors⟩ := sound.changeKind ⟨ui.shadow.withLayoutOnly x false, ui.native⟩ noParent
    empty (fun _ => noContent) ⟨rfl, rfl, rfl⟩ (Finset.Subset.refl _)
    (fun n different => withLayoutOnly_kind different) ⟨rfl, rfl⟩
  refine ⟨_, ?_, ⟨valid, mirrors, sound.consistent, sound.known, ?_⟩, rfl⟩
  · rw [transitionLayoutOnlyViewToNativeView, detached]
    exact changed
  · intro n stillLayoutOnly
    apply sound.isView n
    by_cases isX : n = x
    · rw [isX]
      exact layoutOnly
    · simpa [ShadowTree.withLayoutOnly, isX] using stillLayoutOnly

end

end Transition

section Children

variable {m : Tag} {shadow : ShadowTree} {G : Forest Tag}

theorem handleManageChildren_sound (tagsToRemove tagsToDelete : List Tag)
    {views : List ViewAtIndex} (sound : ui.Sound F) (valid : shadow.Valid G)
    (same : ui.shadow.SameNodes shadow) (nodup : tagsToRemove.Nodup)
    (areChildren : ∀ x ∈ tagsToRemove, x ∈ F.children m)
    (children : G.children = Function.update F.children m
      (addViews views ((F.children m).filter fun c => c ∉ tagsToRemove)))
    (ascending : views.Pairwise fun earlier later => earlier.index < later.index)
    (inRange : IndicesInRange ((F.children m).filter fun c => c ∉ tagsToRemove).length views) :
    ∃ native, handleManageChildren shadow m tagsToRemove views tagsToDelete ui.native =
        some native ∧
      Sound ⟨shadow, native⟩ G ∧
      Logs (Around shadow G m fun e => ∃ x ∈ tagsToDelete, G.Descends x e) ui.native native := by
  have differ : ∀ n, n ≠ m → F.children n = G.children n := by
    intro n different
    rw [children, update_of_ne different]
  -- Removals go first, so that the indices of the additions are those among what is left.
  obtain ⟨_, H, isRemoved, childrenH, mirrorsH, consistentH, removals⟩ :=
    removeNodesFromParent_spec (fun tag => decide (tag ∈ tagsToDelete)) valid.toLinked differ nodup
      areChildren (same.roles ▸ sound.mirrors) sound.consistent
  have childrenM : H.children m = (F.children m).filter fun c => c ∉ tagsToRemove := by
    rw [childrenH, update_self]
  obtain ⟨native, isAdded, mirrors, consistent, additions⟩ := addNodesToNode_spec valid
    (G := H) (m := m)
    (by
      intro n different
      rw [childrenH, update_of_ne different, differ n different])
    (by rw [childrenM, children, update_self]) ascending (by rw [childrenM]; exact inRange)
    mirrorsH consistentH
  refine ⟨native, ?_, ⟨valid, mirrors, consistent, ?_, ?_⟩, (removals.mono ?_).trans
    (additions.mono ?_)⟩
  · rw [handleManageChildren, isRemoved, Option.bind_some]
    exact isAdded
  · rw [same.registry, same.tags]
    exact sound.known
  · rw [same.isLayoutOnly, same.tags, same.nodeClass]
    exact sound.isView
  · rintro operation ⟨q, hosted, x, -, e, member, removes⟩
    apply around_of_removes hosted _ removes
    intro isDeleted
    exact ⟨x, of_decide_eq_true isDeleted, descends_of_mem_swept member⟩
  · rintro operation ⟨q, hosted, view, isView, c, member, adds⟩
    have child : view.tag ∈ G.children m := by
      rw [children, update_self]
      exact mem_addViews_of_view inRange isView
    exact around_of_adds .refl hosted (descends_of_child child .refl) member adds

end Children

end UIImplementation

end ReactNative


