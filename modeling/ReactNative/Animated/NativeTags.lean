import Mathlib.Algebra.Order.Group.Multiset
import ReactNative.Animated.AnimatedNodes
import ReactNative.Foundation.Loops

/-! Whatever is done to the nodes, their tags name the counterparts that exist, and the connections
are those of some collection of pairs of nodes (`Mirrors`). -/
namespace ReactNative

open List Option Function

variable (commands : List NativeCommand)

def Refers : Prop :=
  ∀ before command after, commands = before ++ command :: after → (nativeGraph before).Has command

theorem nativeGraph_concat (command : NativeCommand) :
    nativeGraph (commands ++ [command]) = (nativeGraph commands).replay command := by
  rw [nativeGraph, foldl_append]
  rfl

theorem Refers.concat {commands : List NativeCommand} {command : NativeCommand}
    (refers : Refers commands) (has : (nativeGraph commands).Has command) :
    Refers (commands ++ [command]) := by
  intro before other after split
  rcases eq_nil_or_concat after with rfl | ⟨rest, _, rfl⟩
  · obtain ⟨rfl, same⟩ := append_inj' split rfl
    cases same
    exact has
  · rw [concat_eq_append, ← cons_append, ← append_assoc] at split
    exact refers before other rest (append_inj' split rfl).1

theorem nativeGraph_connections (connections : List (ℕ × ℕ)) :
    (nativeGraph (commands ++ connections.map fun connection =>
      .connectAnimatedNodes connection.1 connection.2)).nodes = (nativeGraph commands).nodes ∧
    (nativeGraph (commands ++ connections.map fun connection =>
      .connectAnimatedNodes connection.1 connection.2)).edges =
        (nativeGraph commands).edges + connections := by
  induction connections generalizing commands with
  | nil => simp
  | cons connection rest ih =>
    obtain ⟨sameNodes, edges⟩ := ih (commands ++ [.connectAnimatedNodes connection.1 connection.2])
    rw [append_assoc, singleton_append, nativeGraph_concat] at sameNodes edges
    refine ⟨sameNodes, edges.trans ?_⟩
    change connection ::ₘ (nativeGraph commands).edges + ↑rest = _
    rw [← Multiset.cons_coe, Multiset.cons_add, Multiset.add_cons]

theorem Refers.connections {commands : List NativeCommand} (refers : Refers commands)
    {connections : List (ℕ × ℕ)}
    (existing : ∀ connection ∈ connections, connection.1 ∈ (nativeGraph commands).nodes ∧
      connection.2 ∈ (nativeGraph commands).nodes) :
    Refers (commands ++ connections.map fun connection =>
      .connectAnimatedNodes connection.1 connection.2) := by
  induction connections generalizing commands with
  | nil => simpa using refers
  | cons connection _ ih =>
    have has : (nativeGraph commands).Has (.connectAnimatedNodes connection.1 connection.2) :=
      existing connection mem_cons_self
    have later := ih (refers.concat has) (by
      rw [nativeGraph_concat]
      exact fun other member => existing other (mem_cons_of_mem _ member))
    rw [append_assoc, singleton_append] at later
    exact later

namespace AnimatedNodes

variable {count : ℕ} {nodes after : AnimatedNodes count} {n child : Fin count}

/-! ### One node at a time -/

@[simp] theorem modify_node_self (nodes : AnimatedNodes count) (n : Fin count)
    (change : AnimatedNode count → AnimatedNode count) :
    (nodes.modify n change).node n = change (nodes.node n) := update_self _ _ _

@[simp] theorem modify_node_of_ne (nodes : AnimatedNodes count) {n m : Fin count}
    (change : AnimatedNode count → AnimatedNode count) (differs : m ≠ n) :
    (nodes.modify n change).node m = nodes.node m := update_of_ne differs _ _

variable {V : Type} {change : AnimatedNode count → AnimatedNode count}

theorem modify_node_eq (field : AnimatedNode count → V)
    (same : field (change (nodes.node n)) = field (nodes.node n)) (m : Fin count) :
    field ((nodes.modify n change).node m) = field (nodes.node m) := by
  by_cases isSame : m = n
  · subst isSame
    rw [modify_node_self]
    exact same
  · rw [modify_node_of_ne nodes change isSame]

/-! ### Tags -/

/-- The tags are those of the counterparts, and each counterpart is created once. -/
structure TagsSound (nodes : AnimatedNodes count) : Prop where
  native : ∀ n tag, (nodes.node n).nativeTag = some tag → (nodes.node n).isNative = true
  below : ∀ n tag, (nodes.node n).nativeTag = some tag → tag < nodes.nativeAnimatedNodeTagCount
  unique : ∀ n m tag, (nodes.node n).nativeTag = some tag → (nodes.node m).nativeTag = some tag →
    n = m
  existing : ∀ tag, tag ∈ (nativeGraph nodes.commands).nodes ↔
    ∃ n, (nodes.node n).nativeTag = some tag
  refers : Refers nodes.commands
  fresh : ∀ tag, nodes.nativeAnimatedNodeTagCount ≤ tag →
    nodes.commands.count (.createAnimatedNode tag) = 0
  once : ∀ tag, nodes.commands.count (.createAnimatedNode tag) ≤ 1
  dropped : ∀ tag, nodes.commands.count (.createAnimatedNode tag) =
    nodes.commands.count (.dropAnimatedNode tag) +
      if tag ∈ (nativeGraph nodes.commands).nodes then 1 else 0

def tagPair (nodes : AnimatedNodes count) (pair : Fin count × Fin count) : ℕ × ℕ :=
  (((nodes.node pair.1).nativeTag).getD 0, ((nodes.node pair.2).nativeTag).getD 0)

/-- The connections, with those that are queued, are those of the given pairs of nodes. -/
structure Mirrors (nodes : AnimatedNodes count) (connected : Multiset (Fin count × Fin count)) :
    Prop extends TagsSound nodes where
  edges : (nativeGraph nodes.commands).edges + nodes.queue = connected.map nodes.tagPair
  tagged : ∀ pair ∈ connected,
    (nodes.node pair.1).nativeTag ≠ none ∧ (nodes.node pair.2).nativeTag ≠ none

variable {connected : Multiset (Fin count × Fin count)}

theorem tagPair_injOn (sound : nodes.TagsSound) {pair other : Fin count × Fin count}
    (tagged : (nodes.node pair.1).nativeTag ≠ none ∧ (nodes.node pair.2).nativeTag ≠ none)
    (otherTagged : (nodes.node other.1).nativeTag ≠ none ∧ (nodes.node other.2).nativeTag ≠ none)
    (same : nodes.tagPair pair = nodes.tagPair other) : pair = other := by
  obtain ⟨_, isParent⟩ := ne_none_iff_exists'.mp tagged.1
  obtain ⟨_, isChild⟩ := ne_none_iff_exists'.mp tagged.2
  obtain ⟨_, isOtherParent⟩ := ne_none_iff_exists'.mp otherTagged.1
  obtain ⟨_, isOtherChild⟩ := ne_none_iff_exists'.mp otherTagged.2
  simp only [tagPair, isParent, isChild, isOtherParent, isOtherChild, getD_some,
    Prod.mk.injEq] at same
  obtain ⟨rfl, rfl⟩ := same
  exact Prod.ext (sound.unique _ _ _ isParent isOtherParent)
    (sound.unique _ _ _ isChild isOtherChild)

theorem Mirrors.of_same (mirrors : nodes.Mirrors connected)
    (tags : ∀ m, (after.node m).nativeTag = (nodes.node m).nativeTag)
    (native : ∀ m, (nodes.node m).isNative = true → (after.node m).isNative = true)
    (tagCount : after.nativeAnimatedNodeTagCount = nodes.nativeAnimatedNodeTagCount)
    (queue : after.queue = nodes.queue) (commands : after.commands = nodes.commands) :
    after.Mirrors connected := by
  have pairs : after.tagPair = nodes.tagPair := by
    funext pair
    rw [tagPair, tagPair, tags, tags]
  refine ⟨⟨?_, ?_, ?_, ?_, ?_, ?_, ?_, ?_⟩, ?_, ?_⟩
  · intro m tag isTag
    exact native m (mirrors.native m tag (tags m ▸ isTag))
  · intro m tag isTag
    rw [tagCount]
    exact mirrors.below m tag (tags m ▸ isTag)
  · intro m other tag isTag isOther
    exact mirrors.unique m other tag (tags m ▸ isTag) (tags other ▸ isOther)
  · intro tag
    simp only [commands, tags]
    exact mirrors.existing tag
  · exact commands ▸ mirrors.refers
  · rw [commands, tagCount]
    exact mirrors.fresh
  · exact commands ▸ mirrors.once
  · exact commands ▸ mirrors.dropped
  · rw [commands, queue, pairs]
    exact mirrors.edges
  · intro pair member
    rw [tags, tags]
    exact mirrors.tagged pair member

theorem Mirrors.modify (mirrors : nodes.Mirrors connected) (n : Fin count)
    (change : AnimatedNode count → AnimatedNode count)
    (tag : (change (nodes.node n)).nativeTag = (nodes.node n).nativeTag)
    (native : (nodes.node n).isNative = true → (change (nodes.node n)).isNative = true) :
    (nodes.modify n change).Mirrors connected := by
  refine mirrors.of_same (modify_node_eq AnimatedNode.nativeTag tag) ?_ rfl rfl rfl
  intro m isNative
  by_cases same : m = n
  · subst same
    rw [modify_node_self]
    exact native isNative
  · rw [modify_node_of_ne nodes change same]
    exact isNative

/-- Commands that create and drop nothing leave the tags alone. -/
theorem TagsSound.issued (sound : nodes.TagsSound) {new : List NativeCommand}
    (refers : Refers (nodes.commands ++ new))
    (sameNodes : (nativeGraph (nodes.commands ++ new)).nodes = (nativeGraph nodes.commands).nodes)
    (quiet : ∀ tag, .createAnimatedNode tag ∉ new ∧ .dropAnimatedNode tag ∉ new)
    (sameNode : after.node = nodes.node)
    (tagCount : after.nativeAnimatedNodeTagCount = nodes.nativeAnimatedNodeTagCount)
    (commands : after.commands = nodes.commands ++ new) : after.TagsSound := by
  have creates (tag : ℕ) : (nodes.commands ++ new).count (.createAnimatedNode tag) =
      nodes.commands.count (.createAnimatedNode tag) := by
    rw [count_append, count_eq_zero.mpr (quiet tag).1, Nat.add_zero]
  have drops (tag : ℕ) : (nodes.commands ++ new).count (.dropAnimatedNode tag) =
      nodes.commands.count (.dropAnimatedNode tag) := by
    rw [count_append, count_eq_zero.mpr (quiet tag).2, Nat.add_zero]
  constructor <;> simp only [sameNode, tagCount, commands, sameNodes, creates, drops]
  · exact sound.native
  · exact sound.below
  · exact sound.unique
  · exact sound.existing
  · exact refers
  · exact sound.fresh
  · exact sound.once
  · exact sound.dropped

variable {command : NativeCommand} {tag : ℕ}

theorem Mirrors.listen (mirrors : nodes.Mirrors connected)
    (isTag : (nodes.node n).nativeTag = some tag)
    (listens : command = .startListeningToAnimatedNodeValue tag ∨
      command = .stopListeningToAnimatedNodeValue tag) :
    (nodes.issue command).Mirrors connected := by
  -- The command refers to a node that exists, and changes neither nodes nor edges.
  have has : (nativeGraph nodes.commands).Has command := by
    have existing : tag ∈ (nativeGraph nodes.commands).nodes := (mirrors.existing tag).mpr ⟨n, isTag⟩
    rcases listens with rfl | rfl
    · exact existing
    · exact existing
  have graph : nativeGraph (nodes.commands ++ [command]) = nativeGraph nodes.commands := by
    rw [nativeGraph_concat]
    rcases listens with rfl | rfl
    · rfl
    · rfl
  refine ⟨mirrors.toTagsSound.issued (mirrors.refers.concat has) (by rw [graph])
    (by rcases listens with rfl | rfl <;> simp) rfl rfl rfl, ?_, mirrors.tagged⟩
  change (nativeGraph (nodes.commands ++ [command])).edges + _ = _
  rw [graph]
  exact mirrors.edges

/-- What reading a tag leaves alone: all but the tag of the node and what goes with it. -/
structure ReadsTag (nodes : AnimatedNodes count) (n : Fin count) (after : AnimatedNodes count)
    (tag : ℕ) : Prop where
  isTag : (after.node n).nativeTag = some tag
  tags : ∀ m, m ≠ n → (after.node m).nativeTag = (nodes.node m).nativeTag
  kept : ∀ known, (nodes.node n).nativeTag = some known → known = tag
  children : ∀ m, (after.node m).children = (nodes.node m).children
  listeners : ∀ m, (after.node m).listeners = (nodes.node m).listeners
  native : ∀ m, (after.node m).isNative = (nodes.node m).isNative
  queueConnections : after.queueConnections = nodes.queueConnections
  queue : after.queue = nodes.queue

theorem createAnimatedNode_node_of_ne (nodes : AnimatedNodes count) {n m : Fin count}
    (differs : m ≠ n) : (nodes.createAnimatedNode n).node m = nodes.node m :=
  update_of_ne differs _ _

theorem createAnimatedNode_node_self (nodes : AnimatedNodes count) (n : Fin count) :
    (nodes.createAnimatedNode n).node n =
      { nodes.node n with
        nativeTag := some nodes.nativeAnimatedNodeTagCount
        shouldUpdateListenersForNewNativeTag := true } := update_self _ _ _

theorem createAnimatedNode_node_eq (field : AnimatedNode count → V)
    (same : field ((nodes.createAnimatedNode n).node n) = field (nodes.node n)) (m : Fin count) :
    field ((nodes.createAnimatedNode n).node m) = field (nodes.node m) := by
  by_cases isSame : m = n
  · rw [isSame]
    exact same
  · rw [createAnimatedNode_node_of_ne nodes isSame]

theorem readsTag_create (untagged : (nodes.node n).nativeTag = none) :
    ReadsTag nodes n (nodes.createAnimatedNode n) nodes.nativeAnimatedNodeTagCount where
  isTag := by rw [createAnimatedNode_node_self]
  tags m differs := by rw [createAnimatedNode_node_of_ne nodes differs]
  kept known isKnown := by cases untagged.symm.trans isKnown
  children := createAnimatedNode_node_eq AnimatedNode.children
    (by rw [createAnimatedNode_node_self])
  listeners := createAnimatedNode_node_eq AnimatedNode.listeners
    (by rw [createAnimatedNode_node_self])
  native := createAnimatedNode_node_eq AnimatedNode.isNative
    (by rw [createAnimatedNode_node_self])
  queueConnections := rfl
  queue := rfl

theorem Mirrors.createAnimatedNode (mirrors : nodes.Mirrors connected)
    (isNative : (nodes.node n).isNative = true) (untagged : (nodes.node n).nativeTag = none) :
    (nodes.createAnimatedNode n).Mirrors connected := by
  have reads := readsTag_create untagged
  -- The nodes that are connected have tags, so the node is not one of them.
  have pairs : ∀ pair ∈ connected, (nodes.createAnimatedNode n).tagPair pair = nodes.tagPair pair ∧
      ((nodes.createAnimatedNode n).node pair.1).nativeTag = (nodes.node pair.1).nativeTag ∧
      ((nodes.createAnimatedNode n).node pair.2).nativeTag = (nodes.node pair.2).nativeTag := by
    intro pair member
    obtain ⟨parentTagged, childTagged⟩ := mirrors.tagged pair member
    have parent := reads.tags pair.1 (fun same => parentTagged (same ▸ untagged))
    have child := reads.tags pair.2 (fun same => childTagged (same ▸ untagged))
    exact ⟨by rw [tagPair, tagPair, parent, child], parent, child⟩
  -- A tag of the new state is the new one or an old one.
  have isTag : ∀ {m tag}, ((nodes.createAnimatedNode n).node m).nativeTag = some tag →
      m = n ∧ tag = nodes.nativeAnimatedNodeTagCount ∨
        m ≠ n ∧ (nodes.node m).nativeTag = some tag := by
    intro m tag isTag
    by_cases same : m = n
    · subst same
      rw [reads.isTag] at isTag
      exact Or.inl ⟨rfl, (some.inj isTag).symm⟩
    · exact Or.inr ⟨same, reads.tags m same ▸ isTag⟩
  have isNew : nodes.nativeAnimatedNodeTagCount ∉ (nativeGraph nodes.commands).nodes := by
    intro existing
    obtain ⟨m, isOld⟩ := (mirrors.existing _).mp existing
    exact absurd (mirrors.below m _ isOld) (Nat.lt_irrefl _)
  have graph : nativeGraph (nodes.createAnimatedNode n).commands =
      (nativeGraph nodes.commands).replay (.createAnimatedNode nodes.nativeAnimatedNodeTagCount) :=
    nativeGraph_concat _ _
  have creates : ∀ tag, (nodes.createAnimatedNode n).commands.count (.createAnimatedNode tag) =
      nodes.commands.count (.createAnimatedNode tag) +
        if tag = nodes.nativeAnimatedNodeTagCount then 1 else 0 := by
    intro tag
    change (nodes.commands ++ [_]).count _ = _
    by_cases isCount : tag = nodes.nativeAnimatedNodeTagCount
    · simp [isCount]
    · simp [isCount, Ne.symm isCount]
  have drops : ∀ tag, (nodes.createAnimatedNode n).commands.count (.dropAnimatedNode tag) =
      nodes.commands.count (.dropAnimatedNode tag) := by
    intro tag
    change (nodes.commands ++ [_]).count _ = _
    simp [count_append]
  refine ⟨⟨?_, ?_, ?_, ?_, mirrors.refers.concat trivial, ?_, ?_, ?_⟩, ?_, ?_⟩
  · intro m tag tagged
    rw [reads.native]
    rcases isTag tagged with ⟨rfl, -⟩ | ⟨-, isOld⟩
    · exact isNative
    · exact mirrors.native m tag isOld
  · intro m tag tagged
    rcases isTag tagged with ⟨-, rfl⟩ | ⟨-, isOld⟩
    · exact Nat.lt_succ_self _
    · exact (mirrors.below m tag isOld).trans (Nat.lt_succ_self _)
  · intro m other tag tagged otherTagged
    rcases isTag tagged with ⟨rfl, isCount⟩ | ⟨-, isOld⟩ <;>
      rcases isTag otherTagged with ⟨rfl, isOtherCount⟩ | ⟨-, isOtherOld⟩
    · rfl
    · exact absurd (isCount ▸ mirrors.below other tag isOtherOld) (Nat.lt_irrefl _)
    · exact absurd (isOtherCount ▸ mirrors.below m tag isOld) (Nat.lt_irrefl _)
    · exact mirrors.unique m other tag isOld isOtherOld
  · intro tag
    rw [graph]
    change tag ∈ insert nodes.nativeAnimatedNodeTagCount (nativeGraph nodes.commands).nodes ↔ _
    rw [Finset.mem_insert, mirrors.existing tag]
    constructor
    · rintro (rfl | ⟨m, isOld⟩)
      · exact ⟨n, reads.isTag⟩
      · refine ⟨m, ?_⟩
        rw [reads.tags m (fun same => by cases untagged.symm.trans (same ▸ isOld))]
        exact isOld
    · rintro ⟨m, tagged⟩
      rcases isTag tagged with ⟨-, rfl⟩ | ⟨-, isOld⟩
      · exact Or.inl rfl
      · exact Or.inr ⟨m, isOld⟩
  · intro tag bound
    have above : nodes.nativeAnimatedNodeTagCount + 1 ≤ tag := bound
    rw [creates, mirrors.fresh tag (by omega), if_neg (by omega)]
  · intro tag
    rw [creates]
    split
    next isCount => rw [mirrors.fresh tag isCount.ge]
    next => exact mirrors.once tag
  · intro tag
    rw [creates, drops, graph, mirrors.dropped tag]
    change _ = _ +
      if tag ∈ insert nodes.nativeAnimatedNodeTagCount (nativeGraph nodes.commands).nodes then 1
      else 0
    by_cases isCount : tag = nodes.nativeAnimatedNodeTagCount
    · rw [isCount, if_pos rfl, if_neg isNew, if_pos (Finset.mem_insert_self _ _)]
    · simp only [Finset.mem_insert, isCount, false_or, if_false, Nat.add_zero]
  · rw [graph]
    change (nativeGraph nodes.commands).edges + nodes.queue = _
    rw [mirrors.edges]
    exact Multiset.map_congr rfl fun pair member => ((pairs pair member).1).symm
  · intro pair member
    obtain ⟨-, parent, child⟩ := pairs pair member
    rw [parent, child]
    exact mirrors.tagged pair member

/-- **Reading a tag creates the counterpart if there is none.** -/
theorem Mirrors.getNativeTag (mirrors : nodes.Mirrors connected)
    (isNative : (nodes.node n).isNative = true) :
    ∃ after tag, nodes.getNativeTag n = (after, tag) ∧ after.Mirrors connected ∧
      ReadsTag nodes n after tag := by
  unfold AnimatedNodes.getNativeTag
  split
  next tag isTag =>
    exact ⟨nodes, tag, rfl, mirrors, isTag, fun _ _ => rfl,
      fun known isKnown => some.inj (isKnown.symm.trans isTag),
      fun _ => rfl, fun _ => rfl, fun _ => rfl, rfl, rfl⟩
  next untagged =>
    exact ⟨_, _, rfl, mirrors.createAnimatedNode isNative untagged, readsTag_create untagged⟩

/-- What reading tags and issuing commands for them leaves alone. Only the nodes that are named
get tags. -/
structure ReadsTags (named : Fin count → Prop) (nodes after : AnimatedNodes count) : Prop where
  kept : ∀ m tag, (nodes.node m).nativeTag = some tag → (after.node m).nativeTag = some tag
  created : ∀ m, (after.node m).nativeTag ≠ none → (nodes.node m).nativeTag ≠ none ∨ named m
  children : ∀ m, (after.node m).children = (nodes.node m).children
  listeners : ∀ m, (after.node m).listeners = (nodes.node m).listeners
  native : ∀ m, (after.node m).isNative = (nodes.node m).isNative
  queueConnections : after.queueConnections = nodes.queueConnections
  queue : nodes.queueConnections = false → after.queue = nodes.queue

variable {named : Fin count → Prop}

theorem ReadsTags.trans {between : AnimatedNodes count}
    (first : ReadsTags named nodes between) (second : ReadsTags named between after) :
    ReadsTags named nodes after where
  kept m tag isTag := second.kept m tag (first.kept m tag isTag)
  created m tagged := by
    rcases second.created m tagged with taggedBetween | isNamed
    · exact first.created m taggedBetween
    · exact Or.inr isNamed
  children m := (second.children m).trans (first.children m)
  listeners m := (second.listeners m).trans (first.listeners m)
  native m := (second.native m).trans (first.native m)
  queueConnections := second.queueConnections.trans first.queueConnections
  queue unqueued :=
    (second.queue (first.queueConnections.trans unqueued)).trans (first.queue unqueued)

theorem ReadsTags.mono {more : Fin count → Prop} (reads : ReadsTags named nodes after)
    (named_more : ∀ m, named m → more m) : ReadsTags more nodes after :=
  { reads with created := fun m tagged => (reads.created m tagged).imp_right (named_more m) }

theorem ReadsTag.readsTags (reads : ReadsTag nodes n after tag) :
    ReadsTags (· = n) nodes after where
  kept m known isKnown := by
    by_cases same : m = n
    · subst same
      rw [reads.isTag, reads.kept known isKnown]
    · rw [reads.tags m same]
      exact isKnown
  created m tagged := by
    by_cases same : m = n
    · exact Or.inr same
    · exact Or.inl (reads.tags m same ▸ tagged)
  children := reads.children
  listeners := reads.listeners
  native := reads.native
  queueConnections := reads.queueConnections
  queue _ := reads.queue

theorem readsTags_of_same (tags : ∀ m, (after.node m).nativeTag = (nodes.node m).nativeTag)
    (children : ∀ m, (after.node m).children = (nodes.node m).children)
    (listeners : ∀ m, (after.node m).listeners = (nodes.node m).listeners)
    (native : ∀ m, (after.node m).isNative = (nodes.node m).isNative)
    (queueConnections : after.queueConnections = nodes.queueConnections)
    (queue : nodes.queueConnections = false → after.queue = nodes.queue) :
    ReadsTags named nodes after where
  kept m _ isTag := (tags m).trans isTag
  created m tagged := Or.inl (tags m ▸ tagged)
  children := children
  listeners := listeners
  native := native
  queueConnections := queueConnections
  queue := queue

theorem ReadsTags.refl (named : Fin count → Prop) (nodes : AnimatedNodes count) :
    ReadsTags named nodes nodes :=
  readsTags_of_same (fun _ => rfl) (fun _ => rfl) (fun _ => rfl) (fun _ => rfl) rfl fun _ => rfl

theorem readsTags_issue (nodes : AnimatedNodes count) (command : NativeCommand) :
    ReadsTags named nodes (nodes.issue command) :=
  readsTags_of_same (fun _ => rfl) (fun _ => rfl) (fun _ => rfl) (fun _ => rfl) rfl fun _ => rfl

/-! ### Connections -/

variable {parentTag childTag : ℕ}

theorem Mirrors.issue_connection (mirrors : nodes.Mirrors connected)
    {changed : Multiset (Fin count × Fin count)}
    (isConnection : command = .connectAnimatedNodes parentTag childTag ∨
      command = .disconnectAnimatedNodes parentTag childTag)
    (isParent : (nodes.node n).nativeTag = some parentTag)
    (isChild : (nodes.node child).nativeTag = some childTag)
    (edges : ((nativeGraph nodes.commands).replay command).edges + nodes.queue =
      changed.map nodes.tagPair) (tagged : ∀ pair ∈ changed,
      (nodes.node pair.1).nativeTag ≠ none ∧ (nodes.node pair.2).nativeTag ≠ none) :
    (nodes.issue command).Mirrors changed := by
  -- Both ends exist, as the nodes with these tags do.
  have has : (nativeGraph nodes.commands).Has command := by
    have parentExists := (mirrors.existing parentTag).mpr ⟨n, isParent⟩
    have childExists := (mirrors.existing childTag).mpr ⟨child, isChild⟩
    rcases isConnection with rfl | rfl
    · exact ⟨parentExists, childExists⟩
    · exact ⟨parentExists, childExists⟩
  have graph : nativeGraph (nodes.issue command).commands =
      (nativeGraph nodes.commands).replay command := nativeGraph_concat _ _
  have sameNodes : ((nativeGraph nodes.commands).replay command).nodes =
      (nativeGraph nodes.commands).nodes := by
    rcases isConnection with rfl | rfl
    · rfl
    · rfl
  refine ⟨mirrors.toTagsSound.issued (mirrors.refers.concat has)
    (by rw [nativeGraph_concat, sameNodes]) (by rcases isConnection with rfl | rfl <;> simp)
    rfl rfl rfl, ?_, tagged⟩
  rw [graph]
  exact edges

theorem tagPair_eq (isParent : (nodes.node n).nativeTag = some parentTag)
    (isChild : (nodes.node child).nativeTag = some childTag) :
    nodes.tagPair (n, child) = (parentTag, childTag) := by
  simp only [tagPair, isParent, isChild, getD_some]

section

variable (mirrors : nodes.Mirrors connected)
include mirrors

theorem Mirrors.connectAnimatedNodes (isParent : (nodes.node n).nativeTag = some parentTag)
    (isChild : (nodes.node child).nativeTag = some childTag) :
    (nodes.connectAnimatedNodes parentTag childTag).Mirrors ((n, child) ::ₘ connected) := by
  have tagged : ∀ pair ∈ (n, child) ::ₘ connected,
      (nodes.node pair.1).nativeTag ≠ none ∧ (nodes.node pair.2).nativeTag ≠ none := by
    intro pair member
    rcases Multiset.mem_cons.mp member with rfl | isOld
    · rw [isParent, isChild]
      exact ⟨some_ne_none _, some_ne_none _⟩
    · exact mirrors.tagged pair isOld
  unfold AnimatedNodes.connectAnimatedNodes
  split
  next =>
    refine ⟨⟨mirrors.native, mirrors.below, mirrors.unique, mirrors.existing, mirrors.refers,
      mirrors.fresh, mirrors.once, mirrors.dropped⟩, ?_, tagged⟩
    change (nativeGraph nodes.commands).edges + ↑(nodes.queue ++ [(parentTag, childTag)]) =
      ((n, child) ::ₘ connected).map nodes.tagPair
    rw [Multiset.map_cons, ← mirrors.edges, tagPair_eq isParent isChild, ← Multiset.coe_add,
      ← add_assoc, ← Multiset.singleton_add, add_comm]
    rfl
  next =>
    refine mirrors.issue_connection (Or.inl rfl) isParent isChild ?_ tagged
    change (parentTag, childTag) ::ₘ (nativeGraph nodes.commands).edges + ↑nodes.queue = _
    rw [Multiset.map_cons, ← mirrors.edges, tagPair_eq isParent isChild, Multiset.cons_add]

theorem Mirrors.getNativeTags (isNative : (nodes.node n).isNative = true)
    (childNative : (nodes.node child).isNative = true) :
    ∃ between parentTag after childTag, nodes.getNativeTag n = (between, parentTag) ∧
      between.getNativeTag child = (after, childTag) ∧ after.Mirrors connected ∧
      (after.node n).nativeTag = some parentTag ∧ (after.node child).nativeTag = some childTag ∧
      ReadsTags (fun m => m = n ∨ m = child) nodes after := by
  obtain ⟨between, parentTag, isParent, mirrorsBetween, reads⟩ := mirrors.getNativeTag isNative
  rw [← reads.native child] at childNative
  obtain ⟨after, childTag, isChild, mirrorsAfter, readsChild⟩ :=
    mirrorsBetween.getNativeTag childNative
  exact ⟨between, parentTag, after, childTag, isParent, isChild, mirrorsAfter,
    readsChild.readsTags.kept n parentTag reads.isTag, readsChild.isTag,
    (reads.readsTags.mono fun _ => Or.inl).trans (readsChild.readsTags.mono fun _ => Or.inr)⟩

/-- **Connecting two nodes adds the pair of them.** -/
theorem Mirrors.connect (isNative : (nodes.node n).isNative = true)
    (childNative : (nodes.node child).isNative = true) :
    (nodes.connect n child).Mirrors ((n, child) ::ₘ connected) ∧
      ReadsTags (fun m => m = n ∨ m = child) nodes (nodes.connect n child) := by
  obtain ⟨_, parentTag, after, childTag, first, second, mirrorsAfter, isParent, isChild, reads⟩ :=
    mirrors.getNativeTags isNative childNative
  have connects : nodes.connect n child = after.connectAnimatedNodes parentTag childTag := by
    rw [AnimatedNodes.connect, first]
    dsimp only
    rw [second]
  rw [connects]
  refine ⟨mirrorsAfter.connectAnimatedNodes isParent isChild, reads.trans ?_⟩
  unfold AnimatedNodes.connectAnimatedNodes
  split
  next queues =>
    exact readsTags_of_same (fun _ => rfl) (fun _ => rfl) (fun _ => rfl) (fun _ => rfl) rfl
      (fun unqueued => by cases unqueued.symm.trans queues)
  next => exact readsTags_issue _ _

/-- **Disconnecting two nodes takes one pair of them away**, if there is one. -/
theorem Mirrors.disconnect (unqueued : nodes.queue = [])
    (queueOff : nodes.queueConnections = false) (isNative : (nodes.node n).isNative = true)
    (childNative : (nodes.node child).isNative = true) :
    (nodes.disconnect n child).Mirrors (connected.erase (n, child)) ∧
      ReadsTags (fun m => m = n ∨ m = child) nodes (nodes.disconnect n child) := by
  obtain ⟨_, parentTag, after, childTag, first, second, mirrorsAfter, isParent, isChild, reads⟩ :=
    mirrors.getNativeTags isNative childNative
  have disconnects : nodes.disconnect n child =
      after.issue (.disconnectAnimatedNodes parentTag childTag) := by
    rw [AnimatedNodes.disconnect, first]
    dsimp only
    rw [second]
  rw [disconnects]
  refine ⟨?_, reads.trans (readsTags_issue _ _)⟩
  have noQueue : after.queue = [] := (reads.queue queueOff).trans unqueued
  have edges := mirrorsAfter.edges
  rw [noQueue, Multiset.coe_nil, add_zero] at edges
  refine mirrorsAfter.issue_connection (Or.inr rfl) isParent isChild ?_
    fun pair member => mirrorsAfter.tagged pair (Multiset.mem_of_mem_erase member)
  change (nativeGraph after.commands).edges.erase (parentTag, childTag) + ↑after.queue = _
  rw [noQueue, Multiset.coe_nil, add_zero, edges, ← tagPair_eq isParent isChild]
  by_cases member : (n, child) ∈ connected
  · exact (Multiset.map_erase_of_mem _ _ member).symm
  · -- Pairs of other nodes have other tags.
    rw [Multiset.erase_of_notMem member, Multiset.erase_of_notMem]
    intro isTags
    obtain ⟨pair, isPair, same⟩ := Multiset.mem_map.mp isTags
    have tagged : (after.node n).nativeTag ≠ none ∧ (after.node child).nativeTag ≠ none := by
      rw [isParent, isChild]
      exact ⟨some_ne_none _, some_ne_none _⟩
    exact member (tagPair_injOn mirrorsAfter.toTagsSound (mirrorsAfter.tagged pair isPair) tagged same
      ▸ isPair)

theorem Mirrors.disableQueue : nodes.disableQueue.Mirrors connected := by
  -- Both ends of a queued connection have tags, since the mirror counts the queue as made.
  have existing : ∀ connection ∈ nodes.queue, connection.1 ∈ (nativeGraph nodes.commands).nodes ∧
        connection.2 ∈ (nativeGraph nodes.commands).nodes := by
    intro connection member
    have isTags : connection ∈ connected.map nodes.tagPair := by
      rw [← mirrors.edges]
      exact Multiset.mem_add.mpr (Or.inr member)
    obtain ⟨pair, isPair, rfl⟩ := Multiset.mem_map.mp isTags
    obtain ⟨parentTagged, childTagged⟩ := mirrors.tagged pair isPair
    obtain ⟨parentTag, isParent⟩ := ne_none_iff_exists'.mp parentTagged
    obtain ⟨childTag, isChild⟩ := ne_none_iff_exists'.mp childTagged
    have isPairTags : nodes.tagPair pair = (parentTag, childTag) := tagPair_eq isParent isChild
    rw [isPairTags]
    exact ⟨(mirrors.existing _).mpr ⟨_, isParent⟩, (mirrors.existing _).mpr ⟨_, isChild⟩⟩
  -- The commands of the queue connect only: no node is created or dropped by them.
  obtain ⟨sameNodes, edges⟩ := nativeGraph_connections nodes.commands nodes.queue
  refine ⟨mirrors.toTagsSound.issued (mirrors.refers.connections existing) sameNodes (by simp)
    rfl rfl rfl, ?_, mirrors.tagged⟩
  -- What was queued is now among the edges, and the queue is empty.
  refine (add_zero _).trans (edges.trans ?_)
  exact mirrors.edges

end

theorem dropAnimatedNode_eq (isTag : (nodes.node n).nativeTag = some tag)
    (isNative : (nodes.node n).isNative = true) :
    nodes.dropAnimatedNode n = { nodes with
      node := Function.update nodes.node n { nodes.node n with nativeTag := none }
      commands := nodes.commands ++ [NativeCommand.dropAnimatedNode tag] } := by
  rw [AnimatedNodes.dropAnimatedNode, isTag]
  dsimp only
  rw [if_pos isNative]
  rfl

theorem dropAnimatedNode_of_untagged (untagged : (nodes.node n).nativeTag = none) :
    nodes.dropAnimatedNode n = nodes := by
  rw [AnimatedNodes.dropAnimatedNode, untagged]

theorem TagsSound.isTag_drop (sound : nodes.TagsSound) (n m : Fin count) (other : ℕ) :
    ((nodes.dropAnimatedNode n).node m).nativeTag = some other ↔
      m ≠ n ∧ (nodes.node m).nativeTag = some other := by
  cases isTag : (nodes.node n).nativeTag with
  | none =>
    rw [dropAnimatedNode_of_untagged isTag]
    refine ⟨fun isOther => ⟨?_, isOther⟩, And.right⟩
    rintro rfl
    cases isTag.symm.trans isOther
  | some tag =>
    rw [dropAnimatedNode_eq isTag (sound.native n tag isTag)]
    by_cases same : m = n
    · subst same
      simp
    · simp [same]

theorem TagsSound.dropAnimatedNode (sound : nodes.TagsSound) (n : Fin count) :
    (nodes.dropAnimatedNode n).TagsSound := by
  have isTagDrop := sound.isTag_drop n
  cases isTag : (nodes.node n).nativeTag with
  | none =>
    rw [dropAnimatedNode_of_untagged isTag]
    exact sound
  | some tag =>
    -- The node exists by its tag, and the command drops it once.
    have existed : tag ∈ (nativeGraph nodes.commands).nodes := (sound.existing tag).mpr ⟨n, isTag⟩
    have native : ∀ m, ((nodes.dropAnimatedNode n).node m).isNative = (nodes.node m).isNative := by
      rw [dropAnimatedNode_eq isTag (sound.native n tag isTag)]
      intro m
      by_cases same : m = n
      · subst same
        simp
      · simp [same]
    have commands : (nodes.dropAnimatedNode n).commands =
        nodes.commands ++ [NativeCommand.dropAnimatedNode tag] := by
      rw [dropAnimatedNode_eq isTag (sound.native n tag isTag)]
    have tagCount : (nodes.dropAnimatedNode n).nativeAnimatedNodeTagCount =
        nodes.nativeAnimatedNodeTagCount := by
      rw [dropAnimatedNode_eq isTag (sound.native n tag isTag)]
    have creates : ∀ other, (nodes.dropAnimatedNode n).commands.count
        (NativeCommand.createAnimatedNode other) =
          nodes.commands.count (NativeCommand.createAnimatedNode other) := by
      rw [commands]
      simp [count_append]
    have graph : (nativeGraph (nodes.dropAnimatedNode n).commands).nodes =
        (nativeGraph nodes.commands).nodes.erase tag := by
      rw [commands, nativeGraph_concat]
      rfl
    -- The fields in the order of `TagsSound`; another node reads as before, by `isTagDrop`.
    refine ⟨?_, ?_, ?_, ?_, ?_, ?_, ?_, ?_⟩
    · intro m other isOther
      rw [native]
      exact sound.native m other ((isTagDrop m other).mp isOther).2
    · intro m other isOther
      rw [tagCount]
      exact sound.below m other ((isTagDrop m other).mp isOther).2
    · intro m another other isOther isAnother
      exact sound.unique m another other ((isTagDrop m other).mp isOther).2
        ((isTagDrop another other).mp isAnother).2
    · intro other
      rw [graph, Finset.mem_erase, sound.existing other]
      constructor
      · rintro ⟨differs, m, isOther⟩
        refine ⟨m, (isTagDrop m other).mpr ⟨?_, isOther⟩⟩
        rintro rfl
        exact differs (some.inj (isOther.symm.trans isTag))
      · rintro ⟨m, isOther⟩
        obtain ⟨differs, isOther⟩ := (isTagDrop m other).mp isOther
        refine ⟨?_, m, isOther⟩
        rintro rfl
        exact differs (sound.unique m n _ isOther isTag)
    · rw [commands]
      exact sound.refers.concat existed
    · intro other bound
      rw [tagCount] at bound
      exact (creates other).trans (sound.fresh other bound)
    · intro other
      exact (creates other).trans_le (sound.once other)
    · intro other
      -- The tag that is dropped now no longer exists: one side gains what the other loses.
      rw [creates, graph, sound.dropped other, commands, count_append, count_singleton]
      by_cases same : other = tag
      · simp [same, existed]
      · simp [same, Ne.symm same]

/-- **A node that is dropped leaves with its connections.** -/
theorem Mirrors.dropAnimatedNode (mirrors : nodes.Mirrors connected) (unqueued : nodes.queue = [])
    (n : Fin count) :
    (nodes.dropAnimatedNode n).Mirrors (connected.filter fun pair => pair.1 ≠ n ∧ pair.2 ≠ n) := by
  have isTagDrop := mirrors.toTagsSound.isTag_drop n
  have sameTag : ∀ m, m ≠ n →
      ((nodes.dropAnimatedNode n).node m).nativeTag = (nodes.node m).nativeTag := by
    intro m differs
    apply Option.ext
    intro other
    rw [isTagDrop m other, and_iff_right differs]
  refine ⟨mirrors.toTagsSound.dropAnimatedNode n, ?_, ?_⟩
  · have edges := mirrors.edges
    rw [unqueued, Multiset.coe_nil, add_zero] at edges
    have pairs : (connected.filter fun pair => pair.1 ≠ n ∧ pair.2 ≠ n).map
        (nodes.dropAnimatedNode n).tagPair =
          (connected.filter fun pair => pair.1 ≠ n ∧ pair.2 ≠ n).map nodes.tagPair := by
      refine Multiset.map_congr rfl fun pair member => ?_
      obtain ⟨-, parentDiffers, childDiffers⟩ := Multiset.mem_filter.mp member
      rw [tagPair, tagPair, sameTag _ parentDiffers, sameTag _ childDiffers]
    rw [pairs]
    cases isTag : (nodes.node n).nativeTag with
    | none =>
      rw [dropAnimatedNode_of_untagged isTag, unqueued, Multiset.coe_nil, add_zero, edges]
      congr 1
      symm
      rw [Multiset.filter_eq_self]
      intro pair member
      obtain ⟨parentTagged, childTagged⟩ := mirrors.tagged pair member
      exact ⟨fun same => parentTagged (same ▸ isTag), fun same => childTagged (same ▸ isTag)⟩
    | some tag =>
      rw [dropAnimatedNode_eq isTag (mirrors.native n tag isTag)]
      rw [nativeGraph_concat, unqueued, Multiset.coe_nil, add_zero]
      change (nativeGraph nodes.commands).edges.filter (fun edge => edge.1 ≠ tag ∧ edge.2 ≠ tag) = _
      rw [edges, Multiset.filter_map]
      congr 1
      -- The tag is that of this node alone.
      have isNode : ∀ {m}, (nodes.node m).nativeTag ≠ none →
          (((nodes.node m).nativeTag).getD 0 = tag ↔ m = n) := by
        intro m tagged
        obtain ⟨other, isOther⟩ := ne_none_iff_exists'.mp tagged
        rw [isOther, getD_some]
        constructor
        · rintro rfl
          exact mirrors.unique m n _ isOther isTag
        · rintro rfl
          exact some.inj (isOther.symm.trans isTag)
      refine Multiset.filter_congr fun pair member => ?_
      obtain ⟨parentTagged, childTagged⟩ := mirrors.tagged pair member
      exact and_congr (not_congr (isNode parentTagged)) (not_congr (isNode childTagged))
  · intro pair member
    obtain ⟨member, parentDiffers, childDiffers⟩ := Multiset.mem_filter.mp member
    rw [sameTag _ parentDiffers, sameTag _ childDiffers]
    exact mirrors.tagged pair member

/-! ### Listening -/

theorem readsTags_modify (tag : (change (nodes.node n)).nativeTag = (nodes.node n).nativeTag)
    (children : (change (nodes.node n)).children = (nodes.node n).children)
    (listeners : (change (nodes.node n)).listeners = (nodes.node n).listeners)
    (native : (change (nodes.node n)).isNative = (nodes.node n).isNative) :
    ReadsTags named nodes (nodes.modify n change) :=
  readsTags_of_same (modify_node_eq AnimatedNode.nativeTag tag)
    (modify_node_eq AnimatedNode.children children)
    (modify_node_eq AnimatedNode.listeners listeners)
    (modify_node_eq AnimatedNode.isNative native) rfl fun _ => rfl

section

variable (mirrors : nodes.Mirrors connected) (isNative : (nodes.node n).isNative = true)
include mirrors isNative

theorem Mirrors.listenTo {command : ℕ → NativeCommand}
    (listens : ∀ tag, command tag = .startListeningToAnimatedNodeValue tag ∨
      command tag = .stopListeningToAnimatedNodeValue tag) :
    ((nodes.getNativeTag n).1.issue (command (nodes.getNativeTag n).2)).Mirrors connected ∧
      ReadsTags (· = n) nodes
        ((nodes.getNativeTag n).1.issue (command (nodes.getNativeTag n).2)) := by
  obtain ⟨_, tag, isTag, mirrorsAfter, reads⟩ := mirrors.getNativeTag isNative
  rw [isTag]
  exact ⟨mirrorsAfter.listen reads.isTag (listens tag), reads.readsTags.trans (readsTags_issue _ _)⟩

theorem Mirrors.stopListening :
    (nodes.stopListeningForNativeValueUpdates n).Mirrors connected ∧
      ReadsTags (· = n) nodes (nodes.stopListeningForNativeValueUpdates n) := by
  unfold stopListeningForNativeValueUpdates
  split
  next =>
    exact ⟨mirrors, ReadsTags.refl _ nodes⟩
  next =>
    have flagged := mirrors.modify n
      (fun node => { node with nativeAnimatedValueListener := false }) rfl id
    obtain ⟨mirrorsAfter, reads⟩ := flagged.listenTo
      ((modify_node_eq AnimatedNode.isNative rfl n).trans isNative) fun _ => Or.inr rfl
    exact ⟨mirrorsAfter, (readsTags_modify rfl rfl rfl rfl).trans reads⟩

theorem Mirrors.startListening :
    (nodes.startListeningToNativeValueUpdates n).Mirrors connected ∧
      ReadsTags (· = n) nodes (nodes.startListeningToNativeValueUpdates n) := by
  unfold startListeningToNativeValueUpdates
  split
  next =>
    exact ⟨mirrors, ReadsTags.refl _ nodes⟩
  next =>
    -- For a new tag it stops listening first.
    have updated : ∃ between, (if (nodes.node n).shouldUpdateListenersForNewNativeTag then
          (nodes.modify n fun node => { node with shouldUpdateListenersForNewNativeTag := false }
            ).stopListeningForNativeValueUpdates n
        else nodes) = between ∧ between.Mirrors connected ∧ ReadsTags (· = n) nodes between := by
      refine ⟨_, rfl, ?_⟩
      split
      next =>
        have flagged := mirrors.modify n
          (fun node => { node with shouldUpdateListenersForNewNativeTag := false }) rfl id
        obtain ⟨mirrorsAfter, reads⟩ := flagged.stopListening
          ((modify_node_eq AnimatedNode.isNative rfl n).trans isNative)
        exact ⟨mirrorsAfter, (readsTags_modify rfl rfl rfl rfl).trans reads⟩
      next =>
        exact ⟨mirrors, ReadsTags.refl _ nodes⟩
    obtain ⟨between, isBetween, mirrorsBetween, readsBetween⟩ := updated
    rw [isBetween]
    have nativeBetween : (between.node n).isNative = true := (readsBetween.native n).trans isNative
    obtain ⟨mirrorsAfter, reads⟩ := mirrorsBetween.listenTo nativeBetween fun _ => Or.inl rfl
    exact ⟨mirrorsAfter.modify n _ rfl id,
      (readsBetween.trans reads).trans (readsTags_modify rfl rfl rfl rfl)⟩

end

end AnimatedNodes

end ReactNative

