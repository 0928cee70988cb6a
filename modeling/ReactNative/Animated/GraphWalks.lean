import ReactNative.Animated.NativeAnimatedNodesManager

/-! Both walks put nodes into a queue, color them and count them; they differ in how they change the
counts of edges and in when a node is put into the queue. -/
namespace ReactNative

open List

variable {N D E : Type}

/-! ### Colors -/

variable (color : BFSColor)

theorem nextColor_ne : nextColor color ≠ color := by
  unfold nextColor initialBFSColor
  split <;> bv_omega

theorem nextColor_ne_initial : nextColor color ≠ initialBFSColor := by
  unfold nextColor initialBFSColor
  split <;> bv_omega

theorem nextColor_nextColor_ne : nextColor (nextColor color) ≠ color := by
  unfold nextColor initialBFSColor
  split <;> split <;> bv_omega

theorem NativeAnimatedNodesManager.freshColors_of_previous
    {manager : NativeAnimatedNodesManager N D}
    (previous : ∀ n, manager.bfsColor n = initialBFSColor ∨
      manager.bfsColor n = manager.animatedGraphBFSColor) : manager.FreshColors := by
  intro n
  rcases previous n with same | same
  · rw [same]
    exact ⟨(nextColor_ne_initial _).symm, (nextColor_ne_initial _).symm⟩
  · rw [same]
    exact ⟨(nextColor_ne _).symm, (nextColor_nextColor_ne _).symm⟩

namespace GraphWalk

def Colored (walk : GraphWalk N D) (n : N) : Prop := walk.bfsColor n = walk.animatedGraphBFSColor

/-! ### Lists of nodes -/

variable {f : GraphWalk N D → N → GraphWalk N D}

theorem colored_foldl_start
    (step : ∀ walk n m, (f walk n).Colored m ↔ walk.Colored m ∨ m = n) (nodes : List N)
    (walk : GraphWalk N D) (m : N) :
    (nodes.foldl f walk).Colored m ↔ walk.Colored m ∨ m ∈ nodes := by
  induction nodes generalizing walk with
  | nil => simp
  | cons n _ ih =>
    rw [foldl_cons, ih, step, mem_cons, or_assoc]

theorem incoming_foldl_same
    (step : ∀ walk n, (f walk n).activeIncomingNodes = walk.activeIncomingNodes)
    (nodes : List N) (walk : GraphWalk N D) :
    (nodes.foldl f walk).activeIncomingNodes = walk.activeIncomingNodes := by
  induction nodes generalizing walk with
  | nil => rfl
  | cons n _ ih => rw [foldl_cons, ih, step]

variable [DecidableEq N]

/-- What a part of a walk has put into the queue. -/
structure Enqueued (added : List N) (walk next : GraphWalk N D) : Prop where
  queue : next.nodesQueue = walk.nodesQueue ++ added
  count : next.nodesCount = walk.nodesCount + added.length
  color : ∀ n, next.bfsColor n = if n ∈ added then walk.animatedGraphBFSColor else walk.bfsColor n
  fresh : ∀ n ∈ added, ¬ walk.Colored n
  nodup : added.Nodup
  sameColor : next.animatedGraphBFSColor = walk.animatedGraphBFSColor
  sameData : next.data = walk.data
  sameUpdated : next.updated = walk.updated

namespace Enqueued

variable {added more : List N} {walk next last : GraphWalk N D}

theorem colored_iff (enqueued : Enqueued added walk next) (n : N) :
    next.Colored n ↔ walk.Colored n ∨ n ∈ added := by
  rw [Colored, enqueued.color, enqueued.sameColor]
  by_cases member : n ∈ added
  · simp [member]
  · simp [member, Colored]

theorem refl (walk : GraphWalk N D) : Enqueued [] walk walk where
  queue := (append_nil _).symm
  count := rfl
  color _ := by simp
  fresh _ member := by cases member
  nodup := nodup_nil
  sameColor := rfl
  sameData := rfl
  sameUpdated := rfl

theorem trans (first : Enqueued added walk next) (second : Enqueued more next last) :
    Enqueued (added ++ more) walk last where
  queue := by rw [second.queue, first.queue, append_assoc]
  count := by rw [second.count, first.count, length_append, Nat.add_assoc]
  color n := by
    rw [second.color, first.color, first.sameColor]
    by_cases inMore : n ∈ more <;> simp [inMore]
  fresh n member := by
    rcases mem_append.mp member with inAdded | inMore
    · exact first.fresh n inAdded
    · exact fun colored => second.fresh n inMore ((first.colored_iff n).mpr (.inl colored))
  nodup := by
    rw [nodup_append]
    refine ⟨first.nodup, second.nodup, ?_⟩
    rintro n inAdded _ inMore rfl
    exact second.fresh n inMore ((first.colored_iff n).mpr (.inr inAdded))
  sameColor := second.sameColor.trans first.sameColor
  sameData := second.sameData.trans first.sameData
  sameUpdated := second.sameUpdated.trans first.sameUpdated

theorem foldl {f : GraphWalk N D → N → GraphWalk N D}
    (step : ∀ walk n, ∃ added, Enqueued added walk (f walk n)) (nodes : List N)
    (walk : GraphWalk N D) : ∃ added, Enqueued added walk (nodes.foldl f walk) := by
  induction nodes generalizing walk with
  | nil => exact ⟨[], .refl walk⟩
  | cons n _ ih =>
    obtain ⟨first, here⟩ := step walk n
    obtain ⟨second, later⟩ := ih (f walk n)
    exact ⟨first ++ second, here.trans later⟩

end Enqueued

/-! ### One node -/

theorem enqueued_enqueue {walk : GraphWalk N D} {n : N} (fresh : ¬ walk.Colored n) :
    Enqueued [n] walk (walk.enqueue n) where
  queue := rfl
  count := rfl
  color m := by
    by_cases same : m = n
    · subst same
      simp [enqueue]
    · simp [enqueue, same]
  fresh m member := by
    obtain rfl := mem_singleton.mp member
    exact fresh
  nodup := nodup_singleton n
  sameColor := rfl
  sameData := rfl
  sameUpdated := rfl

variable (walk : GraphWalk N D) (n : N)

theorem enqueued_start : ∃ added, Enqueued added walk (walk.start n) := by
  unfold start
  split
  · rename_i fresh
    exact ⟨[n], enqueued_enqueue fresh⟩
  · exact ⟨[], .refl walk⟩

theorem enqueued_startReady : ∃ added, Enqueued added walk (walk.startReady n) := by
  unfold startReady
  split
  · rename_i ready
    exact ⟨[n], enqueued_enqueue ready.2⟩
  · exact ⟨[], .refl walk⟩

theorem Enqueued.of_addIncoming {added : List N} {walk next : GraphWalk N D} {n : N} {edges : Int}
    (enqueued : Enqueued added (walk.addIncoming n edges) next) : Enqueued added walk next :=
  ⟨enqueued.queue, enqueued.count, enqueued.color, enqueued.fresh, enqueued.nodup,
    enqueued.sameColor, enqueued.sameData, enqueued.sameUpdated⟩

theorem enqueued_countChild : ∃ added, Enqueued added walk (walk.countChild n) := by
  obtain ⟨added, enqueued⟩ := enqueued_start (walk.addIncoming n 1) n
  exact ⟨added, enqueued.of_addIncoming⟩

theorem enqueued_releaseChild : ∃ added, Enqueued added walk (walk.releaseChild n) := by
  obtain ⟨added, enqueued⟩ := enqueued_startReady (walk.addIncoming n (-1)) n
  exact ⟨added, enqueued.of_addIncoming⟩

theorem colored_enqueue (n m : N) : (walk.enqueue n).Colored m ↔ walk.Colored m ∨ m = n := by
  by_cases same : m = n
  · subst same
    simp [Colored, enqueue]
  · simp [Colored, enqueue, same]

theorem colored_start (n m : N) : (walk.start n).Colored m ↔ walk.Colored m ∨ m = n := by
  unfold start
  split
  · exact colored_enqueue walk n m
  · rename_i colored
    constructor
    · exact .inl
    · rintro (here | rfl)
      · exact here
      · exact of_not_not colored

theorem colored_countChild (n m : N) : (walk.countChild n).Colored m ↔ walk.Colored m ∨ m = n :=
  colored_start (walk.addIncoming n 1) n m

theorem colored_startReady (n m : N) :
    (walk.startReady n).Colored m ↔ walk.Colored m ∨ (m = n ∧ walk.activeIncomingNodes m = 0) := by
  unfold startReady
  split
  · rename_i ready
    rw [colored_enqueue]
    constructor
    · rintro (here | rfl)
      · exact .inl here
      · exact .inr ⟨rfl, ready.1⟩
    · rintro (here | ⟨same, -⟩)
      · exact .inl here
      · exact .inr same
  · rename_i notReady
    constructor
    · exact .inl
    · rintro (here | ⟨rfl, zero⟩)
      · exact here
      · exact by_contra fun fresh => notReady ⟨zero, fresh⟩

@[simp] theorem incoming_addIncoming (n m : N) (edges : Int) :
    (walk.addIncoming n edges).activeIncomingNodes m =
      walk.activeIncomingNodes m + if m = n then edges else 0 := by
  by_cases same : m = n
  · subst same
    simp [addIncoming]
  · simp [addIncoming, same]

@[simp] theorem incoming_start : (walk.start n).activeIncomingNodes = walk.activeIncomingNodes := by
  unfold start
  split <;> rfl

@[simp] theorem incoming_startReady :
    (walk.startReady n).activeIncomingNodes = walk.activeIncomingNodes := by
  unfold startReady
  split <;> rfl

theorem incoming_countChild (n m : N) : (walk.countChild n).activeIncomingNodes m =
      walk.activeIncomingNodes m + if m = n then 1 else 0 := by
  rw [countChild, incoming_start, incoming_addIncoming]

theorem incoming_releaseChild (n m : N) : (walk.releaseChild n).activeIncomingNodes m =
      walk.activeIncomingNodes m + if m = n then -1 else 0 := by
  rw [releaseChild, incoming_startReady, incoming_addIncoming]

theorem colored_releaseChild (n m : N) : (walk.releaseChild n).Colored m ↔
      walk.Colored m ∨ (m = n ∧ walk.activeIncomingNodes m = 1) := by
  rw [releaseChild, colored_startReady, incoming_addIncoming]
  by_cases same : m = n
  · simp only [same, if_true, true_and]
    have shift : walk.activeIncomingNodes n + -1 = 0 ↔ walk.activeIncomingNodes n = 1 := by omega
    rw [shift]
    rfl
  · simp only [same, false_and]
    rfl

/-! ### The nodes of a list -/

theorem incoming_foldl {edges : Int} (step : ∀ walk n m, (f walk n).activeIncomingNodes m =
      walk.activeIncomingNodes m + if m = n then edges else 0)
    (nodes : List N) (walk : GraphWalk N D) (m : N) :
    (nodes.foldl f walk).activeIncomingNodes m =
      walk.activeIncomingNodes m + edges * nodes.count m := by
  induction nodes generalizing walk with
  | nil => simp
  | cons n _ ih =>
    rw [foldl_cons, ih, step, count_cons]
    by_cases same : m = n
    · subst same
      simp only [if_true, beq_self_eq_true, Nat.cast_add, Nat.cast_one, Int.mul_add]
      omega
    · have other : ¬ (n == m) = true := by simpa using Ne.symm same
      simp [same, other]

theorem colored_foldl_startReady (nodes : List N) (walk : GraphWalk N D) (m : N) :
    (nodes.foldl startReady walk).Colored m ↔
      walk.Colored m ∨ (m ∈ nodes ∧ walk.activeIncomingNodes m = 0) := by
  induction nodes generalizing walk with
  | nil => simp
  | cons n _ ih =>
    rw [foldl_cons, ih, colored_startReady, incoming_startReady, mem_cons]
    tauto

theorem colored_foldl_releaseChild (nodes : List N) (walk : GraphWalk N D) (m : N)
    (enough : (nodes.count m : Int) ≤ walk.activeIncomingNodes m) :
    (nodes.foldl releaseChild walk).Colored m ↔
      walk.Colored m ∨ (m ∈ nodes ∧ walk.activeIncomingNodes m = nodes.count m) := by
  induction nodes generalizing walk with
  | nil => simp
  | cons n rest ih =>
    have shifted := incoming_releaseChild walk n m
    rw [foldl_cons]
    by_cases same : n = m
    · subst same
      rw [count_cons_self] at enough ⊢
      simp only [if_true] at shifted
      rw [ih _ (by omega), colored_releaseChild, shifted]
      -- There may be more edges to come, or this is the last one.
      by_cases more : n ∈ rest
      · have positive : 0 < rest.count n := count_pos_iff.mpr more
        constructor
        · rintro ((colored | ⟨-, one⟩) | ⟨-, zero⟩)
          · exact .inl colored
          · omega
          · exact .inr ⟨mem_cons_self, by omega⟩
        · rintro (colored | ⟨-, all⟩)
          · exact .inl (.inl colored)
          · exact .inr ⟨more, by omega⟩
      · have none : rest.count n = 0 := count_eq_zero.mpr more
        rw [none]
        constructor
        · rintro ((colored | ⟨-, one⟩) | ⟨member, -⟩)
          · exact .inl colored
          · exact .inr ⟨mem_cons_self, one⟩
          · exact absurd member more
        · rintro (colored | ⟨-, one⟩)
          · exact .inl (.inl colored)
          · exact .inl (.inr ⟨rfl, one⟩)
    · rw [count_cons_of_ne same] at enough ⊢
      rw [if_neg (Ne.symm same), Int.add_zero] at shifted
      rw [ih _ (by omega), colored_releaseChild, shifted, mem_cons]
      have other : ¬ m = n := Ne.symm same
      simp only [other, false_and, or_false, false_or]

/-! ### The queue of a walk -/

/-- The colored nodes are those that have been in the queue, and have been counted. -/
structure Marks (visited : List N) (walk : GraphWalk N D) : Prop where
  nodup : visited.Nodup
  colored : ∀ n, walk.Colored n ↔ n ∈ visited
  count : walk.nodesCount = visited.length

namespace Marks

variable {visited added : List N} {walk next : GraphWalk N D}

theorem enqueued (marks : Marks visited walk) (enqueued : Enqueued added walk next) :
    Marks (visited ++ added) next where
  nodup := by
    rw [nodup_append]
    refine ⟨marks.nodup, enqueued.nodup, ?_⟩
    rintro n inVisited _ inAdded rfl
    exact enqueued.fresh n inAdded ((marks.colored n).mpr inVisited)
  colored n := by rw [enqueued.colored_iff, marks.colored, mem_append]
  count := by rw [enqueued.count, marks.count, length_append]

theorem mem_added_iff (marks : Marks visited walk) (enqueued : Enqueued added walk next) {n : N} :
    n ∈ added ↔ next.Colored n ∧ n ∉ visited := by
  rw [enqueued.colored_iff, marks.colored]
  constructor
  · intro member
    exact ⟨.inr member, fun old => enqueued.fresh n member ((marks.colored n).mpr old)⟩
  · rintro ⟨old | member, new⟩
    · exact absurd old new
    · exact member

omit [DecidableEq N] in
theorem queue_eq_nil [Fintype N] {processed : List N}
    (marks : Marks (processed ++ walk.nodesQueue) walk)
    (all : processed.length = Fintype.card N) : walk.nodesQueue = [] := by
  have bound := marks.nodup.length_le_card
  rw [length_append] at bound
  apply eq_nil_of_length_eq_zero
  omega

end Marks

end GraphWalk

end ReactNative

