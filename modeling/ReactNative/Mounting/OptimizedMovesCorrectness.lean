import ReactNative.Mounting.ClassicCorrectness
import ReactNative.Mounting.StrayMoves

/-! What the rounds of the walk leave is settled by the two sibling lists alone: an old pair is
matched with its partner among the new pairs or dropped, and the pairs left pending are the new
ones. -/
namespace ReactNative

open ShadowViewMutation List

variable {D : Type}

def WalkStep.outcome : WalkStep (ShadowViewNodePair D) → Outcome D
  | .matched oldChildPair newChildPair =>
    { kept := fun tag => tag = pairTag newChildPair
      visits := [.matched oldChildPair.shadowView oldChildPair newChildPair]
      updated := [(oldChildPair, newChildPair)] }
  | .reordered oldChildPair newChildPair oldIndex =>
    { visits := [.matched oldChildPair.shadowView oldChildPair newChildPair]
      updated := [(oldChildPair, newChildPair)]
      removed := [(oldChildPair, oldIndex)] }
  | .removed oldChildPair oldIndex =>
    { visits := [.dropped oldChildPair], removed := [(oldChildPair, oldIndex)] }
  | .inserted newChildPair newIndex => { inserted := [(newChildPair, newIndex)] }

def walkOutcome (steps : List (WalkStep (ShadowViewNodePair D))) : Outcome D :=
  steps.foldr (fun step later => step.outcome ++ later) {}

section Ahead

def partner (fresh : List (ShadowViewNodePair D)) (oldChildPair : ShadowViewNodePair D) :
    Option (ShadowViewNodePair D) :=
  fresh.find? fun pair => pairTag pair = pairTag oldChildPair

variable {fresh : List (ShadowViewNodePair D)} {o : ShadowViewNodePair D}

theorem partner_some {n : ShadowViewNodePair D} (found : partner fresh o = some n) :
    n ∈ fresh ∧ pairTag n = pairTag o :=
  ⟨mem_of_find?_eq_some found, by simpa using find?_some found⟩

theorem partner_none : partner fresh o = none ↔ pairTag o ∉ fresh.map pairTag := by
  rw [partner, find?_eq_none, mem_map, not_exists]
  constructor
  · rintro miss n ⟨member, same⟩
    exact miss n member (decide_eq_true same)
  · intro absent n member hit
    exact absent n ⟨member, of_decide_eq_true hit⟩

def walkVisit (fresh : List (ShadowViewNodePair D)) (oldChildPair : ShadowViewNodePair D) :
    Visit D :=
  match partner fresh oldChildPair with
  | some newChildPair => .matched oldChildPair.shadowView oldChildPair newChildPair
  | none => .dropped oldChildPair

theorem walkVisit_tag (fresh : List (ShadowViewNodePair D)) (o : ShadowViewNodePair D) :
    (walkVisit fresh o).parent.tag = pairTag o := by
  unfold walkVisit
  split <;> rfl

structure Ahead (start : Walk.Position (ShadowViewNodePair D)) (outcome : Outcome D)
    (left : List (ShadowViewNodePair D)) : Prop where
  kept_old : ∀ tag, outcome.kept tag → tag ∈ start.oldPairs.map pairTag
  kept_new : ∀ tag, outcome.kept tag → tag ∈ start.newPairs.map pairTag
  kept_eq : (start.oldPairs.map pairTag).filter outcome.kept =
    (start.newPairs.map pairTag).filter outcome.kept
  removed_eq : outcome.removed =
    (start.oldPairs.zipIdx start.oldIndex).filter fun pair => !outcome.kept (pairTag pair.1)
  inserted_eq : outcome.inserted =
    (start.newPairs.zipIdx start.newIndex).filter fun pair => !outcome.kept (pairTag pair.1)
  updated_eq : outcome.updated = start.oldPairs.filterMap fun o =>
    (partner (start.pending ++ start.newPairs) o).map fun n => (o, n)
  visits_eq : outcome.visits = start.oldPairs.map (walkVisit (start.pending ++ start.newPairs))
  left_eq : left =
    (start.pending ++ start.newPairs).filter fun n => pairTag n ∉ start.oldPairs.map pairTag

theorem partner_congr {other : List (ShadowViewNodePair D)}
    (agree : (fresh.filter fun n => pairTag n = pairTag o) =
      other.filter fun n => pairTag n = pairTag o) : partner fresh o = partner other o := by
  rw [partner, partner, ← head?_filter, ← head?_filter, agree]

namespace Ahead

variable {i j : Nat} {old new pending left : List (ShadowViewNodePair D)}
  {o n : ShadowViewNodePair D} {outcome : Outcome D}

theorem visits_congr {fresh other : List (ShadowViewNodePair D)}
    (agree : ∀ o' ∈ old, partner fresh o' = partner other o') :
    old.map (walkVisit fresh) = old.map (walkVisit other) ∧
      (old.filterMap fun o' => (partner fresh o').map fun n => (o', n)) =
        old.filterMap fun o' => (partner other o').map fun n => (o', n) := by
  constructor
  · refine map_congr_left fun o' member => ?_
    rw [walkVisit, walkVisit, agree o' member]
  · refine filterMap_congr fun o' member => ?_
    rw [agree o' member]

theorem matched (ahead : Ahead ⟨i + 1, j + 1, old, new, pending⟩ outcome left)
    (distinct : Walk.Position.Distinct pairTag ⟨i, j, o :: old, n :: new, pending⟩)
    (same : pairTag o = pairTag n) :
    Ahead ⟨i, j, o :: old, n :: new, pending⟩ ((WalkStep.matched o n).outcome ++ outcome) left := by
  obtain ⟨distinctOld, distinctNew⟩ := distinct
  simp only [map_cons, nodup_cons] at distinctOld
  simp only [map_append, map_cons] at distinctNew
  -- The tag is matched here, and occurs in neither list again.
  have notOld : ∀ o' ∈ old, pairTag o' ≠ pairTag n := fun o' member equal =>
    distinctOld.1 (same ▸ equal ▸ mem_map_of_mem member)
  have notNew : ∀ n' ∈ pending ++ new, pairTag n' ≠ pairTag n := by
    intro n' member equal
    have parts := nodup_append.mp distinctNew
    rcases mem_append.mp member with before | behind
    · exact parts.2.2 _ (mem_map_of_mem before) (pairTag n) (by simp) equal
    · exact (nodup_cons.mp parts.2.1).1 (equal ▸ mem_map_of_mem behind)
  -- So the later steps decide the other tags as they did without this pair.
  have keptElse : ∀ pair : ShadowViewNodePair D, pairTag pair ≠ pairTag n →
      ((WalkStep.matched o n).outcome ++ outcome).kept (pairTag pair) =
        outcome.kept (pairTag pair) := by
    intro pair differ
    simp [WalkStep.outcome, differ]
  have keptHere : ((WalkStep.matched o n).outcome ++ outcome).kept (pairTag n) = true := by
    simp [WalkStep.outcome]
  have partners := @visits_congr D old (pending ++ n :: new) (pending ++ new) fun o' member =>
    partner_congr (by
      rw [filter_append, filter_append,
        filter_cons_of_neg (by simpa using (notOld o' member).symm)])
  have found : partner (pending ++ n :: new) o = some n :=
    find_unique (by simpa using distinctNew) (by simp) same.symm
  -- The fields in the order of `Ahead`.
  constructor
  · intro tag kept
    simp only [Outcome.append_kept, Bool.or_eq_true, WalkStep.outcome, decide_eq_true_eq] at kept
    rcases kept with rfl | later
    · simp [same]
    · exact mem_cons_of_mem _ (ahead.kept_old tag later)
  · intro tag kept
    simp only [Outcome.append_kept, Bool.or_eq_true, WalkStep.outcome, decide_eq_true_eq] at kept
    rcases kept with rfl | later
    · simp
    · exact mem_cons_of_mem _ (ahead.kept_new tag later)
  · rw [map_cons, map_cons, same, filter_cons_of_pos keptHere, filter_cons_of_pos keptHere]
    have keepOld : (old.map pairTag).filter ((WalkStep.matched o n).outcome ++ outcome).kept =
        (old.map pairTag).filter outcome.kept := by
      refine filter_congr fun tag member => ?_
      obtain ⟨o', oldMem, rfl⟩ := mem_map.mp member
      exact keptElse o' (notOld o' oldMem)
    have keepNew : (new.map pairTag).filter ((WalkStep.matched o n).outcome ++ outcome).kept =
        (new.map pairTag).filter outcome.kept := by
      refine filter_congr fun tag member => ?_
      obtain ⟨n', newMem, rfl⟩ := mem_map.mp member
      exact keptElse n' (notNew n' (mem_append_right _ newMem))
    rw [keepOld, keepNew, ahead.kept_eq]
  · rw [zipIdx_cons, filter_cons_of_neg (by simp [same, keptHere]),
      filter_zipIdx_congr _ fun o' member => keptElse o' (notOld o' member), ← ahead.removed_eq]
    rfl
  · rw [zipIdx_cons, filter_cons_of_neg (by simp [keptHere]),
      filter_zipIdx_congr _ fun n' member => keptElse n' (notNew n' (mem_append_right _ member)),
      ← ahead.inserted_eq]
    rfl
  · rw [filterMap_cons, found, Option.map_some, partners.2, ← ahead.updated_eq]
    rfl
  · rw [map_cons, partners.1, ← ahead.visits_eq]
    simp [walkVisit, found, WalkStep.outcome]
  · rw [ahead.left_eq, filter_append, filter_append, filter_cons_of_neg (by simp [same])]
    congr 1
    · refine filter_congr fun n' member => ?_
      simp [same, notNew n' (mem_append_left _ member)]
    · refine filter_congr fun n' member => ?_
      simp [same, notNew n' (mem_append_right _ member)]

theorem removed_cons (ahead : Ahead ⟨i + 1, j, old, new, pending⟩ outcome left)
    (fresh : pairTag o ∉ old.map pairTag) :
    (o, i) :: outcome.removed = (((o :: old).zipIdx i).filter fun pair =>
        !outcome.kept (pairTag pair.1)) ∧
      ((o :: old).map pairTag).filter outcome.kept = (new.map pairTag).filter outcome.kept := by
  have notKept : ¬ outcome.kept (pairTag o) := fun kept => fresh (ahead.kept_old _ kept)
  constructor
  · rw [zipIdx_cons, filter_cons_of_pos (by simpa using notKept), ahead.removed_eq]
  · rw [map_cons, filter_cons_of_neg notKept, ahead.kept_eq]

theorem reordered (ahead : Ahead
      ⟨i + 1, j, old, new, pending.filter fun pair => pairTag pair ≠ pairTag o⟩ outcome left)
    (distinct : Walk.Position.Distinct pairTag ⟨i, j, o :: old, new, pending⟩)
    (member : n ∈ pending) (same : pairTag o = pairTag n) :
    Ahead ⟨i, j, o :: old, new, pending⟩ ((WalkStep.reordered o n i).outcome ++ outcome) left := by
  obtain ⟨distinctOld, distinctNew⟩ := distinct
  simp only [map_cons, nodup_cons] at distinctOld
  -- The old pair leaves `pending`, which is all that the other old pairs notice.
  have notOld : ∀ o' ∈ old, pairTag o' ≠ pairTag o := fun o' oldMem equal =>
    distinctOld.1 (equal ▸ mem_map_of_mem oldMem)
  have notNew : ∀ n' ∈ new, pairTag n' ≠ pairTag o := by
    intro n' newMem equal
    rw [map_append] at distinctNew
    exact (nodup_append.mp distinctNew).2.2 _ (mem_map_of_mem member) _
      (mem_map_of_mem newMem) (same.symm.trans equal.symm)
  have partners := @visits_congr D old (pending ++ new)
      ((pending.filter fun pair => pairTag pair ≠ pairTag o) ++ new) fun o' oldMem =>
    partner_congr (by
      rw [filter_append, filter_append, filter_filter]
      congr 1
      refine filter_congr fun n' _ => ?_
      by_cases hit : pairTag n' = pairTag o'
      · simp [hit, notOld o' oldMem]
      · simp [hit])
  -- Its partner is the pending one.
  have found : partner (pending ++ new) o = some n :=
    find_unique distinctNew (mem_append_left _ member) same.symm
  have removal := ahead.removed_cons distinctOld.1
  constructor
  · exact fun tag kept => mem_cons_of_mem _ (ahead.kept_old tag kept)
  · exact ahead.kept_new
  · exact removal.2
  · exact removal.1
  · exact ahead.inserted_eq
  · rw [filterMap_cons, found, Option.map_some, partners.2, ← ahead.updated_eq]
    rfl
  · rw [map_cons, partners.1, ← ahead.visits_eq]
    simp [walkVisit, found, WalkStep.outcome]
  · rw [ahead.left_eq, filter_append, filter_append, filter_filter]
    congr 1
    · simp [Bool.and_comm]
    · refine filter_congr fun n' newMem => ?_
      simp [notNew n' newMem]

theorem removed (ahead : Ahead ⟨i + 1, j, old, new, pending⟩ outcome left)
    (distinct : Walk.Position.Distinct pairTag ⟨i, j, o :: old, new, pending⟩)
    (absent : pairTag o ∉ (pending ++ new).map pairTag) :
    Ahead ⟨i, j, o :: old, new, pending⟩ ((WalkStep.removed o i).outcome ++ outcome) left := by
  have distinctOld := distinct.old
  simp only [map_cons, nodup_cons] at distinctOld
  have found : partner (pending ++ new) o = none := partner_none.mpr absent
  have removal := ahead.removed_cons distinctOld.1
  constructor
  · exact fun tag kept => mem_cons_of_mem _ (ahead.kept_old tag kept)
  · exact ahead.kept_new
  · exact removal.2
  · exact removal.1
  · exact ahead.inserted_eq
  · rw [filterMap_cons, found, Option.map_none]
    exact ahead.updated_eq
  · rw [map_cons, ← ahead.visits_eq]
    simp [walkVisit, found, WalkStep.outcome]
  · rw [ahead.left_eq]
    refine filter_congr fun n' newMem => ?_
    have differ : pairTag n' ≠ pairTag o := fun equal =>
      absent (equal ▸ mem_map_of_mem newMem)
    simp [differ]

theorem inserted (ahead : Ahead ⟨i, j + 1, old, new, pending ++ [n]⟩ outcome left)
    (distinct : Walk.Position.Distinct pairTag ⟨i, j, old, n :: new, pending⟩) :
    Ahead ⟨i, j, old, n :: new, pending⟩ ((WalkStep.inserted n j).outcome ++ outcome) left := by
  have distinctNew := distinct.new
  simp only [map_append, map_cons] at distinctNew
  have notKept : ¬ outcome.kept (pairTag n) := fun kept =>
    (nodup_cons.mp (nodup_append.mp distinctNew).2.1).1 (ahead.kept_new _ kept)
  have shift : pending ++ [n] ++ new = pending ++ n :: new := by simp
  obtain ⟨keptOld, keptNew, keptEq, removedEq, insertedEq, updatedEq, visitsEq, leftEq⟩ := ahead
  simp only [shift] at updatedEq visitsEq leftEq
  constructor
  · exact keptOld
  · exact fun tag kept => mem_cons_of_mem _ (keptNew tag kept)
  · exact keptEq.trans (filter_cons_of_neg notKept).symm
  · exact removedEq
  · rw [zipIdx_cons, Outcome.append_inserted, insertedEq]
    exact (filter_cons_of_pos (by simpa [WalkStep.outcome] using notKept)).symm
  · exact updatedEq
  · exact visitsEq
  · exact leftEq

end Ahead

theorem Walk.Rounds.ahead {start : Walk.Position (ShadowViewNodePair D)}
    {steps : List (WalkStep (ShadowViewNodePair D))} {left : List (ShadowViewNodePair D)}
    (rounds : Walk.Rounds pairTag start steps left) (distinct : start.Distinct pairTag) :
    Ahead start (walkOutcome steps) left := by
  induction rounds with
  | done => constructor <;> simp [walkOutcome]
  | round first _ ih =>
    have ahead := ih (first.distinct distinct)
    cases first with
    | matched same => exact ahead.matched distinct same
    | reordered member same => exact ahead.reordered distinct member same
    | removed absent => exact ahead.removed distinct absent
    | inserted later => exact ahead.inserted distinct

end Ahead

/-! ### The walk covers the siblings -/

/-- The outcome of the walk followed by the creation of what its map iterates over. -/
def movesOutcome (steps : List (WalkStep (ShadowViewNodePair D)))
    (iterated : List (ShadowViewNodePair D)) : Outcome D :=
  walkOutcome steps ++ ({ visits := iterated.map .created } : Outcome D)

section Covers

variable {index : Nat} {old new strays left : List (ShadowViewNodePair D)}
  {steps : List (WalkStep (ShadowViewNodePair D))}

theorem mem_walkVisits {fresh : List (ShadowViewNodePair D)} {visit : Visit D}
    (member : visit ∈ old.map (walkVisit fresh)) :
    (∃ o ∈ old, visit = .dropped o ∧ pairTag o ∉ fresh.map pairTag) ∨
      ∃ o ∈ old, ∃ n ∈ fresh, pairTag n = pairTag o ∧ visit = .matched o.shadowView o n := by
  obtain ⟨o, oldMem, rfl⟩ := mem_map.mp member
  unfold walkVisit
  split
  next n found =>
    obtain ⟨newMem, same⟩ := partner_some found
    exact .inr ⟨o, oldMem, n, newMem, same, rfl⟩
  next found => exact .inl ⟨o, oldMem, rfl, partner_none.mp found⟩

theorem moves_covers (ahead : Ahead ⟨index, index, old, new, []⟩ (walkOutcome steps) left)
    (distinctOld : (old.map pairTag).Nodup) (distinctNew : (new.map pairTag).Nodup)
    (strayNew : ∀ n ∈ strays, n ∈ new) :
    (movesOutcome steps (strays ++ left)).Covers (strays.map pairTag) index old new := by
  -- What the walk says of the siblings ahead, and then of the visits and the updates.
  obtain ⟨keptOld, keptNew, keptEq, removedEq, insertedEq, updatedEq, visitsEq, leftEq⟩ := ahead
  simp only [nil_append] at keptOld keptNew keptEq removedEq insertedEq updatedEq visitsEq leftEq
  have visits : (movesOutcome steps (strays ++ left)).visits =
      old.map (walkVisit new) ++ (strays ++ left).map .created := by
    rw [movesOutcome, Outcome.append_visits, visitsEq]
  have updated : (movesOutcome steps (strays ++ left)).updated =
      old.filterMap fun o => (partner new o).map fun n => (o, n) := by
    rw [movesOutcome, Outcome.append_updated, updatedEq, append_nil]
  have kept : (movesOutcome steps (strays ++ left)).kept = (walkOutcome steps).kept := by
    funext tag
    simp [movesOutcome]
  have noCreated : ∀ n, .created n ∉ old.map (walkVisit new) := by
    intro n member
    obtain ⟨o, -, differ, -⟩ | ⟨o, -, n', -, -, differ⟩ := mem_walkVisits member
    · cases differ
    · cases differ
  have recursedTags : (old.map (walkVisit new)).map (fun visit => visit.parent.tag) =
      old.map pairTag := by
    simp [walkVisit_tag]
  have createdTags : ((strays ++ left).map Visit.created).map (fun visit => visit.parent.tag) =
      (strays ++ left).map pairTag := by
    rw [List.map_map]
    rfl
  -- The clauses in the order of `Covers`; the created ones are the strays and what is left.
  constructor
  · rw [kept, movesOutcome, Outcome.append_removed, removedEq, append_nil]
  · rw [kept, movesOutcome, Outcome.append_inserted, insertedEq, append_nil]
  · rw [kept]
    exact keptOld
  · rw [kept]
    exact keptEq
  · rw [updated]
    intro pair member
    obtain ⟨o, oldMem, found⟩ := mem_filterMap.mp member
    obtain ⟨n, partnerEq, rfl⟩ := Option.map_eq_some_iff.mp found
    obtain ⟨newMem, same⟩ := partner_some partnerEq
    exact ⟨oldMem, newMem, same.symm⟩
  · rw [updated]
    intro o oldMem n newMem same _
    exact mem_filterMap.mpr ⟨o, oldMem, by
      rw [partner, find_unique distinctNew newMem same.symm, Option.map_some]⟩
  · rw [visits]
    intro parent o n member
    rcases mem_append.mp member with walked | final
    · obtain ⟨o', -, differ, -⟩ | ⟨o', oldMem, n', newMem, same, equal⟩ := mem_walkVisits walked
      · cases differ
      · cases equal
        exact ⟨oldMem, newMem, same.symm, same.symm⟩
    · simp at final
  · intro o
    rw [visits, mem_append]
    constructor
    · rintro (walked | final)
      · obtain ⟨o', oldMem, equal, gone⟩ | ⟨o', -, n', -, -, differ⟩ := mem_walkVisits walked
        · cases equal
          exact ⟨oldMem, gone⟩
        · cases differ
      · simp at final
    · rintro ⟨oldMem, gone⟩
      refine .inl (mem_map.mpr ⟨o, oldMem, ?_⟩)
      rw [walkVisit, partner_none.mpr gone]
  · intro n
    rw [visits, mem_append]
    constructor
    · rintro (walked | final)
      · exact absurd walked (noCreated n)
      · obtain ⟨n', member, equal⟩ := mem_map.mp final
        cases equal
        rcases mem_append.mp member with strayed | leftover
        · exact ⟨strayNew n strayed, .inr (mem_map_of_mem strayed)⟩
        · rw [leftEq] at leftover
          obtain ⟨newMem, absent⟩ := mem_filter.mp leftover
          exact ⟨newMem, .inl (of_decide_eq_true absent)⟩
    · rintro ⟨newMem, absent | strayed⟩
      · refine .inr (mem_map_of_mem (mem_append_right _ ?_))
        rw [leftEq]
        exact mem_filter.mpr ⟨newMem, decide_eq_true absent⟩
      · obtain ⟨n', member, same⟩ := mem_map.mp strayed
        have equal := inj_on_of_nodup_map distinctNew (strayNew n' member) newMem same
        exact .inr (mem_map_of_mem (mem_append_left _ (equal ▸ member)))
  · intro o oldMem n newMem same
    refine .inr ⟨o.shadowView, ?_⟩
    rw [visits, mem_append]
    refine .inl (mem_map.mpr ⟨o, oldMem, ?_⟩)
    rw [walkVisit, partner, find_unique distinctNew newMem same.symm]
  -- Created views are no visits of an old pair.
  · have none : ((strays ++ left).map Visit.created).filter (fun visit => !visit.isCreated) = [] := by
      refine filter_eq_nil_iff.mpr fun visit member => ?_
      obtain ⟨n, -, rfl⟩ := mem_map.mp member
      simp [Visit.isCreated]
    rw [visits, filter_append, none, append_nil]
    exact (recursedTags ▸ distinctOld).sublist (filter_sublist.map _)
  · intro noStray
    rw [map_eq_nil_iff] at noStray
    rw [visits, map_append, recursedTags, createdTags, noStray, nil_append, leftEq, nodup_append]
    refine ⟨distinctOld, distinctNew.sublist (filter_sublist.map pairTag), ?_⟩
    intro tag inOld other inNew same
    obtain ⟨n, newMem, rfl⟩ := mem_map.mp inNew
    exact of_decide_eq_true (mem_filter.mp newMem).2 (same ▸ inOld)

end Covers

section Rest

def WalkStep.Aligned : WalkStep (ShadowViewNodePair D) → Prop
  | .matched o n => pairTag o = pairTag n
  | .reordered o n _ => pairTag o = pairTag n
  | .removed _ _ => True
  | .inserted _ _ => True

variable {steps : List (WalkStep (ShadowViewNodePair D))}

theorem Walk.Rounds.aligned {start : Walk.Position (ShadowViewNodePair D)}
    {left : List (ShadowViewNodePair D)}
    (rounds : Walk.Rounds pairTag start steps left) : ∀ step ∈ steps, step.Aligned := by
  induction rounds with
  | done => simp
  | round first _ ih =>
    intro step member
    rcases mem_cons.mp member with rfl | behind
    · cases first with
      | matched same => exact same
      | reordered _ same => exact same
      | removed => trivial
      | inserted => trivial
    · exact ih step behind

theorem foldr_outcome {A : Type} (outcome : A → Outcome D) (items : List A) :
    let whole := items.foldr (fun item later => outcome item ++ later) {}
    whole.visits = items.flatMap (fun item => (outcome item).visits) ∧
      whole.updated = items.flatMap (fun item => (outcome item).updated) ∧
      whole.removed = items.flatMap (fun item => (outcome item).removed) ∧
      whole.inserted = items.flatMap (fun item => (outcome item).inserted) := by
  induction items with
  | nil => simp
  | cons item _ ih =>
    obtain ⟨visits, updated, removed, inserted⟩ := ih
    simp only [foldr_cons, Outcome.append_visits, Outcome.append_updated,
      Outcome.append_removed, Outcome.append_inserted, flatMap_cons, visits, updated, removed,
      inserted]
    exact ⟨trivial, trivial, trivial, trivial⟩

theorem walkOutcome_visit
    {step : WalkStep (ShadowViewNodePair D)} (member : step ∈ steps) {visit : Visit D}
    (here : visit ∈ step.outcome.visits) : visit ∈ (walkOutcome steps).visits := by
  rw [walkOutcome, (foldr_outcome WalkStep.outcome steps).1]
  exact mem_flatMap.mpr ⟨step, member, here⟩

theorem flatMap_zipIdx {A B : Type} (f : A → B) (items : List A) (index : Nat) :
    (items.zipIdx index).flatMap (fun item => [f item.1]) = items.map f := by
  have fst := congrArg (List.map f) (zipIdx_map_fst index items)
  rw [List.map_map, map_eq_flatMap] at fst
  exact fst

variable [DecidableEq D] {recursion : Recursion D} (parentShadowView : ShadowView D)

theorem walkStep_renders (index : Int) (step : WalkStep (ShadowViewNodePair D))
    (aligned : step.Aligned) (returns : ∀ visit ∈ step.outcome.visits, visit.Returns recursion) :
    ∃ lists, step.mutations recursion parentShadowView index = some lists ∧
      Outcome.Renders recursion parentShadowView.tag lists step.outcome := by
  cases step with
  | matched o n =>
    obtain ⟨below, belowEq, renders⟩ := updateGrandChildren_renders o.shadowView
      parentShadowView.tag (returns (.matched o.shadowView o n) (by simp [WalkStep.outcome]))
    have update := @updateIfChanged_renders D _ recursion parentShadowView o n index aligned
    refine ⟨_, by simp [WalkStep.mutations, belowEq], (update.append renders).congr ?_ ?_ ?_ ?_⟩
    all_goals simp [WalkStep.outcome]
  | reordered o n oldIndex =>
    obtain ⟨below, belowEq, renders⟩ := updateGrandChildren_renders o.shadowView
      parentShadowView.tag (returns (.matched o.shadowView o n) (by simp [WalkStep.outcome]))
    have update := @updateIfChanged_renders D _ recursion parentShadowView o n index aligned
    have remove := @removeMutation_renders D _ recursion parentShadowView o oldIndex
    refine ⟨_, ?_, ((remove.append update).append renders).congr ?_ ?_ ?_ ?_⟩
    · simp only [WalkStep.mutations, belowEq, Option.bind_eq_bind, Option.bind_some, Option.pure_def]
      rfl
    all_goals simp [WalkStep.outcome]
  | removed o oldIndex =>
    obtain ⟨below, belowEq, renders⟩ := deleteGrandChildren_renders parentShadowView.tag
      (returns (.dropped o) (by simp [WalkStep.outcome]))
    have remove := @removeMutation_renders D _ recursion parentShadowView o oldIndex
    refine ⟨_, ?_, (remove.append renders).congr ?_ ?_ ?_ ?_⟩
    · simp only [WalkStep.mutations, belowEq, Option.bind_eq_bind, Option.bind_some, Option.pure_def]
      rfl
    all_goals simp [WalkStep.outcome]
  | inserted n newIndex =>
    exact ⟨_, rfl, @insertMutations_renders D _ recursion parentShadowView [(n, newIndex)]⟩

theorem collectRemoved_renders (index : Nat) (old : List (ShadowViewNodePair D))
    (returns : ∀ visit ∈ (classicRestOutcome index old []).visits, visit.Returns recursion) :
    ∃ lists, MutationLists.collect (fun (oldChildPair, index) => WalkStep.mutations recursion
        parentShadowView index (.removed oldChildPair index)) (old.zipIdx index) = some lists ∧
      Outcome.Renders recursion parentShadowView.tag lists (classicRestOutcome index old []) := by
  have visits : (classicRestOutcome index old []).visits = old.map .dropped := by
    rw [map_eq_flatMap]
    exact append_nil _
  rw [visits] at returns
  let outcome (item : ShadowViewNodePair D × Nat) := (WalkStep.removed item.1 item.2).outcome
  obtain ⟨lists, collected, renders⟩ := @collect_renders D _ recursion _ _ outcome
    parentShadowView.tag (old.zipIdx index) fun item member =>
      walkStep_renders parentShadowView item.2 (.removed item.1 item.2) trivial
        fun visit here => returns visit (by
          rw [mem_singleton.mp here]
          exact mem_map_of_mem (fst_mem_of_mem_zipIdx member))
  obtain ⟨foldVisits, foldUpdated, foldRemoved, foldInserted⟩ :=
    foldr_outcome outcome (old.zipIdx index)
  refine ⟨lists, collected, renders.congr ?_ ?_ ?_ ?_⟩
  · rw [visits, foldVisits]
    exact (flatMap_zipIdx Visit.dropped old index).symm
  · rw [foldUpdated]
    simp [outcome, WalkStep.outcome, classicRestOutcome]
  · rw [foldRemoved]
    simp [outcome, WalkStep.outcome, classicRestOutcome]
  · rw [foldInserted]
    simp [outcome, WalkStep.outcome, classicRestOutcome]

theorem collectCreated_renders (index : Nat) (fresh : List (ShadowViewNodePair D))
    (returns : ∀ visit ∈ (classicRestOutcome index [] fresh).visits, visit.Returns recursion) :
    ∃ lists, MutationLists.collect (fun (newChildPair, index) => do
        let created ← createWithGrandChildren recursion newChildPair
        return { insertMutations :=
          [insertMutation parentShadowView newChildPair.shadowView index] } ++ created)
        (fresh.zipIdx index) = some lists ∧
      Outcome.Renders recursion parentShadowView.tag lists (classicRestOutcome index [] fresh) := by
  have visits : (classicRestOutcome index [] fresh).visits = fresh.map .created := by
    simp [classicRestOutcome]
  rw [visits] at returns
  let outcome (item : ShadowViewNodePair D × Nat) : Outcome D :=
    ({ inserted := [(item.1, item.2)] } : Outcome D) ++ { visits := [.created item.1] }
  obtain ⟨lists, collected, renders⟩ := @collect_renders D _ recursion _ (fun item => do
      let created ← createWithGrandChildren recursion item.1
      return { insertMutations :=
        [insertMutation parentShadowView item.1.shadowView item.2] } ++ created) outcome
    parentShadowView.tag (fresh.zipIdx index) fun item member => by
      obtain ⟨created, createdEq, createdRenders⟩ := createWithGrandChildren_renders
        parentShadowView.tag (returns (.created item.1)
          (mem_map_of_mem (fst_mem_of_mem_zipIdx member)))
      exact ⟨_, by simp [createdEq], (@insertMutations_renders D _ recursion parentShadowView
        [(item.1, item.2)]).append createdRenders⟩
  obtain ⟨foldVisits, foldUpdated, foldRemoved, foldInserted⟩ :=
    foldr_outcome outcome (fresh.zipIdx index)
  refine ⟨lists, collected, renders.congr ?_ ?_ ?_ ?_⟩
  · rw [visits, foldVisits]
    exact (flatMap_zipIdx Visit.created fresh index).symm
  · rw [foldUpdated]
    simp [outcome, classicRestOutcome]
  · rw [foldRemoved]
    simp [outcome, classicRestOutcome]
  · rw [foldInserted]
    simp [outcome, classicRestOutcome]

theorem collectMoves_renders {index : Nat} {old new iterated : List (ShadowViewNodePair D)}
    {map : TinyMap (ShadowViewNodePair D)}
    (walked : Walk.siblings pairTag index (old.drop index) (new.drop index) = some (steps, map))
    (iterates : map.iterate = iterated) (aligned : ∀ step ∈ steps, step.Aligned)
    (returns : ∀ visit ∈ (movesOutcome steps iterated).visits, visit.Returns recursion) :
    ∃ lists, collectMoves recursion parentShadowView index old new = some lists ∧
      Outcome.Renders recursion parentShadowView.tag lists (movesOutcome steps iterated) := by
  obtain ⟨moves, movesEq, movesRender⟩ := collect_renders parentShadowView.tag steps
    fun step member => walkStep_renders parentShadowView new.length step (aligned step member)
      fun visit here => returns visit (mem_append_left _ (walkOutcome_visit member here))
  let outcome (n : ShadowViewNodePair D) : Outcome D := { visits := [.created n] }
  obtain ⟨creates, createsEq, createsRender⟩ := @collect_renders D _ recursion _ _ outcome
    parentShadowView.tag iterated fun n member =>
      createWithGrandChildren_renders parentShadowView.tag
        (returns (.created n) (mem_append_right _ (mem_map_of_mem member)))
  obtain ⟨foldVisits, foldUpdated, foldRemoved, foldInserted⟩ := foldr_outcome outcome iterated
  refine ⟨moves ++ creates, ?_, movesRender.append (createsRender.congr ?_ ?_ ?_ ?_)⟩
  · simp [collectMoves, walked, movesEq, iterates, createsEq]
  · rw [foldVisits, map_eq_flatMap]
  · rw [foldUpdated]
    simp [outcome]
  · rw [foldRemoved]
    simp [outcome]
  · rw [foldInserted]
    simp [outcome]

end Rest

section Level

variable {old new : List (ShadowViewNodePair D)}

theorem siblings_ahead (index : Nat) (distinctOld : (old.map pairTag).Nodup)
    (distinctNew : (new.map pairTag).Nodup) (validOld : 0 ∉ old.map pairTag)
    (validNew : 0 ∉ new.map pairTag) :
    ∃ steps map left, Walk.siblings pairTag index old new = some (steps, map) ∧
      Ahead ⟨index, index, old, new, []⟩ (walkOutcome steps) left ∧
      (∀ step ∈ steps, step.Aligned) ∧ map.iterate = map.strays ++ left ∧
      ∀ n ∈ map.strays, n ∈ new ∧ pairTag n ∈ old.map pairTag := by
  obtain ⟨remaining, insertEq, start⟩ :=
    Walk.exists_start index distinctOld distinctNew validOld validNew
  obtain ⟨steps, map, left, runEq, rounds, wf, live, contents⟩ :=
    Walk.run_rounds (old.length + new.length) _ [] start le_rfl
  refine ⟨steps, map, left, ?_, rounds.ahead start.distinct, rounds.aligned, ?_, ?_⟩
  · simp [Walk.siblings, insertEq, runEq]
  · rw [wf.iterate_eq, live]
    simp [entries, Function.comp_def]
  · intro n member
    unfold TinyMap.strays at member
    split at member
    · obtain ⟨item, inFront, rfl⟩ := mem_map.mp member
      have facts := contents item ((take_sublist _ _).subset inFront)
      exact ⟨facts.1, facts.2 (wf.front item inFront)⟩
    · simp at member

variable [DecidableEq D]

theorem collectRest_renders (distinctOld : (old.map pairTag).Nodup)
    (distinctNew : (new.map pairTag).Nodup) (validOld : 0 ∉ old.map pairTag)
    (validNew : 0 ∉ new.map pairTag) :
    ∃ outcome : Outcome D, (stageOneOutcome old new ++ outcome).Covers
        (strayMoves (old.map pairTag) (new.map pairTag)) 0 old new ∧
      ∀ (recursion : Recursion D) (parentShadowView : ShadowView D),
        (∀ visit ∈ outcome.visits, visit.Returns recursion) →
        ∃ lists, collectRest recursion parentShadowView
            (lastIndexAfterFirstStage pairTag old new) old new = some lists ∧
          Outcome.Renders recursion parentShadowView.tag lists outcome := by
  -- Both lists are the same up to `index`, where the first stage has stopped.
  let index := lastIndexAfterFirstStage pairTag old new
  have oldSub := (drop_sublist index old).map pairTag
  have newSub := (drop_sublist index new).map pairTag
  by_cases endNew : index = new.length
  · -- All new siblings are passed.
    have noStray := strayMoves_of_ends distinctOld (.inl endNew)
    have dropNew : new.drop index = [] := drop_eq_nil_of_le endNew.ge
    refine ⟨classicRestOutcome index (old.drop index) [], ?_, ?_⟩
    · rw [noStray]
      refine covers_level distinctOld distinctNew ?_ (by simp)
      rw [dropNew]
      exact classicRest_covers index (distinctOld.sublist oldSub) nodup_nil
    · intro recursion parentShadowView returns
      rw [collectRest, if_pos endNew]
      exact collectRemoved_renders parentShadowView index (old.drop index) returns
  · by_cases endOld : index = old.length
    · -- All old siblings are passed.
      have noStray := strayMoves_of_ends distinctOld (.inr endOld)
      have dropOld : old.drop index = [] := drop_eq_nil_of_le endOld.ge
      refine ⟨classicRestOutcome index [] (new.drop index), ?_, ?_⟩
      · rw [noStray]
        refine covers_level distinctOld distinctNew ?_ (by simp)
        rw [dropOld]
        exact classicRest_covers index nodup_nil (distinctNew.sublist newSub)
      · intro recursion parentShadowView returns
        rw [collectRest, if_neg endNew, if_pos endOld]
        exact collectCreated_renders parentShadowView index (new.drop index) returns
    · obtain ⟨steps, map, left, walked, ahead, aligned, iterates, within⟩ := siblings_ahead index
        (distinctOld.sublist oldSub) (distinctNew.sublist newSub)
        (fun zero => validOld (oldSub.subset zero)) (fun zero => validNew (newSub.subset zero))
      have strays := siblings_strays distinctOld distinctNew validOld validNew walked
      refine ⟨movesOutcome steps (map.strays ++ left), ?_, ?_⟩
      · rw [← strays]
        refine covers_level distinctOld distinctNew ?_ ?_
        · exact moves_covers ahead (distinctOld.sublist oldSub) (distinctNew.sublist newSub)
            fun n strayed => (within n strayed).1
        · intro tag member
          obtain ⟨n, strayed, rfl⟩ := mem_map.mp member
          exact (within n strayed).2
      · intro recursion parentShadowView returns
        rw [collectRest, if_neg endNew, if_neg endOld]
        exact collectMoves_renders parentShadowView walked iterates aligned returns

/-- **The optimized moves return a diff** of the two view forests, up to the strays. -/
theorem optimizedMoves_answers (fuel : Nat) (parentShadowView : ShadowView D)
    (old new : List (ShadowViewNodePair D))
    (diffable : Diffable fuel parentShadowView.tag (sliceForest old) (sliceForest new)) :
    Answers strayMoves (calculateShadowViewMutationsOptimizedMoves fuel) parentShadowView old
      new := by
  induction fuel generalizing parentShadowView old new with
  | zero => exact absurd diffable.heightOld (Nat.not_lt_zero _)
  | succ fuel ih =>
    by_cases empty : old.length = 0 ∧ new.length = 0
    · refine ⟨[], by rw [calculateShadowViewMutationsOptimizedMoves, if_pos empty], by simp, ?_⟩
      rw [eq_nil_of_length_eq_zero empty.1, eq_nil_of_length_eq_zero empty.2]
      exact .empty _
    · obtain ⟨distinctOld, nonzeroOld⟩ := diffable.validOld.siblings
      obtain ⟨distinctNew, nonzeroNew⟩ := diffable.validNew.siblings
      obtain ⟨_, covers, renders⟩ :=
        collectRest_renders distinctOld distinctNew nonzeroOld nonzeroNew
      have answers := fun (visit : Visit D) member => ih visit.parent visit.oldSlice visit.newSlice
        (covers.visit_diffable diffable member)
      have returns := fun (visit : Visit D) member => (answers visit member).returns
      obtain ⟨updates, updatesEq, updatesRender⟩ := collectUpdates_renders parentShadowView 0
        (reorderInPlaceIfNeeded old) (reorderInPlaceIfNeeded new)
        fun visit member => returns visit (mem_append_left _ member)
      obtain ⟨rest, restEq, restRender⟩ := renders (calculateShadowViewMutationsOptimizedMoves fuel)
        parentShadowView fun visit member => returns visit (mem_append_right _ member)
      obtain ⟨proper, edits⟩ := (updatesRender.append restRender).inOptimalOrder
      refine ⟨(updates ++ rest).inOptimalOrder, ?_, proper, ?_⟩
      · rw [calculateShadowViewMutationsOptimizedMoves, if_neg empty]
        simp [optimizedMovesLevel, updatesEq, restEq]
      · rw [edits]
        exact level_diff parentShadowView.tag covers answers

end Level

end ReactNative


