import ReactNative.Mounting.DifferentiatorLevels

/-! The walk of the `OptimizedMoves` mode keeps the pairs it has inserted and not found again in a
`TinyMap`. -/
namespace ReactNative

open KeyedTree List Option Function

theorem TinyMap.findEntry_cleans {V : Type} {map found : TinyMap V} {key : Tag}
    {entry : Option (TinyMap.Iterator × V)} (search : map.findEntry key = some (found, entry)) :
    found = map.cleanVector false := by
  simp only [findEntry, Option.bind_eq_bind, Option.bind_eq_some_iff] at search
  obtain ⟨⟨searched, it⟩, searchEq, rest⟩ := search
  have cleaned : searched = map.cleanVector false := by
    unfold find at searchEq
    grind
  split at rest
  · cases rest
    exact cleaned
  · simp only [Option.bind_eq_some_iff, Option.pure_def, Option.some.injEq, Prod.mk.injEq] at rest
    obtain ⟨-, -, -, -, same, -⟩ := rest
    exact same.symm.trans cleaned

namespace Walk

variable {P : Type}

/-- Where a walk stands, with the inserted pairs that still await their old position. -/
structure Position (P : Type) where
  oldIndex : Nat
  newIndex : Nat
  oldPairs : List P
  newPairs : List P
  pending : List P

def position (walk : Walk P) (pending : List P) : Position P :=
  ⟨walk.oldIndex, walk.newIndex, walk.oldPairs, walk.newPairs, pending⟩

inductive Round (tag : P → Tag) : Position P → WalkStep P → Position P → Prop
  | matched {i j : Nat} {old new pending : List P} {o n : P} (same : tag o = tag n) :
      Round tag ⟨i, j, o :: old, n :: new, pending⟩ (.matched o n)
        ⟨i + 1, j + 1, old, new, pending⟩
  | reordered {i j : Nat} {old new pending : List P} {o n : P} (member : n ∈ pending)
      (same : tag o = tag n) :
      Round tag ⟨i, j, o :: old, new, pending⟩ (.reordered o n i)
        ⟨i + 1, j, old, new, pending.filter fun pair => tag pair ≠ tag o⟩
  | removed {i j : Nat} {old new pending : List P} {o : P}
      (absent : tag o ∉ (pending ++ new).map tag) :
      Round tag ⟨i, j, o :: old, new, pending⟩ (.removed o i) ⟨i + 1, j, old, new, pending⟩
  | inserted {i j : Nat} {old new pending : List P} {n : P}
      (later : ∀ o ∈ old.head?, tag o ∈ new.map tag) :
      Round tag ⟨i, j, old, n :: new, pending⟩ (.inserted n j)
        ⟨i, j + 1, old, new, pending ++ [n]⟩

inductive Rounds (tag : P → Tag) : Position P → List (WalkStep P) → List P → Prop
  | done {i j : Nat} {pending : List P} : Rounds tag ⟨i, j, [], [], pending⟩ [] pending
  | round {start next : Position P} {step : WalkStep P} {steps : List (WalkStep P)}
      {left : List P} (first : Round tag start step next) (later : Rounds tag next steps left) :
      Rounds tag start (step :: steps) left

theorem Round.oldPairs {tag : P → Tag} {start next : Position P} {step : WalkStep P}
    (round : Round tag start step next) : match step with
      | .inserted _ _ => next.oldPairs = start.oldPairs
      | _ => start.oldPairs ≠ [] := by
  cases round <;> simp

/-- Tags of the old pairs are distinct, and so are those of the new pairs and the pending ones. -/
structure Position.Distinct (tag : P → Tag) (at_ : Position P) : Prop where
  old : (at_.oldPairs.map tag).Nodup
  new : ((at_.pending ++ at_.newPairs).map tag).Nodup

theorem Round.distinct {tag : P → Tag} {start next : Position P} {step : WalkStep P}
    (round : Round tag start step next) (distinct : start.Distinct tag) : next.Distinct tag := by
  obtain ⟨old, new⟩ := distinct
  cases round with
  | matched =>
    refine ⟨(nodup_cons.mp old).2, new.sublist (List.Sublist.map tag ?_)⟩
    exact (sublist_cons_self _ _).append_left _
  | reordered =>
    refine ⟨(nodup_cons.mp old).2, new.sublist (List.Sublist.map tag ?_)⟩
    exact filter_sublist.append_right _
  | removed => exact ⟨(nodup_cons.mp old).2, new⟩
  | inserted => exact ⟨old, by simpa using new⟩

section Maps

variable (tag : P → Tag) (allOld allNew : List P)

structure Inv (walk : Walk P) (pending : List P) : Prop where
  remainingWf : walk.newRemainingPairs.WellFormed
  insertedWf : walk.newInsertedPairs.WellFormed
  insertedLive : walk.newInsertedPairs.live = entries tag pending
  remaining : ∀ o ∈ walk.oldPairs, tag o ∉ pending.map tag →
    (tag o ∈ walk.newRemainingPairs.keys ↔ tag o ∈ walk.newPairs.map tag)
  distinct : (walk.position pending).Distinct tag
  validOld : 0 ∉ walk.oldPairs.map tag
  validNew : 0 ∉ walk.newPairs.map tag
  oldMem : walk.oldPairs ⊆ allOld
  newMem : walk.newPairs ⊆ allNew
  /-- An entry of the inserted pairs is erased when its tag comes up in the old list. -/
  contents : ∀ item ∈ walk.newInsertedPairs.vector,
    item.2 ∈ allNew ∧ (item.1 = 0 → tag item.2 ∈ allOld.map tag)

variable {tag allOld allNew} {walk : Walk P} {pending : List P}

theorem Inv.insertedKeys (inv : walk.Inv tag allOld allNew pending) :
    walk.newInsertedPairs.keys = pending.map tag := by
  rw [TinyMap.keys, inv.insertedLive, entries_keys]

/-- What becomes of the inserted pairs in a round. A search for the old pair sweeps them first. -/
def Edits (tag : P → Tag) (walk next : Walk P) : WalkStep P → Prop
  | .matched _ _ => next.newInsertedPairs = walk.newInsertedPairs
  | .reordered o n _ => ∃ index,
      (walk.newInsertedPairs.cleanVector false).vector[index]? = some (tag o, n) ∧
        (walk.newInsertedPairs.cleanVector false).erase (some index) = some next.newInsertedPairs
  | .removed _ _ => next.newInsertedPairs = walk.newInsertedPairs.cleanVector false
  | .inserted n _ =>
      (if walk.oldPairs = [] then walk.newInsertedPairs
        else walk.newInsertedPairs.cleanVector false).insert (tag n, n) =
          some next.newInsertedPairs

def Advances (tag : P → Tag) (allOld allNew : List P) (walk : Walk P) (pending : List P)
    (result : Option (WalkStep P × Walk P)) : Prop :=
  ∃ step next left, result = some (step, next) ∧
    Round tag (walk.position pending) step (next.position left) ∧
    Edits tag walk next step ∧ next.Inv tag allOld allNew left

section

variable (inv : walk.Inv tag allOld allNew pending)
include inv

theorem insertNewPair_advances {n : P} {new : List P} (head : walk.newPairs = n :: new)
    (later : ∀ o ∈ walk.oldPairs.head?, tag o ∈ new.map tag) :
    ∃ next left, insertNewPair tag walk = some (.inserted n walk.newIndex, next) ∧
      Round tag (walk.position pending) (.inserted n walk.newIndex) (next.position left) ∧
      walk.newInsertedPairs.insert (tag n, n) = some next.newInsertedPairs ∧
      next.Inv tag allOld allNew left := by
  have distinctNew := inv.distinct.new
  have valid := inv.validNew
  simp only [position, head, map_append, map_cons] at distinctNew valid
  simp only [mem_cons, not_or] at valid
  obtain ⟨-, -, apart⟩ := nodup_append.mp distinctNew
  -- The new pair was not inserted before, since its tag is ahead of it only once.
  have fresh : tag n ∉ walk.newInsertedPairs.keys := by
    rw [inv.insertedKeys]
    exact fun member => apart _ member _ (by simp) rfl
  obtain ⟨inserted, insertEq, insertedWf, live, vector⟩ :=
    inv.insertedWf.insert_spec n (Ne.symm valid.1) fresh
  have round : Round tag (walk.position pending) (.inserted n walk.newIndex)
      (position { walk with newIndex := walk.newIndex + 1, newPairs := new, newInsertedPairs := inserted }
        (pending ++ [n])) := by
    simp only [position, head]
    exact .inserted later
  refine ⟨_, pending ++ [n], by simp [insertNewPair, head, insertEq], round, insertEq, ?_⟩
  have memNew := inv.newMem
  rw [head] at memNew
  -- The fields in the order of `Inv`: the pair is pending now.
  refine ⟨inv.remainingWf, insertedWf, ?_, ?_, round.distinct inv.distinct, inv.validOld,
    valid.2, inv.oldMem, fun pair member => memNew (by simp [member]), ?_⟩
  · rw [live, inv.insertedLive]
    simp [entries]
  · intro o oldMem notPending
    simp only [map_append, map_cons, map_nil, mem_append, mem_singleton, not_or] at notPending
    rw [inv.remaining o oldMem notPending.1, head]
    simp [notPending.2]
  · rw [vector]
    intro item member
    rcases mem_append.mp member with old | here
    · exact inv.contents item old
    · rw [mem_singleton.mp here]
      exact ⟨memNew (by simp), fun zero => absurd zero.symm valid.1⟩

theorem passOldPair_advances {o : P} {old : List P} (head : walk.oldPairs = o :: old)
    (differs : ∀ n ∈ walk.newPairs.head?, tag n ≠ tag o) :
    Advances tag allOld allNew walk pending (passOldPair tag walk o old) := by
  have distinctOld := inv.distinct.old
  have valid := inv.validOld
  have memOld := inv.oldMem
  simp only [position, head, map_cons, nodup_cons, mem_cons, not_or] at distinctOld valid
  rw [head] at memOld
  -- The tag of this old pair does not come again.
  have laterTag : ∀ o' ∈ old, tag o' ≠ tag o := fun o' member same =>
    distinctOld.1 (same ▸ mem_map_of_mem member)
  have inOld : tag o ∈ allOld.map tag := mem_map_of_mem (memOld (by simp))
  obtain ⟨found, foundWf, foundLive, within, ⟨absent, lookup⟩ | ⟨index, n, lookup, position_⟩⟩ :=
    inv.insertedWf.findEntry_spec (Ne.symm valid.1)
  · have cleaned := TinyMap.findEntry_cleans lookup
    rw [inv.insertedKeys] at absent
    obtain ⟨rest, restWf, restLive, -, ⟨gone, search⟩ | ⟨index, n, search, at_⟩⟩ :=
      inv.remainingWf.findEntry_spec (Ne.symm valid.1)
    · -- The old pair is in neither map.
      have notNew : tag o ∉ walk.newPairs.map tag := fun member =>
        gone ((inv.remaining o (by simp [head]) absent).mpr member)
      have round : Round tag (walk.position pending) (.removed o walk.oldIndex)
          (position { walk with
            oldIndex := walk.oldIndex + 1, oldPairs := old
            newInsertedPairs := found, newRemainingPairs := rest } pending) := by
        simp only [position, head]
        exact .removed (by simpa [not_or] using ⟨by simpa using absent, by simpa using notNew⟩)
      refine ⟨_, _, pending, by simp [passOldPair, lookup, search], round, cleaned, ?_⟩
      refine ⟨restWf, foundWf, foundLive.trans inv.insertedLive, ?_, round.distinct inv.distinct,
        valid.2, inv.validNew, fun pair member => memOld (by simp [member]), inv.newMem,
        fun item member => inv.contents item (within member)⟩
      intro o' member notPending
      rw [TinyMap.keys, restLive]
      exact inv.remaining o' (by simp [head, member]) notPending
    · -- It comes later in the new list: another new pair is inserted before it.
      have later : tag o ∈ walk.newPairs.map tag := by
        rw [← inv.remaining o (by simp [head]) absent, TinyMap.keys, ← restLive]
        exact mem_map_of_mem (restWf.live_of_index at_ (Ne.symm valid.1)).1
      have same : Inv tag allOld allNew { walk with
          newInsertedPairs := found, newRemainingPairs := rest } pending :=
        ⟨restWf, foundWf, foundLive.trans inv.insertedLive, fun o' member notPending => by
            rw [TinyMap.keys, restLive]
            exact inv.remaining o' member notPending,
          inv.distinct, inv.validOld, inv.validNew, inv.oldMem, inv.newMem,
          fun item member => inv.contents item (within member)⟩
      have passed : passOldPair tag walk o old = insertNewPair tag { walk with
          newInsertedPairs := found, newRemainingPairs := rest } := by
        simp [passOldPair, lookup, search]
      obtain ⟨first, others, news⟩ : ∃ first others, walk.newPairs = first :: others :=
        exists_cons_of_ne_nil fun empty => by simp [empty] at later
      have behind : ∀ o' ∈ walk.oldPairs.head?, tag o' ∈ others.map tag := by
        rw [news, map_cons, mem_cons] at later
        simp only [head, head?_cons, Option.mem_some_iff, forall_eq']
        exact later.resolve_left (differs first (by rw [news]; rfl)).symm
      obtain ⟨next, left, inserts, round, insertEq, nextInv⟩ := insertNewPair_advances same news behind
      refine ⟨_, next, left, passed.trans inserts, round, ?_, nextInv⟩
      rw [Edits, head, if_neg (cons_ne_nil _ _), ← cleaned]
      exact insertEq
  · -- The old pair was inserted before.
    obtain ⟨inLive, -⟩ := foundWf.live_of_index position_ (Ne.symm valid.1)
    rw [foundLive, inv.insertedLive] at inLive
    obtain ⟨nPending, sameTag⟩ := (mem_entries tag).mp inLive
    obtain ⟨erased, eraseEq, erasedWf, erasedLive, erasedVector⟩ :=
      foundWf.erase_spec position_ (Ne.symm valid.1)
    have round : Round tag (walk.position pending) (.reordered o n walk.oldIndex)
        (position { walk with
          oldIndex := walk.oldIndex + 1, oldPairs := old, newInsertedPairs := erased }
          (pending.filter fun pair => tag pair ≠ tag o)) := by
      simp only [position, head]
      exact .reordered nPending sameTag.symm
    refine ⟨_, _, pending.filter fun pair => tag pair ≠ tag o,
      by simp [passOldPair, lookup, eraseEq], round, ⟨index, ?_⟩, ?_⟩
    · rw [← TinyMap.findEntry_cleans lookup]
      exact ⟨position_, eraseEq⟩
    refine ⟨inv.remainingWf, erasedWf, ?_, ?_, round.distinct inv.distinct, valid.2, inv.validNew,
      fun pair member => memOld (by simp [member]), inv.newMem, ?_⟩
    · rw [erasedLive, foundLive, inv.insertedLive, entries_filter tag _ fun key => key ≠ tag o]
    · intro o' member notLeft
      refine inv.remaining o' (by simp [head, member]) fun inPending => notLeft ?_
      obtain ⟨pair, pairMem, same⟩ := mem_map.mp inPending
      refine mem_map.mpr ⟨pair, mem_filter.mpr ⟨pairMem, decide_eq_true ?_⟩, same⟩
      rw [same]
      exact laterTag o' member
    · intro item member
      rcases erasedVector item member with kept | rfl
      · exact inv.contents item (within kept)
      · have old := inv.contents (tag o, n) (within (mem_of_getElem? position_))
        exact ⟨old.1, fun _ => by rw [sameTag]; exact inOld⟩

theorem matchPairs_advances {o n : P} {old new : List P} (headOld : walk.oldPairs = o :: old)
    (headNew : walk.newPairs = n :: new) (same : tag o = tag n) :
    Advances tag allOld allNew walk pending (matchPairs tag walk o n old new) := by
  have distinctOld := inv.distinct.old
  have distinctNew := inv.distinct.new
  have validOld := inv.validOld
  have validNew := inv.validNew
  have memOld := inv.oldMem
  have memNew := inv.newMem
  simp only [position, headOld, headNew, map_cons, nodup_cons, mem_cons, not_or,
    map_append] at distinctOld distinctNew validOld validNew
  rw [headOld] at memOld
  rw [headNew] at memNew
  have laterTag : ∀ o' ∈ old, tag o' ≠ tag o := fun o' member equal =>
    distinctOld.1 (equal ▸ mem_map_of_mem member)
  have apart : tag o ∉ pending.map tag := fun member =>
    (nodup_append.mp distinctNew).2.2 _ member (tag n) (by simp) same
  -- The remaining pairs hold the tag, since its new pair is at the head.
  have present : tag o ∈ walk.newRemainingPairs.keys :=
    (inv.remaining o (by simp [headOld]) apart).mpr (by simp [headNew, same])
  obtain ⟨_, foundWf, foundLive, -, ⟨absent, -⟩ | ⟨_, _, lookup, position_⟩⟩ :=
    inv.remainingWf.findEntry_spec (Ne.symm validOld.1)
  · exact absurd present absent
  · obtain ⟨erased, eraseEq, erasedWf, erasedLive, -⟩ :=
      foundWf.erase_spec position_ (Ne.symm validOld.1)
    have round : Round tag (walk.position pending) (.matched o n)
        (position { walk with
          oldIndex := walk.oldIndex + 1, newIndex := walk.newIndex + 1
          oldPairs := old, newPairs := new, newRemainingPairs := erased } pending) := by
      simp only [position, headOld, headNew]
      exact .matched same
    refine ⟨_, _, pending, by simp [matchPairs, lookup, eraseEq], round, rfl, ?_⟩
    -- The fields in the order of `Inv`; only this tag was forgotten.
    refine ⟨erasedWf, inv.insertedWf, inv.insertedLive, ?_, round.distinct inv.distinct,
      validOld.2, validNew.2, fun pair member => memOld (by simp [member]),
      fun pair member => memNew (by simp [member]), inv.contents⟩
    intro o' member notPending
    have other := laterTag o' member
    have before := inv.remaining o' (by simp [headOld, member]) notPending
    rw [headNew, map_cons, mem_cons, ← same] at before
    simp only [other, false_or] at before
    rw [← before, TinyMap.keys, TinyMap.keys, erasedLive, foundLive]
    simp [other]

theorem step_advances (more : ¬ (walk.oldPairs = [] ∧ walk.newPairs = [])) :
    Advances tag allOld allNew walk pending (walk.step tag) := by
  unfold step
  cases olds : walk.oldPairs with
  | nil =>
    cases news : walk.newPairs with
    | nil => exact absurd ⟨olds, news⟩ more
    | cons n new =>
      obtain ⟨next, left, inserts, round, insertEq, nextInv⟩ :=
        insertNewPair_advances inv news (by simp [olds])
      refine ⟨_, next, left, inserts, round, ?_, nextInv⟩
      rw [Edits, if_pos olds]
      exact insertEq
  | cons o =>
    cases news : walk.newPairs with
    | nil => exact passOldPair_advances inv olds (by simp [news])
    | cons n new =>
      by_cases same : tag n = tag o
      · simp only [if_pos same]
        exact matchPairs_advances inv olds news same.symm
      · simp only [if_neg same]
        exact passOldPair_advances inv olds (by simpa [news] using same)

end

theorem Round.shortens {start next : Position P} {step : WalkStep P}
    (round : Round tag start step next) :
    next.oldPairs.length + next.newPairs.length <
      start.oldPairs.length + start.newPairs.length := by
  cases round <;> simp only [length_cons] <;> omega

theorem run_rounds (rounds : Nat) (walk : Walk P) (pending : List P)
    (inv : walk.Inv tag allOld allNew pending)
    (enough : walk.oldPairs.length + walk.newPairs.length ≤ rounds) :
    ∃ steps map left, run tag rounds walk = some (steps, map) ∧
      Rounds tag (walk.position pending) steps left ∧
      map.WellFormed ∧ map.live = entries tag left ∧
      ∀ item ∈ map.vector, item.2 ∈ allNew ∧ (item.1 = 0 → tag item.2 ∈ allOld.map tag) := by
  induction rounds generalizing walk pending with
  | zero =>
    have oldEmpty := eq_nil_of_length_eq_zero (Nat.eq_zero_of_add_eq_zero_right (Nat.le_zero.mp enough))
    have newEmpty := eq_nil_of_length_eq_zero (Nat.eq_zero_of_add_eq_zero_left (Nat.le_zero.mp enough))
    refine ⟨[], walk.newInsertedPairs, pending, ?_, ?_, inv.insertedWf, inv.insertedLive,
      inv.contents⟩
    · rw [run, if_pos ⟨oldEmpty, newEmpty⟩]
    · rw [position, oldEmpty, newEmpty]
      exact .done
  | succ rounds ih =>
    by_cases finished : walk.oldPairs = [] ∧ walk.newPairs = []
    · refine ⟨[], walk.newInsertedPairs, pending, ?_, ?_, inv.insertedWf, inv.insertedLive,
        inv.contents⟩
      · rw [run, if_pos finished]
      · rw [position, finished.1, finished.2]
        exact .done
    · obtain ⟨step, next, left, stepEq, round, -, nextInv⟩ := step_advances inv finished
      have shorter := round.shortens
      simp only [position] at shorter
      obtain ⟨steps, map, final, runEq, later, facts⟩ := ih next left nextInv (by omega)
      exact ⟨step :: steps, map, final, by rw [run, if_neg finished]; simp [stepEq, runEq],
        .round round later, facts⟩

/-- The walk starts with all new pairs remaining, and none inserted. -/
theorem exists_start (index : Nat) (distinctOld : (allOld.map tag).Nodup)
    (distinctNew : (allNew.map tag).Nodup) (validOld : 0 ∉ allOld.map tag)
    (validNew : 0 ∉ allNew.map tag) :
    ∃ remaining, insertAll tag allNew {} = some remaining ∧
      Inv tag allOld allNew ⟨index, index, allOld, allNew, remaining, {}⟩ [] := by
  obtain ⟨remaining, insertEq, remainingWf, remainingLive⟩ := insertAll_spec tag allNew {}
    TinyMap.wellFormed_empty validNew (by simpa [TinyMap.keys, TinyMap.live] using distinctNew)
  have remainingKeys : remaining.keys = allNew.map tag := by
    rw [TinyMap.keys, remainingLive]
    simp [TinyMap.live]
  refine ⟨remaining, insertEq, remainingWf, TinyMap.wellFormed_empty, rfl, ?_,
    ⟨distinctOld, distinctNew⟩, validOld, validNew, List.Subset.refl _, List.Subset.refl _, by simp⟩
  intro o _ _
  rw [remainingKeys]

end Maps

end Walk

end ReactNative
