import Mathlib.Data.List.Basic

/-! Events that have a key may be merged with the other events of a batch with that key; events
without one stay alone. -/
namespace Coalescing

open List

variable {E K : Type} (key : E → Option K)

/-- The key of the events of a group. -/
def groupKey (group : List E) : Option K := group.head?.bind key

@[simp] theorem groupKey_cons (first : E) (later : List E) :
    groupKey key (first :: later) = key first := rfl

variable [DecidableEq K]

/-- The groups of a batch, but for those of the keys that have been seen before. -/
def groups : List K → List E → List (List E)
  | _, [] => []
  | seen, event :: rest =>
    match key event with
    | none => [event] :: groups seen rest
    | some k =>
      if k ∈ seen then groups seen rest
      else (event :: rest.filter (key · = some k)) :: groups (k :: seen) rest

/-- The older event is asked to take in the newer one. -/
def merge (coalesce : E → E → E) : List E → Option E
  | [] => none
  | first :: later => some (later.foldl coalesce first)

variable {key} {coalesce : E → E → E} {group : List E}

theorem merge_eq_none_iff : merge coalesce group = none ↔ group = [] := by
  cases group <;> simp [merge]

theorem merge_append_singleton {merged : E} (event : E)
    (before : merge coalesce group = some merged) :
    merge coalesce (group ++ [event]) = some (coalesce merged event) := by
  cases group with
  | nil => cases before
  | cons =>
    cases before
    rw [cons_append, merge, foldl_append]
    rfl

theorem merge_eq_getLast?
    (replaces : group.Pairwise fun older newer => coalesce older newer = newer) :
    merge coalesce group = group.getLast? := by
  cases group with
  | nil => rfl
  | cons first later =>
    rw [merge, getLast?_cons]
    induction later generalizing first with
    | nil => rfl
    | cons second _ ih =>
      obtain ⟨fromFirst, fromSecond⟩ := pairwise_cons.mp replaces
      rw [foldl_cons, fromFirst second mem_cons_self, ih second fromSecond, getLast?_cons]
      rfl

theorem merge_mem {merged : E}
    (chooses : ∀ older newer, coalesce older newer = older ∨ coalesce older newer = newer)
    (merges : merge coalesce group = some merged) : merged ∈ group := by
  cases group with
  | nil => cases merges
  | cons first later =>
    cases merges
    induction later generalizing first with
    | nil => exact mem_singleton_self first
    | cons second _ ih =>
      rcases mem_cons.mp (ih (coalesce first second)) with same | inRest
      · rw [foldl_cons, same]
        rcases chooses first second with older | newer
        · rw [older]
          exact mem_cons_self
        · rw [newer]
          exact mem_cons_of_mem first mem_cons_self
      · exact mem_cons_of_mem first (mem_cons_of_mem second inRest)

variable {seen : List K} {batch : List E}

theorem mem_groups (member : group ∈ groups key seen batch) :
    (∃ event ∈ batch, key event = none ∧ group = [event]) ∨
      ∃ k ∉ seen, group = batch.filter (key · = some k) ∧ groupKey key group = some k := by
  induction batch generalizing seen with
  | nil => cases member
  | cons first rest ih =>
    -- What is said of the rest also holds of the whole batch, as long as `first` has another key.
    have extend : ∀ {known : List K}, group ∈ groups key known rest →
        (∀ k ∉ known, key first ≠ some k ∧ k ∉ seen) →
        (∃ event ∈ first :: rest, key event = none ∧ group = [event]) ∨
          ∃ k ∉ seen, group = (first :: rest).filter (key · = some k) ∧
            groupKey key group = some k := by
      intro known inRest other
      rcases ih inRest with ⟨event, inBatch, single, alone⟩ | ⟨k, unseen, all, keyed⟩
      · left
        exact ⟨event, mem_cons_of_mem first inBatch, single, alone⟩
      · right
        obtain ⟨differs, fresh⟩ := other k unseen
        exact ⟨k, fresh, by simp [differs, ← all], keyed⟩
    rw [groups] at member
    split at member
    next single =>
      rcases mem_cons.mp member with rfl | member
      · left
        exact ⟨first, mem_cons_self, single, rfl⟩
      · exact extend member (by simp [single])
    next k keyed =>
      split at member
      next known =>
        refine extend member fun other unseen => ⟨?_, unseen⟩
        intro same
        rw [keyed] at same
        cases same
        exact unseen known
      next fresh =>
        rcases mem_cons.mp member with rfl | member
        · right
          exact ⟨k, fresh, by simp [keyed], keyed⟩
        · refine extend member fun other unseen => ?_
          rw [mem_cons, not_or] at unseen
          exact ⟨by simpa [keyed] using Ne.symm unseen.1, unseen.2⟩

variable {event : E} {k : K}

theorem groupKey_of_mem (keyed : key event = some k) (unseen : k ∉ seen) (member : event ∈ batch) :
    ∃ group ∈ groups key seen batch, groupKey key group = some k := by
  induction batch generalizing seen with
  | nil => cases member
  | cons first rest ih =>
    rw [groups]
    by_cases opens : key first = some k
    · simp [opens, unseen]
    · have inRest : event ∈ rest := by
        rcases mem_cons.mp member with rfl | inRest
        · exact absurd keyed opens
        · exact inRest
      split
      next =>
        obtain ⟨group, found, groupKeyed⟩ := ih unseen inRest
        exact ⟨group, mem_cons_of_mem _ found, groupKeyed⟩
      next other otherKey =>
        split
        next => exact ih unseen inRest
        next =>
          have differs : k ≠ other := fun same => opens (same ▸ otherKey)
          obtain ⟨group, found, groupKeyed⟩ :=
            ih (not_mem_cons_of_ne_of_not_mem differs unseen) inRest
          exact ⟨group, mem_cons_of_mem _ found, groupKeyed⟩

/-- **The events without a key** are the groups of their own, in their order. -/
theorem singles_groups (seen : List K) (batch : List E) :
    (groups key seen batch).filter (groupKey key · = none) =
      (batch.filter (key · = none)).map fun event => [event] := by
  induction batch generalizing seen with
  | nil => rfl
  | cons first _ ih =>
    rw [groups]
    cases firstKey : key first with
    | none => simp [firstKey, ← ih seen]
    | some k =>
      by_cases known : k ∈ seen
      · simp [known, firstKey, ih]
      · simp [known, firstKey, ← ih (k :: seen)]

/-- **The groups** are in the order of their first events. -/
theorem heads_groups (seen : List K) (batch : List E) :
    ((groups key seen batch).filterMap head?).Sublist batch := by
  induction batch generalizing seen with
  | nil => exact .slnil
  | cons first _ ih =>
    rw [groups]
    split
    next => exact (ih seen).cons_cons first
    next k _ =>
      split
      next => exact (ih seen).cons first
      next => exact (ih (k :: seen)).cons_cons first

/-! ### One event more -/

theorem groups_append_single (single : key event = none) (seen : List K)
    (batch : List E) : groups key seen (batch ++ [event]) = groups key seen batch ++ [[event]] := by
  induction batch generalizing seen with
  | nil => simp [groups, single]
  | cons first _ ih =>
    rw [cons_append, groups, groups]
    cases firstKey : key first with
    | none => simp [ih]
    | some k =>
      by_cases known : k ∈ seen
      · simp [known, ih]
      · simp [known, ih, single]

theorem groups_append_seen (keyed : key event = some k) (known : k ∈ seen) (batch : List E) :
    groups key seen (batch ++ [event]) = groups key seen batch := by
  induction batch generalizing seen with
  | nil => simp [groups, keyed, known]
  | cons first _ ih =>
    rw [cons_append, groups, groups]
    cases firstKey : key first with
    | none => simp [ih known]
    | some other =>
      by_cases seenBefore : other ∈ seen
      · simp [seenBefore, ih known]
      · have differs : k ≠ other := fun same => seenBefore (same ▸ known)
        simp [seenBefore, ih (mem_cons_of_mem other known), keyed, differs]

theorem groups_append_first (keyed : key event = some k)
    (unseen : k ∉ seen) (first : ∀ earlier ∈ batch, key earlier ≠ some k) :
    groups key seen (batch ++ [event]) = groups key seen batch ++ [[event]] := by
  induction batch generalizing seen with
  | nil => simp [groups, keyed, unseen]
  | cons earlier rest ih =>
    rw [cons_append, groups, groups]
    have others : ∀ other ∈ rest, key other ≠ some k :=
      fun other member => first other (mem_cons_of_mem earlier member)
    cases earlierKey : key earlier with
    | none => simp [ih unseen others]
    | some other =>
      have differs : k ≠ other := fun same => first earlier mem_cons_self (same ▸ earlierKey)
      by_cases known : other ∈ seen
      · simp [known, ih unseen others]
      · simp [known, ih (not_mem_cons_of_ne_of_not_mem differs unseen) others, keyed, differs]

theorem groups_append_later (keyed : key event = some k)
    (unseen : k ∉ seen) (later : ∃ earlier ∈ batch, key earlier = some k) :
    groups key seen (batch ++ [event]) =
      (groups key seen batch).map fun group =>
        if groupKey key group = some k then group ++ [event] else group := by
  induction batch generalizing seen with
  | nil =>
    obtain ⟨earlier, member, -⟩ := later
    cases member
  | cons first rest ih =>
    rw [cons_append, groups, groups]
    cases firstKey : key first with
    | none =>
      have inRest : ∃ earlier ∈ rest, key earlier = some k := by
        obtain ⟨earlier, member, earlierKey⟩ := later
        rcases mem_cons.mp member with rfl | member
        · rw [firstKey] at earlierKey
          cases earlierKey
        · exact ⟨earlier, member, earlierKey⟩
      simp [ih unseen inRest, firstKey]
    | some other =>
      by_cases same : k = other
      · subst same
        -- The other groups do not have the key, since it has been seen.
        have kept : (groups key (k :: seen) rest).map (fun group =>
            if groupKey key group = some k then group ++ [event] else group) =
              groups key (k :: seen) rest := by
          rw [← map_id (groups key (k :: seen) rest), List.map_map]
          apply map_congr_left
          intro group member
          have otherKey : groupKey key group ≠ some k := by
            rcases mem_groups member with ⟨other, -, single, rfl⟩ | ⟨other, fresh, -, keyed⟩
            · simp [single]
            · rw [keyed]
              rintro ⟨⟩
              exact fresh mem_cons_self
          simp [otherKey]
        simp [unseen, groups_append_seen keyed mem_cons_self, firstKey, keyed, kept]
      · have inRest : ∃ earlier ∈ rest, key earlier = some k := by
          obtain ⟨earlier, member, earlierKey⟩ := later
          rcases mem_cons.mp member with rfl | member
          · exact absurd (Option.some.inj (earlierKey.symm.trans firstKey)) same
          · exact ⟨earlier, member, earlierKey⟩
        by_cases known : other ∈ seen
        · simp [known, ih unseen inRest]
        · have notSeen : k ∉ other :: seen := not_mem_cons_of_ne_of_not_mem same unseen
          simp [known, ih notSeen inRest, firstKey, keyed, same, Ne.symm same]

end Coalescing

