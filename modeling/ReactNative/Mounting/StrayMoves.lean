import ReactNative.Mounting.SiblingWalk
import Mathlib.Data.List.Perm.Subperm

/-! The `OptimizedMoves` mode creates a moved view again exactly for certain pairs of sibling lists. -/
namespace ReactNative

open List

/-- The siblings that stand before one. -/
def siblingsBefore (siblings : List Tag) (tag : Tag) : List Tag :=
  siblings.takeWhile fun sibling => sibling ≠ tag

section Siblings

variable (old new : List Tag)

/-- A sibling that stood before the tag stands behind it now. -/
def MovedAhead (tag : Tag) : Prop :=
  ∃ other ∈ siblingsBefore old tag, other ∈ new ∧ tag ∈ siblingsBefore new other

instance decidableMovedAhead (tag : Tag) : Decidable (MovedAhead old new tag) := by
  unfold MovedAhead
  infer_instance

def movedTags : List Tag := old.filter fun tag => MovedAhead old new tag

/-- The tags of the new list that do not keep their place. -/
def insertedTags : List Tag := new.filter fun tag => tag ∉ old ∨ MovedAhead old new tag

/-- Those of them that stand before a sibling that stood before the tag. -/
def insertedBefore (tag : Tag) : List Tag :=
  (insertedTags old new).filter fun other =>
    ∃ passed ∈ siblingsBefore old tag, passed ∈ new ∧ other ∈ siblingsBefore new passed

/-- Moved tags: those that are swept out, and those that are erased since. -/
structure Erasures where
  swept : List Tag := []
  since : List Tag := []

def Erasures.held (erased : Erasures) (inserted : List Tag) : List Tag :=
  inserted.filter fun tag => tag ∉ erased.swept

/-- The erased tags are half of what is held, and not just the first ones of it. -/
def Sweeps (held since : List Tag) : Prop :=
  held.length / 2 ≤ since.length ∧ ¬(since <+: held ∧ since ≠ held)

instance decidableSweeps (held since : List Tag) : Decidable (Sweeps held since) := by
  unfold Sweeps
  infer_instance

/-- Erases one more tag. -/
def Erasures.erase (erased : Erasures) (inserted : List Tag) (tag : Tag) : Erasures :=
  if Sweeps (erased.held inserted) (erased.since ++ [tag]) then
    { swept := erased.swept ++ (erased.since ++ [tag]) }
  else { erased with since := erased.since ++ [tag] }

/-- The given tags are erased one after the other. -/
def erasuresOf (tags : List Tag) : Erasures :=
  tags.foldl (fun erased tag => erased.erase (insertedBefore old new tag) tag) {}

/-- The tags erased since the last sweep, if they are the first ones of what is inserted. -/
def Erasures.strays (erased : Erasures) : List Tag :=
  if erased.since <+: erased.held (insertedTags old new) then erased.since else []

/-- The moved siblings that are erased last, without being swept. -/
def strayMoves : List Tag := (erasuresOf old new (movedTags old new)).strays old new

end Siblings

/-! ### What the map shows -/

namespace TinyMap

variable {P : Type} (tag : P → Tag)

/-- The entries are the held pairs, and the keys of the erased ones are wiped. -/
structure Shows (map : TinyMap P) (held : List P) (since : List Tag) : Prop where
  vector : map.vector = held.map fun pair => (if tag pair ∈ since then 0 else tag pair, pair)
  numErased : map.numErased = since.length
  few : map.erasedAtFront ≤ since.length
  front : map.erasedAtFront = since.length ↔ since <+: held.map tag
  proper : since = held.map tag → held = []

/-- The held tags are distinct, and the erased ones are among them. -/
structure Held (held since : List Tag) : Prop where
  nodup : held.Nodup
  nonzero : 0 ∉ held
  erased : since.Nodup
  subset : since ⊆ held

variable {tag} {map next : TinyMap P} {held : List P} {since : List Tag} {key : Tag} {pair : P}

theorem cleanVector_idem (map : TinyMap P) :
    (map.cleanVector false).cleanVector false = map.cleanVector false := by
  by_cases kept : (map.numErased < map.vector.length / 2 ∧ ¬(false = true)) ∨
      map.vector.length = 0 ∨ map.numErased = 0 ∨ map.numErased = map.erasedAtFront
  · rw [cleanVector.eq_1 map, if_pos kept, cleanVector, if_pos kept]
  · rw [cleanVector.eq_1 map, if_neg kept]
    split
    · exact if_pos (.inr (.inl rfl))
    · exact if_pos (.inr (.inr (.inl rfl)))

theorem strays_cleanVector (map : TinyMap P) :
    (map.cleanVector false).strays = map.strays := by
  unfold cleanVector
  split
  next => rfl
  next swept =>
    have apart : map.erasedAtFront ≠ map.numErased :=
      fun same => swept (.inr (.inr (.inr same.symm)))
    rw [strays.eq_1 map, if_neg apart]
    split <;> rfl

theorem Shows.strays (shows : map.Shows tag held since) :
    map.strays.map tag = if since <+: held.map tag then since else [] := by
  have values : map.vector.map Prod.snd = held := by
    rw [shows.vector, List.map_map]
    exact List.map_id _
  rw [TinyMap.strays, shows.numErased]
  by_cases front : since <+: held.map tag
  · rw [if_pos front, if_pos (shows.front.mpr front), shows.front.mpr front, map_take, values,
      map_take]
    exact (prefix_iff_eq_take.mp front).symm
  · rw [if_neg front, if_neg fun same => front (shows.front.mp same), map_nil]

theorem strays_insert (wf : map.WellFormed) (inserts : map.insert (key, pair) = some next) :
    next.strays = map.strays := by
  rw [insert] at inserts
  split at inserts
  · cases inserts
  · cases inserts
    simp only [strays, take_append_of_le_length wf.front_le]

theorem Shows.insert (shows : map.Shows tag held since) (subset : since ⊆ held.map tag)
    (clean : map.cleanVector false = map) (fresh : tag pair ∉ held.map tag)
    (inserts : map.insert (tag pair, pair) = some next) :
    next.Shows tag (held ++ [pair]) since ∧ next.cleanVector false = next := by
  have notErased : tag pair ∉ since := fun member => fresh (subset member)
  rw [TinyMap.insert] at inserts
  split at inserts
  · cases inserts
  cases inserts
  refine ⟨⟨?_, shows.numErased, shows.few, ?_, ?_⟩, ?_⟩
  · simp only [shows.vector, map_append, map_cons, map_nil, if_neg notErased]
  · rw [shows.front, map_append, map_singleton, prefix_concat_iff]
    refine ⟨.inr, Or.rec (fun all => absurd ?_ notErased) id⟩
    rw [all]
    exact mem_append_right _ (mem_singleton_self _)
  · intro all
    rw [all, map_append] at notErased
    exact absurd (mem_append_right _ (mem_singleton_self _)) notErased
  · -- one more entry does not call for a sweep
    have stays : map.numErased < map.vector.length / 2 ∨ map.numErased = 0 ∨
        map.numErased = map.erasedAtFront := by
      by_contra sweeps
      simp only [not_or] at sweeps
      have nonempty : map.vector.length ≠ 0 := by
        intro empty
        rw [shows.vector, length_map, length_eq_zero_iff] at empty
        rw [empty] at subset
        exact sweeps.2.1 (by rw [shows.numErased, subset_nil.mp subset, length_nil])
      rw [cleanVector, if_neg (by simpa [nonempty] using sweeps)] at clean
      split at clean
      · exact sweeps.2.1 (congrArg TinyMap.numErased clean).symm
      · exact sweeps.2.1 (congrArg TinyMap.numErased clean).symm
    refine if_pos ?_
    simp only [length_append, length_singleton]
    rcases stays with few | none | front
    · exact .inl ⟨by omega, Bool.false_ne_true⟩
    · exact .inr (.inr (.inl none))
    · exact .inr (.inr (.inr front))

theorem Shows.erase (shows : map.Shows tag held since) (distinct : Held (held.map tag) since)
    {index : ℕ} (at_ : map.vector[index]? = some (key, pair)) (nonzero : key ≠ 0)
    (erases : map.erase (some index) = some next) :
    pair ∈ held ∧ tag pair = key ∧ key ∉ since ∧
      next.vector = (held.map fun other =>
        (if tag other ∈ since ++ [key] then 0 else tag other, other)) ∧
      next.numErased = since.length + 1 ∧ next.erasedAtFront ≤ since.length + 1 ∧
      (next.erasedAtFront = since.length + 1 ↔
        since ++ [key] <+: held.map tag ∧ since ++ [key] ≠ held.map tag) := by
  -- the pair is held at this place, and not erased yet
  have entry := at_
  rw [shows.vector, getElem?_map, Option.map_eq_some_iff] at entry
  obtain ⟨other, here, same⟩ := entry
  obtain ⟨isKey, rfl⟩ := Prod.mk.inj same
  have notErased : tag other ∉ since := fun member => nonzero (by rw [← isKey, if_pos member])
  rw [if_neg notErased] at isKey
  subst isKey
  have hereTag : (held.map tag)[index]? = some (tag other) := by rw [getElem?_map, here]; rfl
  have inside := (List.getElem?_eq_some_iff.mp hereTag).1
  have wiped : map.vector.set index (0, other) = held.map fun pair =>
      (if tag pair ∈ since ++ [tag other] then 0 else tag pair, pair) := by
    refine List.ext_getElem? fun i => ?_
    rw [shows.vector, getElem?_set, length_map, getElem?_map, getElem?_map]
    split
    next isIndex =>
      rw [← isIndex, here, if_pos (List.getElem?_eq_some_iff.mp here).1]
      simp
    next apart =>
      refine Option.map_congr fun pair there => ?_
      have differs : tag pair ≠ tag other := by
        intro same
        refine apart ((getElem?_inj inside distinct.nodup).mp (hereTag.trans ?_))
        rw [getElem?_map, there, ← same]
        rfl
      simp [differs]
  have few := shows.few
  have length : map.vector.length = held.length := by rw [shows.vector, length_map]
  have leads : since ++ [tag other] <+: held.map tag ↔
      since <+: held.map tag ∧ index = since.length := by
    constructor
    · rintro ⟨rest, split⟩
      refine ⟨⟨[tag other] ++ rest, by simpa using split⟩, ?_⟩
      refine (getElem?_inj inside distinct.nodup).mp (hereTag.trans ?_)
      rw [← split]
      simp
    · rintro ⟨⟨rest, split⟩, rfl⟩
      rw [← split, getElem?_append_right le_rfl, Nat.sub_self] at hereTag
      cases rest with
      | nil => cases hereTag
      | cons first more =>
        cases hereTag
        exact ⟨more, by rw [← split, append_assoc]; rfl⟩
  have front := shows.front
  refine ⟨mem_of_getElem? here, rfl, notErased, ?_⟩
  simp only [TinyMap.erase, Option.bind_eq_bind, Option.bind_some, at_, wiped] at erases
  split at erases
  next atFront =>
    cases erases
    refine ⟨rfl, congrArg (· + 1) shows.numErased, Nat.succ_le_succ few, ?_⟩
    obtain ⟨notAll, isFront⟩ : held.length ≠ since.length + 1 ∧ index = map.erasedAtFront := by
      rw [begin_] at atFront
      split at atFront
      next => cases atFront
      next left =>
        simp only [length_map, shows.numErased, not_or] at left
        exact ⟨left.2, by simpa using atFront⟩
    have proper : since ++ [tag other] ≠ held.map tag := fun all =>
      notAll (by rw [← length_map tag, ← all]; simp)
    rw [leads, ← front, ← isFront]
    simp [proper]
  next elsewhere =>
    cases erases
    refine ⟨rfl, congrArg (· + 1) shows.numErased, few.trans (Nat.le_succ _), ?_⟩
    refine iff_of_false (Nat.ne_of_lt (Nat.lt_succ_of_le few)) fun both => elsewhere ?_
    obtain ⟨isPrefix, proper⟩ := both
    obtain ⟨isFront, isIndex⟩ := leads.mp isPrefix
    have notAll : held.length ≠ since.length + 1 := fun all =>
      proper (isPrefix.eq_of_length (by simp [all]))
    have nonempty : 0 < held.length := length_pos_of_mem (mem_of_getElem? here)
    rw [begin_, if_neg (by simp [shows.numErased, notAll, Nat.ne_of_gt nonempty])]
    simp [isIndex, front.mpr isFront]

/-- The erased tags at the end, or none after a sweep. -/
theorem Shows.erase_clean (shows : map.Shows tag held since) (distinct : Held (held.map tag) since)
    {index : ℕ} (at_ : map.vector[index]? = some (key, pair)) (nonzero : key ≠ 0)
    (erases : map.erase (some index) = some next) :
    if Sweeps (held.map tag) (since ++ [key]) then
      (next.cleanVector false).Shows tag (held.filter fun other => tag other ∉ since ++ [key]) []
    else (next.cleanVector false).Shows tag held (since ++ [key]) := by
  obtain ⟨member, rfl, notErased, vector, numErased, few, front⟩ :=
    shows.erase distinct at_ nonzero erases
  have size : (since ++ [tag pair]).length = since.length + 1 := by simp
  have length : next.vector.length = held.length := by rw [vector, length_map]
  have nonempty : 0 < held.length := length_pos_of_mem member
  rw [cleanVector, length, numErased]
  split
  next swept =>
    rw [Sweeps, size, length_map] at swept
    rw [if_neg (by
      rintro (⟨few, -⟩ | none | none | isFront)
      · omega
      · omega
      · omega
      · exact swept.2 (front.mp isFront.symm))]
    split
    next all =>
      -- all held tags are erased
      have perm : since ++ [tag pair] ~ held.map tag := by
        have nodup : (since ++ [tag pair]).Nodup :=
          nodup_append.mpr ⟨distinct.erased, nodup_singleton _, by
            rintro other inSince _ isTag rfl
            exact notErased (mem_singleton.mp isTag ▸ inSince)⟩
        have subset : since ++ [tag pair] ⊆ held.map tag :=
          append_subset.mpr ⟨distinct.subset, cons_subset.mpr ⟨mem_map_of_mem member, nil_subset _⟩⟩
        exact (nodup.subperm subset).perm_of_length_le (by rw [length_map, size]; omega)
      have none : (held.filter fun other => tag other ∉ since ++ [tag pair]) = [] := by
        refine filter_eq_nil_iff.mpr fun other inHeld => ?_
        rw [decide_eq_true_iff, not_not]
        exact perm.mem_iff.mpr (mem_map_of_mem inHeld)
      rw [none]
      exact ⟨rfl, rfl, le_rfl, by simp, fun _ => rfl⟩
    next =>
      refine ⟨?_, rfl, le_rfl, by simp, fun none => map_eq_nil_iff.mp none.symm⟩
      rw [vector, filter_map]
      have kept : held.filter ((fun item : Tag × P => decide (item.1 ≠ 0)) ∘ fun other =>
          (if tag other ∈ since ++ [tag pair] then 0 else tag other, other)) =
          held.filter fun other => tag other ∉ since ++ [tag pair] := by
        refine filter_congr fun other inHeld => ?_
        have valid : tag other ≠ 0 := fun zero => distinct.nonzero (zero ▸ mem_map_of_mem inHeld)
        by_cases erased : tag other ∈ since ++ [tag pair] <;> simp [erased, valid, -mem_append]
      rw [kept]
      refine map_congr_left fun other inFilter => ?_
      rw [if_neg (of_decide_eq_true (mem_filter.mp inFilter).2), if_neg not_mem_nil]
  next kept =>
    rw [Sweeps, size, length_map] at kept
    have proper : since ++ [tag pair] ≠ held.map tag := by
      intro all
      refine kept ⟨?_, fun leads => leads.2 all⟩
      rw [← length_map tag, ← all, size]
      omega
    have stays : since.length + 1 < held.length / 2 ∨ since.length + 1 = next.erasedAtFront := by
      by_contra sweeps
      rw [not_or, Nat.not_lt] at sweeps
      exact kept ⟨sweeps.1, fun leads => sweeps.2 (front.mpr leads).symm⟩
    rw [if_pos (by
      rcases stays with few | isFront
      · exact .inl ⟨few, Bool.false_ne_true⟩
      · exact .inr (.inr (.inr isFront)))]
    refine ⟨vector, numErased.trans size.symm, few.trans size.ge, ?_, fun all => absurd all proper⟩
    rw [size, front]
    exact and_iff_left proper

end TinyMap

/-! ### Siblings before a sibling -/

section Before

variable {siblings front rest : List Tag} {tag other : Tag}

theorem siblingsBefore_eq (apart : tag ∉ front) :
    siblingsBefore (front ++ tag :: rest) tag = front := by
  rw [siblingsBefore, takeWhile_append_of_pos, takeWhile_cons_of_neg, append_nil]
  · simp
  · intro sibling member
    exact decide_eq_true fun same => apart (same ▸ member)

theorem siblingsBefore_append (member : tag ∈ front) :
    siblingsBefore (front ++ rest) tag = siblingsBefore front tag := by
  obtain ⟨before, after, rfl, apart⟩ := eq_append_cons_of_mem member
  rw [append_assoc, cons_append, siblingsBefore_eq apart, siblingsBefore_eq apart]

theorem siblingsBefore_subset : siblingsBefore siblings tag ⊆ siblings :=
  (takeWhile_sublist _).subset

theorem mem_siblingsBefore_append (inFront : tag ∈ front) (apart : other ∉ front) :
    tag ∈ siblingsBefore (front ++ rest) other := by
  rw [siblingsBefore, takeWhile_append_of_pos]
  · exact mem_append_left _ inFront
  · intro sibling member
    exact decide_eq_true fun same => apart (same ▸ member)

theorem not_mem_siblingsBefore (member : other ∈ siblings)
    (before : tag ∈ siblingsBefore siblings other) : other ∉ siblingsBefore siblings tag := by
  obtain ⟨front, rest, rfl, apart⟩ := eq_append_cons_of_mem member
  rw [siblingsBefore_eq apart] at before
  rw [siblingsBefore_append before]
  exact fun inside => apart (siblingsBefore_subset inside)

end Before

/-! ### Tags alone -/

def WalkStep.map {P Q : Type} (f : P → Q) : WalkStep P → WalkStep Q
  | .matched o n => .matched (f o) (f n)
  | .reordered o n i => .reordered (f o) (f n) i
  | .removed o i => .removed (f o) i
  | .inserted n j => .inserted (f n) j

namespace Walk

variable {P : Type}

def Position.map {Q : Type} (f : P → Q) (at_ : Position P) : Position Q :=
  ⟨at_.oldIndex, at_.newIndex, at_.oldPairs.map f, at_.newPairs.map f, at_.pending.map f⟩

theorem Round.map {tag : P → Tag} {start next : Position P} {step : WalkStep P}
    (round : Round tag start step next) :
    Round id (start.map tag) (step.map tag) (next.map tag) := by
  cases round with
  | matched same => exact .matched same
  | @reordered _ _ _ _ pending o _ member same =>
    have kept : (pending.filter fun pair => tag pair ≠ tag o).map tag =
        (pending.map tag).filter fun other => id other ≠ id (tag o) := by
      rw [List.filter_map]
      rfl
    simp only [Position.map, kept]
    exact .reordered (mem_map_of_mem member) same
  | removed absent => exact .removed (by simpa using absent)
  | inserted later =>
    simp only [Position.map, map_append]
    refine .inserted fun o head => ?_
    rw [head?_map, Option.mem_def, Option.map_eq_some_iff] at head
    obtain ⟨pair, isHead, rfl⟩ := head
    simpa using later pair isHead

end Walk

/-! ### How far a walk has come -/

section Passed

variable (old new : List Tag)

abbrev Inserted (tag : Tag) : Prop := tag ∉ old ∨ MovedAhead old new tag

structure Passed (at_ : Walk.Position Tag) (oldFront newFront : List Tag) : Prop where
  oldSplit : old = oldFront ++ at_.oldPairs
  newSplit : new = newFront ++ at_.newPairs
  passed : ∀ tag ∈ oldFront, tag ∈ new → tag ∈ newFront
  pending : ∀ tag, tag ∈ at_.pending ↔ tag ∈ newFront ∧ tag ∉ oldFront
  moved : ∀ tag ∈ at_.pending, Inserted old new tag
  reached : ∀ tag ∈ newFront, Inserted old new tag →
    (∃ passed ∈ oldFront, passed ∈ new ∧ tag ∈ siblingsBefore new passed) ∨
      ∀ o ∈ at_.oldPairs.head?, o ∈ at_.newPairs

/-- What a round tells of the tags that it passes. -/
def Tells (oldFront newFront oldFront' newFront' : List Tag) : WalkStep Tag → Prop
  | .matched o _ => oldFront' = oldFront ++ [o] ∧ newFront' = newFront ++ [o] ∧
      ¬Inserted old new o ∧ ¬MovedAhead old new o
  | .reordered o n _ => oldFront' = oldFront ++ [o] ∧ newFront' = newFront ∧ n = o ∧
      MovedAhead old new o ∧
      insertedBefore old new o = newFront.filter fun tag => Inserted old new tag
  | .removed o _ => oldFront' = oldFront ++ [o] ∧ newFront' = newFront ∧ ¬MovedAhead old new o
  | .inserted n _ => oldFront' = oldFront ∧ newFront' = newFront ++ [n] ∧ Inserted old new n

variable {old new} {start next : Walk.Position Tag} {oldFront newFront : List Tag}
  {step : WalkStep Tag}

theorem Passed.round (oldDistinct : old.Nodup) (newDistinct : new.Nodup)
    (passed : Passed old new start oldFront newFront) (round : Walk.Round id start step next) :
    ∃ oldFront' newFront', Passed old new next oldFront' newFront' ∧
      Tells old new oldFront newFront oldFront' newFront' step := by
  obtain ⟨rfl, rfl, passes, pends, moves, reaches⟩ := passed
  cases round with
  | @matched i j oldRest newRest pending o n same =>
    obtain rfl : o = n := same
    have oldApart : o ∉ oldFront := fun member => (nodup_append.mp oldDistinct).2.2 o member o (by simp) rfl
    have newApart : o ∉ newFront := fun member => (nodup_append.mp newDistinct).2.2 o member o (by simp) rfl
    -- what stood before it has been passed in the new list too
    have still : ¬MovedAhead (oldFront ++ o :: oldRest) (newFront ++ o :: newRest) o := by
      rintro ⟨other, before, inNew, ahead⟩
      rw [siblingsBefore_eq oldApart] at before
      rw [siblingsBefore_append (passes other before inNew)] at ahead
      exact newApart (siblingsBefore_subset ahead)
    have kept : ¬Inserted (oldFront ++ o :: oldRest) (newFront ++ o :: newRest) o := by
      rintro (absent | moved)
      · exact absent (by simp)
      · exact still moved
    refine ⟨oldFront ++ [o], newFront ++ [o], ⟨by simp, by simp, ?_, ?_, moves, ?_⟩, rfl, rfl, kept, still⟩
    · intro tag member inNew
      rcases mem_append.mp member with before | here
      · exact mem_append_left _ (passes tag before inNew)
      · exact mem_append_right _ here
    · intro tag
      rw [pends tag]
      simp only [mem_append, mem_singleton, not_or]
      constructor
      · rintro ⟨inNew, notOld⟩
        exact ⟨.inl inNew, notOld, fun same => newApart (same ▸ inNew)⟩
      · rintro ⟨inNew | same, notOld, differs⟩
        · exact ⟨inNew, notOld⟩
        · exact absurd same differs
    · intro tag member inserted
      rcases mem_append.mp member with inFront | here
      · exact .inl ⟨o, by simp, by simp, mem_siblingsBefore_append inFront newApart⟩
      · exact absurd (mem_singleton.mp here ▸ inserted) kept
  | @reordered i j oldRest newRest pending o n member same =>
    obtain rfl : o = n := same
    obtain ⟨inNew, oldApart⟩ := (pends o).mp member
    have newApart : o ∉ newRest := fun later => (nodup_append.mp newDistinct).2.2 o inNew o later rfl
    have moved := (moves o member).resolve_left (not_not.mpr (by simp))
    -- the new list has been passed just up to a sibling that stood before it
    have reached : ∀ tag ∈ newFront, Inserted (oldFront ++ o :: oldRest) (newFront ++ newRest) tag →
        ∃ passed ∈ oldFront, passed ∈ newFront ++ newRest ∧
          tag ∈ siblingsBefore (newFront ++ newRest) passed := fun tag member inserted =>
      (reaches tag member inserted).resolve_right fun later => newApart (later o rfl)
    refine ⟨oldFront ++ [o], newFront, ⟨by simp, rfl, ?_, ?_, ?_, ?_⟩, rfl, rfl, rfl, moved, ?_⟩
    · intro tag inOld inBoth
      rcases mem_append.mp inOld with before | here
      · exact passes tag before inBoth
      · exact mem_singleton.mp here ▸ inNew
    · intro tag
      simp only [mem_filter, pends, id, decide_eq_true_eq, mem_append, mem_singleton, not_or]
      exact and_assoc
    · intro tag left
      exact moves tag (mem_filter.mp left).1
    · intro tag member inserted
      obtain ⟨passed, before, inBoth, ahead⟩ := reached tag member inserted
      exact .inl ⟨passed, mem_append_left _ before, inBoth, ahead⟩
    · rw [insertedBefore, insertedTags, siblingsBefore_eq oldApart, filter_append, filter_append]
      have none : (newRest.filter fun tag =>
          Inserted (oldFront ++ o :: oldRest) (newFront ++ newRest) tag).filter (fun other =>
            ∃ passed ∈ oldFront, passed ∈ newFront ++ newRest ∧
              other ∈ siblingsBefore (newFront ++ newRest) passed) = [] := by
        refine filter_eq_nil_iff.mpr fun other later => ?_
        rw [decide_eq_true_eq]
        rintro ⟨passed, before, inBoth, ahead⟩
        rw [siblingsBefore_append (passes passed before inBoth)] at ahead
        exact (nodup_append.mp newDistinct).2.2 other (siblingsBefore_subset ahead) other
          (mem_filter.mp later).1 rfl
      rw [none, append_nil]
      refine filter_eq_self.mpr fun other inFilter => ?_
      obtain ⟨inFront, inserted⟩ := mem_filter.mp inFilter
      exact decide_eq_true (reached other inFront (of_decide_eq_true inserted))
  | @removed i j oldRest newRest pending o absent =>
    simp only [map_append, mem_append, List.map_id, not_or] at absent
    have oldApart : o ∉ oldFront := fun member => (nodup_append.mp oldDistinct).2.2 o member o (by simp) rfl
    have notNew : o ∉ newFront ++ newRest := by
      rw [mem_append, not_or]
      exact ⟨fun member => absent.1 ((pends o).mpr ⟨member, oldApart⟩), absent.2⟩
    refine ⟨oldFront ++ [o], newFront, ⟨by simp, rfl, ?_, ?_, moves, ?_⟩, rfl, rfl, ?_⟩
    · intro tag inOld inBoth
      rcases mem_append.mp inOld with before | here
      · exact passes tag before inBoth
      · exact absurd (mem_singleton.mp here ▸ inBoth) notNew
    · intro tag
      rw [pends tag, mem_append, mem_singleton, not_or]
      refine and_congr_right fun inNew => (and_iff_left ?_).symm
      rintro rfl
      exact notNew (mem_append_left _ inNew)
    · intro tag member inserted
      refine .inl ?_
      rcases reaches tag member inserted with ⟨passed, before, rest⟩ | later
      · exact ⟨passed, mem_append_left _ before, rest⟩
      · exact absurd (mem_append_right _ (later o rfl)) notNew
    · rintro ⟨other, -, -, ahead⟩
      exact notNew (siblingsBefore_subset ahead)
  | @inserted i j oldRest newRest pending n later =>
    simp only [id, List.map_id] at later
    have newApart : n ∉ newFront ∧ n ∉ newRest := by
      obtain ⟨-, tail, apart⟩ := nodup_append.mp newDistinct
      exact ⟨fun member => apart n member n (by simp) rfl, (nodup_cons.mp tail).1⟩
    have notPassed : n ∉ oldFront := fun member => newApart.1 (passes n member (by simp))
    have inserted : Inserted (oldFront ++ oldRest) (newFront ++ n :: newRest) n := by
      cases oldRest with
      | nil => exact .inl (by simpa using notPassed)
      | cons o oldRest =>
        have inRest : o ∈ newRest := later o rfl
        have differs : n ≠ o := fun same => newApart.2 (same ▸ inRest)
        have apart : o ∉ newFront ++ [n] := by
          rw [append_cons] at newDistinct
          exact fun member => (nodup_append.mp newDistinct).2.2 o member o inRest rfl
        -- the old sibling that is next stands behind it in the new list
        refine or_iff_not_imp_left.mpr fun inOld => ⟨o, ?_, by simp [inRest], ?_⟩
        · rw [append_cons]
          exact mem_siblingsBefore_append (by simp) (by simp [notPassed, differs])
        · rw [append_cons]
          exact mem_siblingsBefore_append (by simp) apart
    refine ⟨oldFront, newFront ++ [n], ⟨rfl, by simp, ?_, ?_, ?_, ?_⟩, rfl, rfl, inserted⟩
    · exact fun tag inOld inNew => mem_append_left _ (passes tag inOld inNew)
    · intro tag
      simp only [mem_append, mem_singleton, pends]
      constructor
      · rintro (⟨inNew, notOld⟩ | rfl)
        · exact ⟨.inl inNew, notOld⟩
        · exact ⟨.inr rfl, notPassed⟩
      · rintro ⟨inNew | same, notOld⟩
        · exact .inl ⟨inNew, notOld⟩
        · exact .inr same
    · intro tag member
      rcases mem_append.mp member with before | here
      · exact moves tag before
      · exact mem_singleton.mp here ▸ inserted
    · intro tag member isInserted
      rcases mem_append.mp member with before | here
      · refine (reaches tag before isInserted).imp_right fun _ => later
      · exact .inr later

end Passed

/-! ### What is erased along a walk -/

section Erased

variable (old new : List Tag)

theorem erasuresOf_concat (tags : List Tag) (tag : Tag) : erasuresOf old new (tags ++ [tag]) =
    (erasuresOf old new tags).erase (insertedBefore old new tag) tag := by
  rw [erasuresOf, foldl_append]
  rfl

theorem swept_append_since (tags : List Tag) :
    (erasuresOf old new tags).swept ++ (erasuresOf old new tags).since = tags := by
  induction tags using reverseRecOn with
  | nil => rfl
  | append_singleton tags tag ih =>
    rw [erasuresOf_concat, Erasures.erase]
    split
    · rw [append_nil, ← append_assoc, ih]
    · rw [← append_assoc, ih]

/-- What is erased while the first part of the old list is passed. -/
def erasedIn (oldFront : List Tag) : Erasures :=
  erasuresOf old new (oldFront.filter fun tag => MovedAhead old new tag)

def heldIn (oldFront newFront : List Tag) : List Tag :=
  (erasedIn old new oldFront).held (newFront.filter fun tag => Inserted old new tag)

structure Shown {P : Type} (tag : P → Tag) (walk : Walk P) (oldFront newFront : List Tag) : Prop where
  shows : walk.oldPairs ≠ [] → ∃ held, held.map tag = heldIn old new oldFront newFront ∧
    (walk.newInsertedPairs.cleanVector false).Shows tag held (erasedIn old new oldFront).since
  strays : walk.newInsertedPairs.strays.map tag = (erasedIn old new oldFront).strays old new

variable {old new} {P : Type} {tag : P → Tag} {oldFront newFront : List Tag} {walk next : Walk P}
  {pending left : List P} {moved : Tag}

theorem erasedIn_moved (isMoved : MovedAhead old new moved) :
    erasedIn old new (oldFront ++ [moved]) =
      (erasedIn old new oldFront).erase (insertedBefore old new moved) moved := by
  rw [erasedIn, filter_append, filter_cons_of_pos (by simpa using isMoved), filter_nil,
    erasuresOf_concat]
  rfl

theorem erasedIn_still (still : ¬MovedAhead old new moved) :
    erasedIn old new (oldFront ++ [moved]) = erasedIn old new oldFront := by
  rw [erasedIn, filter_append, filter_cons_of_neg (by simpa using still), filter_nil, append_nil]
  rfl

section

variable (oldDistinct : old.Nodup) (newDistinct : new.Nodup) (nonzero : 0 ∉ new)
  (passed : Passed old new ((walk.position pending).map tag) oldFront newFront)
include oldDistinct newDistinct passed

include nonzero in
theorem Passed.held :
    TinyMap.Held (heldIn old new oldFront newFront) (erasedIn old new oldFront).since := by
  have erased := swept_append_since old new (oldFront.filter fun tag => MovedAhead old new tag)
  have nodup : (oldFront.filter fun tag => MovedAhead old new tag).Nodup := by
    have distinct := oldDistinct
    rw [passed.oldSplit] at distinct
    exact (nodup_append.mp distinct).1.filter _
  rw [← erased] at nodup
  have inNew : ∀ tag ∈ newFront, tag ∈ new := fun tag member => by
    rw [passed.newSplit]
    exact mem_append_left _ member
  refine ⟨?_, ?_, (nodup_append.mp nodup).2.1, ?_⟩
  · have distinct := newDistinct
    rw [passed.newSplit] at distinct
    exact ((nodup_append.mp distinct).1.filter _).filter _
  · exact fun zero => nonzero (inNew 0 (mem_filter.mp (mem_filter.mp zero).1).1)
  · intro tag inSince
    have member : tag ∈ oldFront.filter fun tag => MovedAhead old new tag := by
      rw [← erased]
      exact mem_append_right _ inSince
    obtain ⟨inFront, isMoved⟩ := mem_filter.mp member
    have moved := of_decide_eq_true isMoved
    obtain ⟨other, -, -, ahead⟩ := moved
    have inNewFront := passed.passed tag inFront (siblingsBefore_subset ahead)
    refine mem_filter.mpr ⟨mem_filter.mpr ⟨inNewFront, ?_⟩, ?_⟩
    · exact decide_eq_true (.inr (of_decide_eq_true isMoved))
    · exact decide_eq_true fun inSwept => (nodup_append.mp nodup).2.2 tag inSwept tag inSince rfl

include nonzero in
theorem Passed.strays {map : TinyMap P} {pairs : List P}
    (pairsHeld : pairs.map tag = heldIn old new oldFront newFront)
    (shows : (map.cleanVector false).Shows tag pairs (erasedIn old new oldFront).since) :
    map.strays.map tag = (erasedIn old new oldFront).strays old new := by
  have held := passed.held oldDistinct newDistinct nonzero
  have grows : heldIn old new oldFront newFront <+:
      (erasedIn old new oldFront).held (insertedTags old new) := by
    refine ((prefix_append newFront ((walk.position pending).map tag).newPairs).filter _).filter _ |>.trans ?_
    rw [← passed.newSplit]
    exact prefix_rfl
  rw [← TinyMap.strays_cleanVector, shows.strays, pairsHeld, Erasures.strays]
  refine if_congr ⟨fun leads => leads.trans grows, fun leads => ?_⟩ rfl rfl
  exact prefix_of_prefix_length_le leads grows (held.erased.subperm held.subset).length_le

include nonzero in
/-- A round erases a moved tag, inserts a tag, or leaves both lists. -/
theorem Shown.round (valid : 0 ∉ old) (wf : walk.newInsertedPairs.WellFormed)
    (shown : Shown old new tag walk oldFront newFront) {step : WalkStep P}
    (round : Walk.Round tag (walk.position pending) step (next.position left))
    (edits : Walk.Edits tag walk next step) {oldFront' newFront' : List Tag}
    (passed' : Passed old new ((next.position left).map tag) oldFront' newFront')
    (tells : Tells old new oldFront newFront oldFront' newFront' (step.map tag)) :
    Shown old new tag next oldFront' newFront' := by
  have held := passed.held oldDistinct newDistinct nonzero
  -- it is enough to see the entries, while old siblings are left
  have seen : ∀ pairs : List P, pairs.map tag = heldIn old new oldFront' newFront' →
      (next.newInsertedPairs.cleanVector false).Shows tag pairs (erasedIn old new oldFront').since →
      Shown old new tag next oldFront' newFront' := fun pairs pairsHeld shows =>
    ⟨fun _ => ⟨pairs, pairsHeld, shows⟩,
      passed'.strays oldDistinct newDistinct nonzero pairsHeld shows⟩
  cases step with
  | matched o n =>
    obtain ⟨rfl, rfl, kept, still⟩ := tells
    obtain ⟨pairs, pairsHeld, shows⟩ := shown.shows round.oldPairs
    refine seen pairs ?_ ?_
    · rw [heldIn, erasedIn_still still, filter_append, filter_cons_of_neg (by simpa using kept),
        filter_nil, append_nil]
      exact pairsHeld
    · rw [erasedIn_still still, show next.newInsertedPairs = _ from edits]
      exact shows
  | reordered o n i =>
    obtain ⟨rfl, rfl, same, moved, before⟩ := tells
    obtain ⟨index, at_, erases⟩ := edits
    obtain ⟨pairs, pairsHeld, shows⟩ := shown.shows round.oldPairs
    have inOld : tag o ∈ old := by simp [passed'.oldSplit]
    have erased := shows.erase_clean (pairsHeld ▸ held) at_ (fun zero => valid (zero ▸ inOld)) erases
    rw [pairsHeld, heldIn] at erased
    by_cases swept : Sweeps ((erasedIn old new oldFront).held
        (newFront'.filter fun tag => Inserted old new tag))
        ((erasedIn old new oldFront).since ++ [tag o])
    · refine seen (pairs.filter fun other =>
        tag other ∉ (erasedIn old new oldFront).since ++ [tag o]) ?_ ?_
      · have rest : (pairs.filter fun other =>
            tag other ∉ (erasedIn old new oldFront).since ++ [tag o]).map tag =
            (pairs.map tag).filter fun other =>
              other ∉ (erasedIn old new oldFront).since ++ [tag o] := by
          rw [List.filter_map]
          rfl
        rw [rest, pairsHeld, heldIn, heldIn, erasedIn_moved moved, before, Erasures.erase,
          if_pos swept, Erasures.held, Erasures.held, filter_filter]
        refine filter_congr fun other _ => ?_
        rw [← Bool.decide_and]
        exact decide_eq_decide.mpr (by simp only [mem_append, not_or]; tauto)
      · rw [erasedIn_moved moved, before, Erasures.erase, if_pos swept]
        exact (if_pos swept).mp erased
    · refine seen pairs ?_ ?_
      · rw [pairsHeld, heldIn, heldIn, erasedIn_moved moved, before, Erasures.erase, if_neg swept]
        rfl
      · rw [erasedIn_moved moved, before, Erasures.erase, if_neg swept]
        exact (if_neg swept).mp erased
  | removed o i =>
    obtain ⟨rfl, rfl, still⟩ := tells
    obtain ⟨pairs, pairsHeld, shows⟩ := shown.shows round.oldPairs
    refine seen pairs ?_ ?_
    · rw [heldIn, erasedIn_still still]
      exact pairsHeld
    · rw [erasedIn_still still, show next.newInsertedPairs = _ from edits, TinyMap.cleanVector_idem]
      exact shows
  | inserted n j =>
    obtain ⟨rfl, rfl, inserted⟩ := tells
    rw [Walk.Edits] at edits
    split at edits
    next none =>
      refine ⟨fun more => absurd ?_ more, ?_⟩
      · have same : next.oldPairs = walk.oldPairs := round.oldPairs
        rw [same, none]
      · rw [TinyMap.strays_insert wf edits]
        exact shown.strays
    next more =>
      obtain ⟨pairs, pairsHeld, shows⟩ := shown.shows more
      have apart : tag n ∉ newFront := by
        have distinct := newDistinct
        rw [passed'.newSplit] at distinct
        exact fun member =>
          (nodup_append.mp (nodup_append.mp distinct).1).2.2 _ member (tag n) (by simp) rfl
      have notSwept : tag n ∉ (erasedIn old new oldFront').swept := by
        intro member
        have erased := swept_append_since old new (oldFront'.filter fun tag => MovedAhead old new tag)
        have inFront : tag n ∈ oldFront'.filter fun tag => MovedAhead old new tag := by
          rw [← erased]
          exact mem_append_left _ member
        obtain ⟨inOld, isMoved⟩ := mem_filter.mp inFront
        obtain ⟨other, -, -, ahead⟩ := of_decide_eq_true isMoved
        exact apart (passed.passed _ inOld (siblingsBefore_subset ahead))
      have grown : heldIn old new oldFront' (newFront ++ [tag n]) =
          heldIn old new oldFront' newFront ++ [tag n] := by
        rw [heldIn, filter_append, filter_cons_of_pos (by simpa using inserted), filter_nil,
          Erasures.held, filter_append, filter_cons_of_pos (by simpa using notSwept), filter_nil]
        rfl
      have fresh : tag n ∉ pairs.map tag := fun member =>
        apart (mem_filter.mp (mem_filter.mp (pairsHeld ▸ member)).1).1
      obtain ⟨shows', clean⟩ := shows.insert (pairsHeld ▸ held.subset) (TinyMap.cleanVector_idem _)
        fresh edits
      refine seen (pairs ++ [n]) ?_ ?_
      · rw [grown, map_append, pairsHeld]
        rfl
      · rw [clean]
        exact shows'

end

end Erased

/-! ### Strays -/

section Strays

variable {old new : List Tag}

theorem not_movedAhead_of_front {front oldRest newRest : List Tag} {tag : Tag}
    (member : tag ∈ front) : ¬MovedAhead (front ++ oldRest) (front ++ newRest) tag := by
  rintro ⟨other, before, -, ahead⟩
  rw [siblingsBefore_append member] at before
  have otherMem := siblingsBefore_subset before
  rw [siblingsBefore_append otherMem] at ahead
  exact not_mem_siblingsBefore otherMem ahead before

theorem mem_of_mem_movedTags {tag : Tag} (member : tag ∈ movedTags old new) :
    tag ∈ old ∧ tag ∈ new := by
  obtain ⟨inOld, moved⟩ := mem_filter.mp member
  obtain ⟨_, -, -, ahead⟩ := of_decide_eq_true moved
  exact ⟨inOld, siblingsBefore_subset ahead⟩

theorem mem_movedTags_of_mem_strayMoves {tag : Tag} (member : tag ∈ strayMoves old new) :
    tag ∈ movedTags old new := by
  rw [strayMoves, Erasures.strays] at member
  split at member
  · rw [← swept_append_since old new (movedTags old new)]
    exact mem_append_right _ member
  · cases member

theorem strayMoves_of_none (none : movedTags old new = []) : strayMoves old new = [] := by
  rw [strayMoves, none]
  simp [Erasures.strays, erasuresOf]

/-- Nothing moves where all siblings that both lists have stand at their common front. -/
theorem strayMoves_of_front {front oldRest newRest : List Tag}
    (apart : ∀ tag ∈ oldRest, tag ∉ front ++ newRest) :
    strayMoves (front ++ oldRest) (front ++ newRest) = [] := by
  refine strayMoves_of_none (eq_nil_iff_forall_not_mem.mpr fun tag member => ?_)
  obtain ⟨inOld, inNew⟩ := mem_of_mem_movedTags member
  rcases mem_append.mp inOld with inFront | later
  · exact not_movedAhead_of_front inFront (of_decide_eq_true (mem_filter.mp member).2)
  · exact apart tag later inNew

theorem strayMatched_strayMoves : KeyedTree.StrayMatched strayMoves where
  matched := fun _ _ _ member => mem_of_mem_movedTags (mem_movedTags_of_mem_strayMoves member)
  refl := fun siblings => by
    simpa using @strayMoves_of_front siblings [] [] (by simp)

variable {P : Type} {tag : P → Tag} {walk : Walk P} {pending allOld allNew : List P}
  {oldFront newFront : List Tag}

theorem Shown.finished (shown : Shown old new tag walk oldFront newFront)
    (passed : Passed old new ((walk.position pending).map tag) oldFront newFront)
    (none : walk.oldPairs = []) :
    walk.newInsertedPairs.strays.map tag = strayMoves old new := by
  have whole : old = oldFront := by
    have split := passed.oldSplit
    rwa [show ((walk.position pending).map tag).oldPairs = [] from congrArg (List.map tag) none,
      append_nil] at split
  rw [shown.strays, ← whole]
  rfl

/-- The walk starts behind a first part that both lists share. -/
theorem Passed.start {front oldRest newRest : List Tag} (oldSplit : old = front ++ oldRest)
    (newSplit : new = front ++ newRest) (index : ℕ) :
    Passed old new ⟨index, index, oldRest, newRest, []⟩ front front := by
  have still : ∀ tag ∈ front, ¬Inserted old new tag := fun tag member inserted => by
    rcases inserted with absent | moved
    · exact absent (oldSplit ▸ mem_append_left _ member)
    · rw [oldSplit, newSplit] at moved
      exact not_movedAhead_of_front member moved
  exact ⟨oldSplit, newSplit, fun _ member _ => member, by simp, by simp,
    fun tag member inserted => absurd inserted (still tag member)⟩

theorem Shown.start {front oldRest newRest : List Tag} (oldSplit : old = front ++ oldRest)
    (newSplit : new = front ++ newRest) (empty : walk.newInsertedPairs = {}) :
    Shown old new tag walk front front := by
  have still : ∀ tag ∈ front, ¬MovedAhead old new tag := fun tag member => by
    rw [oldSplit, newSplit]
    exact not_movedAhead_of_front member
  have kept : ∀ tag ∈ front, ¬Inserted old new tag := fun tag member inserted =>
    inserted.elim (fun absent => absent (oldSplit ▸ mem_append_left _ member)) (still tag member)
  have nothing : erasedIn old new front = {} := by
    rw [erasedIn, filter_eq_nil_iff.mpr fun tag member => by simpa using still tag member]
    rfl
  have noneHeld : heldIn old new front front = [] := by
    rw [heldIn, filter_eq_nil_iff.mpr fun tag member => by simpa using kept tag member]
    rfl
  have blank : ({} : TinyMap P).cleanVector false = {} := if_pos (.inr (.inl rfl))
  refine ⟨fun _ => ⟨[], noneHeld.symm, ?_⟩, ?_⟩
  · rw [nothing, empty, blank]
    exact ⟨rfl, rfl, le_rfl, by simp, fun _ => rfl⟩
  · rw [nothing, empty]
    simp [Erasures.strays, TinyMap.strays]

section

variable (oldDistinct : old.Nodup) (newDistinct : new.Nodup) (validOld : 0 ∉ old)
  (validNew : 0 ∉ new)
include oldDistinct newDistinct validOld validNew

/-- **Strays.** An iteration over the inserted pairs of a walk sees the stray moves. -/
theorem run_strays (rounds : ℕ) (inv : walk.Inv tag allOld allNew pending)
    (passed : Passed old new ((walk.position pending).map tag) oldFront newFront)
    (shown : Shown old new tag walk oldFront newFront)
    (enough : walk.oldPairs.length + walk.newPairs.length ≤ rounds) {steps : List (WalkStep P)}
    {map : TinyMap P} (ran : Walk.run tag rounds walk = some (steps, map)) :
    map.strays.map tag = strayMoves old new := by
  induction rounds generalizing walk pending oldFront newFront steps with
  | zero =>
    have oldEmpty := eq_nil_of_length_eq_zero (Nat.eq_zero_of_add_eq_zero_right (Nat.le_zero.mp enough))
    have newEmpty := eq_nil_of_length_eq_zero (Nat.eq_zero_of_add_eq_zero_left (Nat.le_zero.mp enough))
    rw [Walk.run, if_pos ⟨oldEmpty, newEmpty⟩] at ran
    cases ran
    exact shown.finished passed oldEmpty
  | succ rounds ih =>
    by_cases done : walk.oldPairs = [] ∧ walk.newPairs = []
    · rw [Walk.run, if_pos done] at ran
      cases ran
      exact shown.finished passed done.1
    · obtain ⟨step, next, left, stepEq, round, edits, nextInv⟩ := Walk.step_advances inv done
      obtain ⟨oldFront', newFront', passed', tells⟩ :=
        passed.round oldDistinct newDistinct round.map
      have shown' := shown.round oldDistinct newDistinct validNew passed validOld inv.insertedWf
        round edits passed' tells
      have shorter := round.shortens
      simp only [Walk.position] at shorter
      rw [Walk.run, if_neg done, stepEq] at ran
      simp only [Option.bind_eq_bind, Option.bind_some, Option.bind_eq_some_iff, Option.pure_def,
        Option.some.injEq, Prod.mk.injEq] at ran
      obtain ⟨⟨later, _⟩, laterEq, -, rfl⟩ := ran
      exact ih nextInv passed' shown' (by omega) laterEq

end

/-! ### Compared siblings -/

section Compared

variable {oldPairs newPairs : List P}

theorem take_lastIndex : ∀ oldPairs newPairs : List P,
    (oldPairs.take (lastIndexAfterFirstStage tag oldPairs newPairs)).map tag =
      (newPairs.take (lastIndexAfterFirstStage tag oldPairs newPairs)).map tag
  | [], _ => by simp [lastIndexAfterFirstStage]
  | _ :: _, [] => by simp [lastIndexAfterFirstStage]
  | o :: oldRest, n :: newRest => by
    simp only [lastIndexAfterFirstStage]
    split
    · rfl
    · next same =>
      rw [not_not] at same
      rw [take_succ_cons, take_succ_cons, map_cons, map_cons, same, take_lastIndex oldRest newRest]

theorem map_tags_split (pairs : List P) (index : ℕ) :
    pairs.map tag = (pairs.take index).map tag ++ (pairs.drop index).map tag := by
  rw [← map_append, take_append_drop]

theorem strayMoves_of_ends (oldDistinct : (oldPairs.map tag).Nodup)
    (ends : lastIndexAfterFirstStage tag oldPairs newPairs = newPairs.length ∨
      lastIndexAfterFirstStage tag oldPairs newPairs = oldPairs.length) :
    strayMoves (oldPairs.map tag) (newPairs.map tag) = [] := by
  let index := lastIndexAfterFirstStage tag oldPairs newPairs
  have front : (oldPairs.take index).map tag = (newPairs.take index).map tag := take_lastIndex _ _
  rw [map_tags_split oldPairs index] at oldDistinct ⊢
  rw [map_tags_split newPairs index, front]
  rw [front] at oldDistinct
  refine strayMoves_of_front fun tag later member => ?_
  rcases ends with all | all
  · rw [drop_eq_nil_of_le all.ge, map_nil, append_nil] at member
    exact (nodup_append.mp oldDistinct).2.2 tag member tag later rfl
  · rw [drop_eq_nil_of_le all.ge] at later
    cases later

/-- The walk behind the common front leaves the stray moves in its map. -/
theorem siblings_strays (oldDistinct : (oldPairs.map tag).Nodup)
    (newDistinct : (newPairs.map tag).Nodup) (validOld : 0 ∉ oldPairs.map tag)
    (validNew : 0 ∉ newPairs.map tag) {steps : List (WalkStep P)} {map : TinyMap P} :
    let index := lastIndexAfterFirstStage tag oldPairs newPairs
    Walk.siblings tag index (oldPairs.drop index) (newPairs.drop index) = some (steps, map) →
      map.strays.map tag = strayMoves (oldPairs.map tag) (newPairs.map tag) := by
  intro index walked
  have oldSub := (drop_sublist index oldPairs).map tag
  have newSub := (drop_sublist index newPairs).map tag
  have front : (oldPairs.take index).map tag = (newPairs.take index).map tag := take_lastIndex _ _
  have oldSplit := @map_tags_split _ tag oldPairs index
  rw [front] at oldSplit
  have newSplit := @map_tags_split _ tag newPairs index
  obtain ⟨remaining, filled, inv⟩ := Walk.exists_start index (oldDistinct.sublist oldSub)
    (newDistinct.sublist newSub) (fun zero => validOld (oldSub.subset zero))
    (fun zero => validNew (newSub.subset zero))
  rw [Walk.siblings, filled] at walked
  exact run_strays oldDistinct newDistinct validOld validNew _ inv (.start oldSplit newSplit index)
    (.start oldSplit newSplit rfl) le_rfl walked

end Compared

end Strays

end ReactNative
