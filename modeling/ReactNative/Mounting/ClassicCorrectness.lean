import ReactNative.Mounting.DifferentiatorLevels

/-! After the first difference the classic mode inserts every new child, removes every old one, and
uses the map of inserted pairs to tell which of the removed views come back. -/
namespace ReactNative

open List

variable {D : Type}

section Stages

variable [DecidableEq D] (fresh : List (ShadowViewNodePair D))

def stageThreeVisits (oldChildPair : ShadowViewNodePair D) : List (Visit D) :=
  match fresh.find? fun pair => pairTag pair = pairTag oldChildPair with
  | none => [.dropped oldChildPair]
  | some newChildPair =>
    if newChildPair.same oldChildPair then []
    else [.matched newChildPair.shadowView oldChildPair newChildPair]

theorem stageThreeVisits_tag {fresh : List (ShadowViewNodePair D)} (o : ShadowViewNodePair D) :
    ((stageThreeVisits fresh o).map fun visit => visit.parent.tag).Sublist [pairTag o] := by
  unfold stageThreeVisits
  split
  next => exact List.Sublist.refl _
  next n search =>
    have hit : pairTag n = pairTag o := by simpa using find?_some search
    split
    · exact nil_sublist _
    · simpa [Visit.parent, pairTag] using hit

variable {recursion : Recursion D} (parentShadowView : ShadowView D)

omit [DecidableEq D] in
/-- One old pair: the map tells whether it is inserted again, and forgets it. -/
theorem stageThree_step {fresh : List (ShadowViewNodePair D)}
    (distinct : (fresh.map pairTag).Nodup) (o : ShadowViewNodePair D) {passed : List Tag}
    (unpassed : pairTag o ∉ passed) (valid : pairTag o ≠ 0)
    {map : TinyMap (ShadowViewNodePair D)} (wf : map.WellFormed)
    (live : map.live = entries pairTag (fresh.filter fun pair => pairTag pair ∉ passed)) :
    ∃ found, found.WellFormed ∧ ((fresh.find? (fun pair => pairTag pair = pairTag o) = none ∧
          map.findEntry (pairTag o) = some (found, none) ∧
          found.live =
            entries pairTag (fresh.filter fun pair => pairTag pair ∉ passed ++ [pairTag o])) ∨
        ∃ index n erased, fresh.find? (fun pair => pairTag pair = pairTag o) = some n ∧
          map.findEntry (pairTag o) = some (found, some (some index, n)) ∧
          found.erase (some index) = some erased ∧ erased.WellFormed ∧
          erased.live =
            entries pairTag (fresh.filter fun pair => pairTag pair ∉ passed ++ [pairTag o])) := by
  -- Passing this pair leaves the new pairs with other tags.
  have shrink : (entries pairTag (fresh.filter fun pair => pairTag pair ∉ passed)).filter
      (fun entry => entry.1 ≠ pairTag o) =
      entries pairTag (fresh.filter fun pair => pairTag pair ∉ passed ++ [pairTag o]) := by
    rw [entries_filter pairTag _ fun tag => tag ≠ pairTag o, filter_filter]
    refine congrArg _ (filter_congr fun pair _ => ?_)
    simp [and_comm]
  obtain ⟨found, foundWf, sameLive, -, ⟨absent, lookup⟩ | ⟨index, n, lookup, position⟩⟩ :=
    wf.findEntry_spec valid
  -- The map does not hold the tag: no new pair has it, and nothing is forgotten.
  · have missing : pairTag o ∉ fresh.map pairTag := by
      intro member
      obtain ⟨n, newMem, same⟩ := mem_map.mp member
      refine absent (mem_map.mpr ⟨(pairTag o, n), ?_, rfl⟩)
      rw [live]
      exact (mem_entries pairTag).mpr
        ⟨mem_filter.mpr ⟨newMem, by simpa [same] using unpassed⟩, same⟩
    refine ⟨found, foundWf, .inl ⟨?_, lookup, ?_⟩⟩
    · refine find?_eq_none.mpr fun pair member hit => missing ?_
      rw [← of_decide_eq_true hit]
      exact mem_map_of_mem member
    · rw [sameLive, live, ← shrink]
      refine (filter_eq_self.mpr ?_).symm
      rintro ⟨key, value⟩ member
      obtain ⟨inside, sameKey⟩ := (mem_entries pairTag).mp member
      refine decide_eq_true fun equal => missing ?_
      rw [← equal, ← sameKey]
      exact mem_map_of_mem (mem_filter.mp inside).1
  · obtain ⟨inLive, -⟩ := foundWf.live_of_index position valid
    rw [sameLive, live] at inLive
    obtain ⟨inside, sameKey⟩ := (mem_entries pairTag).mp inLive
    obtain ⟨erased, eraseEq, erasedWf, erasedLive, -⟩ := foundWf.erase_spec position valid
    refine ⟨found, foundWf, .inr ⟨index, n, erased,
      find_unique distinct (mem_filter.mp inside).1 sameKey, lookup, eraseEq, erasedWf, ?_⟩⟩
    rw [erasedLive, sameLive, live, shrink]

theorem collectDeletesAndRemoves_renders {fresh : List (ShadowViewNodePair D)}
    (distinct : (fresh.map pairTag).Nodup) (old : List (ShadowViewNodePair D)) (index : Nat)
    (passed : List Tag) (map : TinyMap (ShadowViewNodePair D)) (wf : map.WellFormed)
    (live : map.live = entries pairTag (fresh.filter fun pair => pairTag pair ∉ passed))
    (valid : 0 ∉ old.map pairTag) (unpassed : (passed ++ old.map pairTag).Nodup)
    (returns : ∀ visit ∈ old.flatMap (stageThreeVisits fresh), visit.Returns recursion) :
    ∃ lists rest, collectDeletesAndRemoves recursion parentShadowView (old.zipIdx index) map =
        some (lists, rest) ∧
      Outcome.Renders recursion parentShadowView.tag lists
        { visits := old.flatMap (stageThreeVisits fresh), removed := old.zipIdx index } ∧
      rest.WellFormed ∧ rest.live = entries pairTag
        (fresh.filter fun pair => pairTag pair ∉ passed ++ old.map pairTag) := by
  -- Induction over the old pairs; the map holds the new pairs whose tags were not passed.
  induction old generalizing index passed map with
  | nil => exact ⟨{}, map, rfl, Outcome.Renders.empty, wf, by simpa using live⟩
  | cons o rest ih =>
    simp only [map_cons, mem_cons, not_or] at valid
    have here : pairTag o ∉ passed := fun member =>
      (nodup_append.mp unpassed).2.2 _ member _ (by simp) rfl
    have head := @removeMutation_renders D _ recursion parentShadowView o index
    have later := fun map wf live => ih (index + 1) (passed ++ [pairTag o]) map wf live valid.2
      (by simpa using unpassed) fun visit member => returns visit
        (by rw [flatMap_cons]; exact mem_append_right _ member)
    obtain ⟨found, foundWf, ⟨search, lookup, foundLive⟩ |
        ⟨_, n, erased, search, lookup, eraseEq, erasedWf, erasedLive⟩⟩ :=
      stageThree_step distinct o here (Ne.symm valid.1) wf live
    -- A dropped view is removed, and its children are deleted below.
    · have visits : stageThreeVisits fresh o = [.dropped o] := by simp [stageThreeVisits, search]
      obtain ⟨below, belowEq, belowRenders⟩ := deleteGrandChildren_renders parentShadowView.tag
        (returns (.dropped o) (by simp [visits]))
      obtain ⟨lists, final, restEq, restRenders, finalWf, finalLive⟩ :=
        later found foundWf foundLive
      refine ⟨_, final, ?_, ((head.append belowRenders).append restRenders).congr ?_ ?_ ?_ ?_,
        finalWf, by simpa using finalLive⟩
      · rw [pairTag] at lookup
        simp [collectDeletesAndRemoves, lookup, belowEq, restEq]
      all_goals simp [visits, zipIdx_cons]
    · obtain ⟨lists, final, restEq, restRenders, finalWf, finalLive⟩ :=
        later erased erasedWf erasedLive
      by_cases same : n.same o
      -- The same node is removed only: it is inserted again as it is.
      · have visits : stageThreeVisits fresh o = [] := by simp [stageThreeVisits, search, same]
        refine ⟨_, final, ?_, (head.append restRenders).congr ?_ ?_ ?_ ?_, finalWf,
          by simpa using finalLive⟩
        · rw [pairTag] at lookup
          simp [collectDeletesAndRemoves, lookup, same, eraseEq, restEq]
          rfl
        all_goals simp [visits, zipIdx_cons]
      -- A changed one is removed too, and its children are compared.
      · have visits : stageThreeVisits fresh o = [.matched n.shadowView o n] := by
          simp [stageThreeVisits, search, same]
        obtain ⟨below, belowEq, belowRenders⟩ := updateGrandChildren_renders n.shadowView
          parentShadowView.tag (returns (.matched n.shadowView o n) (by simp [visits]))
        refine ⟨_, final, ?_, ((head.append belowRenders).append restRenders).congr ?_ ?_ ?_ ?_,
          finalWf, by simpa using finalLive⟩
        · rw [pairTag] at lookup
          simp [collectDeletesAndRemoves, lookup, same, belowEq, eraseEq, restEq]
        all_goals simp [visits, zipIdx_cons]

theorem collectCreates_renders {left : List (ShadowViewNodePair D)} (parentTag : Tag)
    (fresh : List (ShadowViewNodePair D)) (map : TinyMap (ShadowViewNodePair D))
    (wf : map.WellFormed) (live : map.live = entries pairTag left) (valid : 0 ∉ fresh.map pairTag)
    (returns : ∀ visit ∈ (fresh.filter fun pair => pairTag pair ∈ left.map pairTag).map
      Visit.created, visit.Returns recursion) :
    ∃ lists, collectCreates recursion fresh map = some lists ∧
      Outcome.Renders recursion parentTag lists
        { visits := (fresh.filter fun pair => pairTag pair ∈ left.map pairTag).map .created } := by
  -- Induction over the new pairs: those still in the map are new views.
  induction fresh generalizing map with
  | nil => exact ⟨{}, rfl, Outcome.Renders.empty⟩
  | cons n _ ih =>
    simp only [map_cons, mem_cons, not_or] at valid
    have keys : map.keys = left.map pairTag := by rw [TinyMap.keys, live, entries_keys]
    obtain ⟨found, foundWf, sameLive, -, ⟨absent, lookup⟩ | ⟨_, _, lookup, position⟩⟩ :=
      wf.findEntry_spec (Ne.symm valid.1)
    · rw [keys] at absent
      obtain ⟨lists, restEq, renders⟩ := ih found foundWf (sameLive.trans live) valid.2
        fun visit member => returns visit
          (by rw [filter_cons_of_neg (by simpa using absent)]; exact member)
      refine ⟨lists, ?_, ?_⟩
      · rw [pairTag] at lookup
        simp [collectCreates, lookup, restEq]
      · rw [filter_cons_of_neg (by simpa using absent)]
        exact renders
    · have present : pairTag n ∈ left.map pairTag := by
        rw [← keys, TinyMap.keys, ← sameLive]
        exact mem_map_of_mem (foundWf.live_of_index position (Ne.symm valid.1)).1
      rw [filter_cons_of_pos (by simpa using present), map_cons] at returns ⊢
      obtain ⟨here, hereEq, hereRenders⟩ :=
        createWithGrandChildren_renders parentTag (returns (.created n) (by simp))
      obtain ⟨lists, restEq, renders⟩ := ih found foundWf (sameLive.trans live) valid.2
        fun visit member => returns visit (mem_cons_of_mem _ member)
      refine ⟨here ++ lists, ?_, hereRenders.append renders⟩
      rw [pairTag] at lookup
      simp [collectCreates, lookup, hereEq, restEq]

def classicRestOutcome (index : Nat) (old fresh : List (ShadowViewNodePair D)) : Outcome D where
  visits := old.flatMap (stageThreeVisits fresh) ++
    (fresh.filter fun pair => pairTag pair ∉ old.map pairTag).map .created
  removed := old.zipIdx index
  inserted := fresh.zipIdx index

theorem mem_stageThreeVisits {fresh : List (ShadowViewNodePair D)} {o : ShadowViewNodePair D}
    {visit : Visit D} (member : visit ∈ stageThreeVisits fresh o) :
    (visit = .dropped o ∧ pairTag o ∉ fresh.map pairTag) ∨
      ∃ n ∈ fresh, pairTag n = pairTag o ∧ visit = .matched n.shadowView o n := by
  unfold stageThreeVisits at member
  split at member
  next search =>
    rw [mem_singleton] at member
    refine .inl ⟨member, fun inside => ?_⟩
    obtain ⟨n, newMem, same⟩ := mem_map.mp inside
    simpa [same] using find?_eq_none.mp search n newMem
  next n search =>
    split at member
    · simp at member
    · rw [mem_singleton] at member
      exact .inr ⟨n, mem_of_find?_eq_some search, by simpa using find?_some search, member⟩

theorem classicRest_covers (index : Nat) {old fresh : List (ShadowViewNodePair D)}
    (distinctOld : (old.map pairTag).Nodup) (distinctNew : (fresh.map pairTag).Nodup) :
    (classicRestOutcome index old fresh).Covers [] index old fresh := by
  have stageThreeTags : ((old.flatMap (stageThreeVisits fresh)).map
      fun visit => visit.parent.tag).Sublist (old.map pairTag) := by
    clear distinctOld
    induction old with
    | nil => exact List.Sublist.refl _
    | cons o _ ih =>
      rw [flatMap_cons, map_append, map_cons, ← singleton_append]
      exact (stageThreeVisits_tag o).append ih
  have createdTags : ((fresh.filter fun pair => pairTag pair ∉ old.map pairTag).map
      Visit.created).map (fun visit => visit.parent.tag) =
      (fresh.filter fun pair => pairTag pair ∉ old.map pairTag).map pairTag := by
    simp [Visit.parent, pairTag, Function.comp_def]
  -- Of the twelve clauses those about the updates in place hold for want of any.
  refine ⟨?_, ?_, ?_, ?_, ?_, ?_, ?_, ?_, ?_, ?_, ?_, ?_⟩
  · simp [classicRestOutcome]
  · simp [classicRestOutcome]
  · simp [classicRestOutcome]
  · simp [classicRestOutcome]
  · simp [classicRestOutcome]
  · simp [classicRestOutcome]
  · intro parent o n member
    rcases mem_append.mp member with stageThree | stageFour
    · obtain ⟨o', oldMem, inside⟩ := mem_flatMap.mp stageThree
      obtain ⟨differ, -⟩ | ⟨n', newMem, same, equal⟩ := mem_stageThreeVisits inside
      · cases differ
      · cases equal
        exact ⟨oldMem, newMem, same.symm, rfl⟩
    · simp at stageFour
  · intro o
    rw [classicRestOutcome, mem_append]
    constructor
    · rintro (stageThree | stageFour)
      · obtain ⟨o', oldMem, inside⟩ := mem_flatMap.mp stageThree
        obtain ⟨equal, gone⟩ | ⟨n', -, -, differ⟩ := mem_stageThreeVisits inside
        · cases equal
          exact ⟨oldMem, gone⟩
        · cases differ
      · simp at stageFour
    · rintro ⟨oldMem, gone⟩
      refine .inl (mem_flatMap.mpr ⟨o, oldMem, ?_⟩)
      have search : fresh.find? (fun pair => pairTag pair = pairTag o) = none :=
        find?_eq_none.mpr fun pair member hit =>
          gone (of_decide_eq_true hit ▸ mem_map_of_mem member)
      simp [stageThreeVisits, search]
  · intro n
    rw [classicRestOutcome, mem_append]
    constructor
    · rintro (stageThree | stageFour)
      · obtain ⟨o', oldMem, inside⟩ := mem_flatMap.mp stageThree
        obtain ⟨differ, -⟩ | ⟨n', -, -, differ⟩ := mem_stageThreeVisits inside
        · cases differ
        · cases differ
      · obtain ⟨n', newMem, equal⟩ := mem_map.mp stageFour
        cases equal
        obtain ⟨inside, absent⟩ := mem_filter.mp newMem
        exact ⟨inside, .inl (of_decide_eq_true absent)⟩
    · rintro ⟨newMem, absent | strayed⟩
      · exact .inr (mem_map_of_mem (mem_filter.mpr ⟨newMem, decide_eq_true absent⟩))
      · simp at strayed
  · intro o oldMem n newMem same
    have search := find_unique distinctNew newMem same.symm
    by_cases pointer : n.same o
    · exact .inl (of_decide_eq_true pointer).symm
    · refine .inr ⟨n.shadowView, mem_append_left _ (mem_flatMap.mpr ⟨o, oldMem, ?_⟩)⟩
      simp [stageThreeVisits, search, pointer]
  -- No old pair is visited twice, as each has one visit at most.
  · refine List.Nodup.sublist ?_ distinctOld
    have noCreated : ((fresh.filter fun pair => pairTag pair ∉ old.map pairTag).map
        Visit.created).filter (fun visit => !visit.isCreated) = [] := by
      refine filter_eq_nil_iff.mpr fun visit member => ?_
      obtain ⟨n, -, rfl⟩ := mem_map.mp member
      simp [Visit.isCreated]
    rw [classicRestOutcome, filter_append, noCreated, append_nil]
    exact (filter_sublist.map _).trans stageThreeTags
  · intro _
    rw [classicRestOutcome, map_append, createdTags, nodup_append]
    refine ⟨distinctOld.sublist stageThreeTags,
      distinctNew.sublist (filter_sublist.map pairTag), ?_⟩
    intro tag inOld other inNew same
    obtain ⟨n, newMem, rfl⟩ := mem_map.mp inNew
    exact of_decide_eq_true (mem_filter.mp newMem).2 (same ▸ stageThreeTags.subset inOld)

end Stages

/-! ### The level and the recursion -/

variable [DecidableEq D]

def classicOutcome (old new : List (ShadowViewNodePair D)) : Outcome D :=
  let index := lastIndexAfterFirstStage pairTag old new
  stageOneOutcome old new ++ classicRestOutcome index (old.drop index) (new.drop index)

theorem classicLevel_renders {recursion : Recursion D} (parentShadowView : ShadowView D)
    {old new : List (ShadowViewNodePair D)}
    (distinctOld : (old.map pairTag).Nodup) (distinctNew : (new.map pairTag).Nodup)
    (validOld : 0 ∉ old.map pairTag) (validNew : 0 ∉ new.map pairTag)
    (returns : ∀ visit ∈ (classicOutcome old new).visits, visit.Returns recursion) :
    ∃ mutations, classicLevel recursion parentShadowView old new = some mutations ∧
      Renders mutations (((classicOutcome old new).plan recursion).edits ShadowView.tag
        parentShadowView.tag) := by
  let index := lastIndexAfterFirstStage pairTag old new
  have oldSub := (drop_sublist index old).map pairTag
  have newSub := (drop_sublist index new).map pairTag
  have restVisits : ∀ visit ∈ (classicRestOutcome index (old.drop index) (new.drop index)).visits,
      visit.Returns recursion := fun visit member => returns visit (mem_append_right _ member)
  obtain ⟨_, updatesEq, updatesRender⟩ := collectUpdates_renders parentShadowView 0 old new
    fun visit member => returns visit (mem_append_left _ member)
  obtain ⟨inserted, insertEq, insertedWf, insertedLive⟩ := insertAll_spec pairTag (new.drop index)
    {} TinyMap.wellFormed_empty (fun zero => validNew (newSub.subset zero))
    (by simpa [TinyMap.keys, TinyMap.live] using distinctNew.sublist newSub)
  obtain ⟨_, left, removesEq, removesRender, leftWf, leftLive⟩ :=
    collectDeletesAndRemoves_renders parentShadowView (distinctNew.sublist newSub)
      (old.drop index) index [] inserted insertedWf (by simpa [TinyMap.live] using insertedLive)
      (fun zero => validOld (oldSub.subset zero)) (by simpa using distinctOld.sublist oldSub)
      (fun visit member => restVisits visit (mem_append_left _ member))
  -- The pairs left in the map are the new ones that no old pair has taken out.
  have leftTags : ∀ pair ∈ new.drop index,
      (pairTag pair ∈ ((new.drop index).filter fun pair => pairTag pair ∉
        [] ++ (old.drop index).map pairTag).map pairTag ↔
        pairTag pair ∉ (old.drop index).map pairTag) := by
    intro pair member
    constructor
    · intro inside
      obtain ⟨_, otherMem, same⟩ := mem_map.mp inside
      exact same ▸ of_decide_eq_true (mem_filter.mp otherMem).2
    · intro absent
      exact mem_map_of_mem (mem_filter.mpr ⟨member, decide_eq_true absent⟩)
  have createdEq : ((new.drop index).filter fun pair => pairTag pair ∈
      ((new.drop index).filter fun pair => pairTag pair ∉
        [] ++ (old.drop index).map pairTag).map pairTag) =
      (new.drop index).filter fun pair => pairTag pair ∉ (old.drop index).map pairTag :=
    filter_congr fun pair member => decide_eq_decide.mpr (leftTags pair member)
  obtain ⟨_, createsEq, createsRender⟩ := collectCreates_renders parentShadowView.tag
    (new.drop index) left leftWf leftLive (fun zero => validNew (newSub.subset zero))
    (by rw [createdEq]; exact fun visit member => restVisits visit (mem_append_right _ member))
  rw [createdEq] at createsRender
  have inserts := @insertMutations_renders D _ recursion parentShadowView
    ((new.drop index).zipIdx index)
  refine ⟨_, ?_, Outcome.Renders.inOptimalOrder ((((updatesRender.append inserts).append
    removesRender).append createsRender).congr ?_ ?_ ?_ ?_)⟩
  · simp [classicLevel, updatesEq, insertEq, removesEq, createsEq, collectInserts, index]
  all_goals simp [classicOutcome, classicRestOutcome, index]

/-- **The classic differentiator returns a diff** of the two view forests. -/
theorem classic_answers (fuel : Nat) (parentShadowView : ShadowView D)
    (old new : List (ShadowViewNodePair D))
    (diffable : Diffable fuel parentShadowView.tag (sliceForest old) (sliceForest new)) :
    Answers (fun _ _ => []) (calculateShadowViewMutationsClassic fuel) parentShadowView old new := by
  induction fuel generalizing parentShadowView old new with
  | zero => exact absurd diffable.heightOld (Nat.not_lt_zero _)
  | succ fuel ih =>
    by_cases empty : old.length = 0 ∧ new.length = 0
    · refine ⟨[], by rw [calculateShadowViewMutationsClassic, if_pos empty], by simp, ?_⟩
      rw [eq_nil_of_length_eq_zero empty.1, eq_nil_of_length_eq_zero empty.2]
      exact .empty _
    · obtain ⟨distinctOld, nonzeroOld⟩ := diffable.validOld.siblings
      obtain ⟨distinctNew, nonzeroNew⟩ := diffable.validNew.siblings
      have covers := covers_level distinctOld distinctNew
        (classicRest_covers _ (distinctOld.sublist ((drop_sublist _ _).map pairTag))
          (distinctNew.sublist ((drop_sublist _ _).map pairTag))) (by simp)
      have answers := fun (visit : Visit D) member => ih visit.parent visit.oldSlice visit.newSlice
        (covers.visit_diffable diffable member)
      obtain ⟨mutations, calculated, proper, edits⟩ := classicLevel_renders parentShadowView
        distinctOld distinctNew nonzeroOld nonzeroNew
        fun visit member => (answers visit member).returns
      refine ⟨mutations, by rw [calculateShadowViewMutationsClassic, if_neg empty]; exact calculated,
        proper, ?_⟩
      rw [edits]
      exact level_diff parentShadowView.tag covers answers

end ReactNative


