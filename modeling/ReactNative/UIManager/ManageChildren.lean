import ReactNative.Foundation.PlacedEntries
import ReactNative.UIManager.FlattenedHierarchy

/-! `UIImplementation.manageChildren` gets moves, additions and removals in five arrays. Indices to
take children from are those before the call, and indices to put children at those after it. -/
namespace ReactNative

open LinkedForest PlacedEntries HiddenEntries List Function

/-- An array that is null is an empty one. -/
structure ManageChildrenArrays where
  moveFrom : List ℕ := []
  moveTo : List ℕ := []
  addChildTags : List Tag := []
  addAtIndices : List ℕ := []
  removeFrom : List ℕ := []

/-- `noYogaNode` is about a virtual child of a node that is laid out. `brokenHierarchy` stands for
links that no sequence of calls makes: the loop over the nodes above does not end, or the optimizer
misses a node. -/
inductive ManageChildrenException where
  | illegalViewOperation (message : String)
  | indexOutOfBounds (index : ℕ)
  | illegalState (message : String)
  | noYogaNode (child node : Tag)
  | brokenHierarchy

namespace ManageChildrenArrays

variable (arrays : ManageChildrenArrays)

def sources : List ℕ := arrays.moveFrom ++ arrays.removeFrom

def targets : List ℕ := arrays.moveTo ++ arrays.addAtIndices

def getChildAt (children : List Tag) (index : ℕ) : Except ManageChildrenException Tag :=
  match children[index]? with
  | none => .error (.indexOutOfBounds index)
  | some child => .ok child

/-- The merged and sorted arrays. Moves are an addition and a removal. -/
def changes (children : List Tag) : Except ManageChildrenException ManageShadowChildren :=
  let numToMove := arrays.moveFrom.length
  let numToAdd := arrays.addChildTags.length
  if numToMove ≠ 0 ∧ numToMove ≠ arrays.moveTo.length then
    .error (.illegalViewOperation "Size of moveFrom != size of moveTo!")
  else if numToAdd ≠ 0 ∧ numToAdd ≠ arrays.addAtIndices.length then
    .error (.illegalViewOperation "Size of addChildTags != size of addAtIndices!")
  else
    match arrays.moveFrom.mapM (getChildAt children) with
    | .error exception => .error exception
    | .ok tagsToMove =>
      match arrays.removeFrom.mapM (getChildAt children) with
      | .error exception => .error exception
      | .ok tagsToDelete =>
        let viewsToAdd := zipWith ViewAtIndex.mk tagsToMove arrays.moveTo ++
          zipWith ViewAtIndex.mk arrays.addChildTags arrays.addAtIndices
        .ok {
          indicesToRemove := sortBy id (arrays.moveFrom ++ arrays.removeFrom)
          tagsToRemove := tagsToMove ++ tagsToDelete
          viewsToAdd := sortBy ViewAtIndex.index viewsToAdd
          tagsToDelete := tagsToDelete }

end ManageChildrenArrays

namespace UIImplementation

def unknownViewTag (tag : Tag) : ManageChildrenException :=
  .illegalViewOperation ("Trying to add unknown view tag: " ++ toString tag)

def childAlreadyHasParent : ManageChildrenException :=
  .illegalState "Child already has a parent, it must be removed first."

/-- The Yoga nodes that manage children have those of the shadow tree. -/
def yogaRefusal (shadow : ShadowTree) (node child : Tag) : Option ManageChildrenException :=
  if !shadow.managesYogaChildren node then none
  else if (shadow.nodeClass child).isVirtual then some (.noYogaNode child node)
  else if (shadow.parent child).any shadow.managesYogaChildren then some childAlreadyHasParent
  else none

def removeHighToLow (viewTag : Tag) :
    List ℕ → Option ℕ → ShadowTree → Except ManageChildrenException ShadowTree
  | [], _, shadow => .ok shadow
  | indexToRemove :: rest, lastIndexRemoved, shadow =>
    if lastIndexRemoved = some indexToRemove then
      .error (.illegalViewOperation
        ("Repeated indices in Removal list for view tag: " ++ toString viewTag))
    else if (shadow.children viewTag).length ≤ indexToRemove then
      .error (.indexOutOfBounds indexToRemove)
    else
      match shadow.removeChildAt viewTag indexToRemove with
      | none => .error .brokenHierarchy
      | some removed => removeHighToLow viewTag rest (some indexToRemove) removed

def addLowToHigh (viewTag : Tag) :
    List ViewAtIndex → ShadowTree → Except ManageChildrenException ShadowTree
  | [], shadow => .ok shadow
  | viewAtIndex :: rest, shadow =>
    if viewAtIndex.tag ∉ shadow.registry then .error (unknownViewTag viewAtIndex.tag)
    else if (shadow.children viewTag).length < viewAtIndex.index then
      .error (.indexOutOfBounds viewAtIndex.index)
    else
      match yogaRefusal shadow viewTag viewAtIndex.tag with
      | some exception => .error exception
      | none =>
        match shadow.addChildAt viewTag viewAtIndex.tag viewAtIndex.index with
        | none => .error .brokenHierarchy
        | some added => addLowToHigh viewTag rest added

def manageChildrenArrays (ui : UIImplementation) (viewTag : Tag) (arrays : ManageChildrenArrays) :
    Except ManageChildrenException UIImplementation :=
  match arrays.changes (ui.shadow.children viewTag) with
  | .error exception => .error exception
  | .ok call =>
    match removeHighToLow viewTag call.indicesToRemove.reverse none ui.shadow with
    | .error exception => .error exception
    | .ok removed =>
      match addLowToHigh viewTag call.viewsToAdd removed with
      | .error exception => .error exception
      | .ok added =>
        match Optimizer.handleManageChildren added viewTag call.tagsToRemove call.viewsToAdd
            call.tagsToDelete ui.native with
        | none => .error .brokenHierarchy
        | some native => .ok ⟨call.tagsToDelete.foldl ShadowTree.removeShadowNode added, native⟩

end UIImplementation

namespace ManageChildrenArrays

variable (arrays : ManageChildrenArrays)

/-- The arrays match in length, no index is taken twice and none is out of range, for a node with
so many children before the call. -/
structure Fits (count : ℕ) : Prop where
  moves : arrays.moveFrom.length = arrays.moveTo.length
  adds : arrays.addChildTags.length = arrays.addAtIndices.length
  sources_nodup : arrays.sources.Nodup
  sources_inRange : ∀ index ∈ arrays.sources, index < count
  targets_nodup : arrays.targets.Nodup
  targets_inRange : ∀ index ∈ arrays.targets,
    index < count - arrays.sources.length + arrays.targets.length

/-- What the arrays say of the children before and after the call. -/
structure Places (children final : List Tag) : Prop where
  moved : ∀ move ∈ arrays.moveFrom.zip arrays.moveTo, final[move.2]? = children[move.1]?
  added : ∀ add ∈ arrays.addChildTags.zip arrays.addAtIndices, final[add.2]? = some add.1
  others : without (among arrays.targets) final = without (among arrays.sources) children
  dropped : final.Perm (without (among arrays.removeFrom) children ++ arrays.addChildTags)

/-! ### The merged arrays -/

section

variable {arrays : ManageChildrenArrays} {children : List Tag} {indices : List ℕ}

theorem mapM_getChildAt (inRange : ∀ index ∈ indices, index < children.length) :
    indices.mapM (getChildAt children) = .ok (entriesAt indices children) := by
  induction indices with
  | nil => rfl
  | cons index _ ih =>
    have found := getElem?_eq_getElem (inRange index mem_cons_self)
    rw [mapM_cons, ih fun other member => inRange other (mem_cons_of_mem index member)]
    simp [getChildAt, found, entriesAt, bind, Except.bind, pure, Except.pure]

theorem length_entriesAt (inRange : ∀ index ∈ indices, index < children.length) :
    (entriesAt indices children).length = indices.length := by
  induction indices with
  | nil => rfl
  | cons index _ ih =>
    have found := getElem?_eq_getElem (inRange index mem_cons_self)
    have length := ih fun other member => inRange other (mem_cons_of_mem index member)
    rw [entriesAt] at length
    simp [entriesAt, found, length]

def tagsToAdd (arrays : ManageChildrenArrays) (children : List Tag) : List Tag :=
  entriesAt arrays.moveFrom children ++ arrays.addChildTags

def viewsToPlace (arrays : ManageChildrenArrays) (children : List Tag) : List ViewAtIndex :=
  zipWith ViewAtIndex.mk (entriesAt arrays.moveFrom children) arrays.moveTo ++
    zipWith ViewAtIndex.mk arrays.addChildTags arrays.addAtIndices

theorem Fits.moveFrom_inRange (fits : arrays.Fits children.length) :
    ∀ index ∈ arrays.moveFrom, index < children.length :=
  fun index member => fits.sources_inRange index (mem_append_left _ member)

section

variable (fits : arrays.Fits children.length)
include fits

theorem Fits.removeFrom_inRange :
    ∀ index ∈ arrays.removeFrom, index < children.length :=
  fun index member => fits.sources_inRange index (mem_append_right _ member)

/-- The change that the call makes. -/
def merged (arrays : ManageChildrenArrays) (children : List Tag) : ManageShadowChildren where
  indicesToRemove := sortBy id arrays.sources
  tagsToRemove := entriesAt arrays.sources children
  viewsToAdd := sortBy ViewAtIndex.index (arrays.viewsToPlace children)
  tagsToDelete := entriesAt arrays.removeFrom children

theorem Fits.changes :
    arrays.changes children = .ok (arrays.merged children) := by
  rw [ManageChildrenArrays.changes, if_neg fun both => both.2 fits.moves,
    if_neg fun both => both.2 fits.adds, mapM_getChildAt fits.moveFrom_inRange,
    mapM_getChildAt fits.removeFrom_inRange]
  simp [merged, sources, viewsToPlace, entriesAt]

omit fits in
theorem map_zipWith {tags : List Tag} (length : tags.length = indices.length) :
    (zipWith ViewAtIndex.mk tags indices).map ViewAtIndex.index = indices ∧
      (zipWith ViewAtIndex.mk tags indices).map ViewAtIndex.tag = tags := by
  induction tags generalizing indices with
  | nil =>
    obtain rfl := eq_nil_of_length_eq_zero length.symm
    exact ⟨rfl, rfl⟩
  | cons tag _ ih =>
    cases indices with
    | nil => cases length
    | cons index =>
      obtain ⟨sameIndices, sameTags⟩ := ih (Nat.succ.inj length)
      simp [sameIndices, sameTags]

theorem Fits.length_moved :
    (entriesAt arrays.moveFrom children).length = arrays.moveTo.length :=
  (length_entriesAt fits.moveFrom_inRange).trans fits.moves

theorem Fits.map_viewsToPlace :
    (arrays.viewsToPlace children).map ViewAtIndex.index = arrays.targets ∧
      (arrays.viewsToPlace children).map ViewAtIndex.tag =
        entriesAt arrays.moveFrom children ++ arrays.addChildTags := by
  obtain ⟨movedTo, moved⟩ := map_zipWith fits.length_moved
  obtain ⟨addedAt, added⟩ := map_zipWith fits.adds
  rw [viewsToPlace, map_append, map_append, movedTo, moved, addedAt, added]
  exact ⟨rfl, rfl⟩

variable (views : List ViewAtIndex)

def places : List (ℕ × Tag) := views.map fun view => (view.index, view.tag)

omit fits in
theorem map_fst_places : (places views).map Prod.fst = views.map ViewAtIndex.index := by
  simp [places, comp_def]

omit fits in
theorem map_snd_places : (places views).map Prod.snd = views.map ViewAtIndex.tag := by
  simp [places, comp_def]

theorem Fits.sources_ascending :
    (sortBy id arrays.sources).Pairwise (· < ·) := by
  have nodup : (arrays.sources.map id).Nodup := by
    rw [map_id]
    exact fits.sources_nodup
  have ascending := sortBy_ascending id nodup
  rwa [map_id] at ascending

omit fits in
theorem Fits.views_perm (arrays : ManageChildrenArrays) (children : List Tag) :
    (arrays.merged children).viewsToAdd.Perm (arrays.viewsToPlace children) :=
  sortBy_perm ViewAtIndex.index _

theorem Fits.views_ascending :
    ((places (arrays.merged children).viewsToAdd).map Prod.fst).Pairwise (· < ·) := by
  rw [map_fst_places]
  apply sortBy_ascending
  rw [fits.map_viewsToPlace.1]
  exact fits.targets_nodup

theorem Fits.length_without :
    (without (among arrays.sources) children).length + arrays.sources.length = children.length := by
  have parts := (@without_perm _ (fun _ => false) _ _ fits.sources_nodup (fun _ _ => rfl)
    fits.sources_inRange).length_eq
  rw [without_of_none fun _ _ => rfl, length_append, length_entriesAt fits.sources_inRange] at parts
  change children.length = _ + (without (among arrays.sources) children).length at parts
  omega

theorem Fits.views_inRange :
    InRange (without (among arrays.sources) children).length
      (places (arrays.merged children).viewsToAdd) := by
  apply inRange_of_ascending fits.views_ascending
  intro place member
  obtain ⟨view, isView, rfl⟩ := mem_map.mp member
  have target : view.index ∈ arrays.targets := by
    rw [← fits.map_viewsToPlace.1]
    exact mem_map_of_mem ((Fits.views_perm arrays children).mem_iff.mp isView)
  have below := fits.targets_inRange view.index target
  have left := fits.length_without
  have count : (places (arrays.merged children).viewsToAdd).length = arrays.targets.length := by
    rw [places, length_map, (Fits.views_perm arrays children).length_eq,
      ← fits.map_viewsToPlace.1, length_map]
  omega

/-! ### The list of children -/

omit fits in
theorem mem_zipWith_of_mem_zip {tags : List Tag} {add : Tag × ℕ} (member : add ∈ tags.zip indices) :
    (⟨add.1, add.2⟩ : ViewAtIndex) ∈ zipWith ViewAtIndex.mk tags indices := by
  rw [← map_uncurry_zip_eq_zipWith]
  exact mem_map_of_mem member

omit fits in
theorem mem_zipWith_of_move {froms tos : List ℕ} {move : ℕ × ℕ} (member : move ∈ froms.zip tos)
    (inRange : ∀ index ∈ froms, index < children.length) :
    ∃ tag, children[move.1]? = some tag ∧ (⟨tag, move.2⟩ : ViewAtIndex) ∈
      zipWith ViewAtIndex.mk (entriesAt froms children) tos := by
  induction froms generalizing tos with
  | nil => cases member
  | cons first rest ih =>
    obtain ⟨tag, found⟩ : ∃ tag, children[first]? = some tag :=
      ⟨_, getElem?_eq_getElem (inRange first mem_cons_self)⟩
    have split : entriesAt (first :: rest) children = tag :: entriesAt rest children := by
      simp [entriesAt, found]
    cases tos with
    | nil => cases member
    | cons =>
      rw [zip_cons_cons, mem_cons] at member
      rw [split, zipWith_cons_cons]
      rcases member with rfl | later
      · exact ⟨tag, found, mem_cons_self⟩
      · obtain ⟨other, isOther, present⟩ := ih later fun index isLater =>
          inRange index (mem_cons_of_mem first isLater)
        exact ⟨other, isOther, mem_cons_of_mem _ present⟩

def placedChildren (arrays : ManageChildrenArrays) (children : List Tag) : List Tag :=
  insertAt (places (arrays.merged children).viewsToAdd) (without (among arrays.sources) children)

/-- **What the loops leave is what the arrays say.** -/
theorem Fits.places :
    arrays.Places children (arrays.placedChildren children) := by
  have placed : ∀ view ∈ arrays.viewsToPlace children,
      (arrays.placedChildren children)[view.index]? = some view.tag := by
    intro view member
    exact getElem_insertAt fits.views_ascending fits.views_inRange (view.index, view.tag)
      (mem_map_of_mem ((Fits.views_perm arrays children).mem_iff.mpr member))
  constructor
  · -- A moved child is in the arrays with the tag that was at its old index.
    intro move member
    obtain ⟨tag, found, isView⟩ := mem_zipWith_of_move member fits.moveFrom_inRange
    rw [found]
    exact placed _ (mem_append_left _ isView)
  · intro add member
    exact placed _ (mem_append_right _ (mem_zipWith_of_mem_zip member))
  · have left := without_insertAt fits.views_ascending fits.views_inRange
    rw [map_fst_places] at left
    rw [← left]
    apply without_congr
    apply among_congr
    intro index
    rw [← fits.map_viewsToPlace.1]
    exact ((Fits.views_perm arrays children).map _).mem_iff.symm
  · -- The moved children are dropped with the removed ones first, and come back.
    have nodup := nodup_append.mp fits.sources_nodup
    have back := @without_perm _ (among arrays.removeFrom) _ _ nodup.1 (by
      intro index member
      rw [among, decide_eq_false_iff_not]
      exact fun isRemoved => nodup.2.2 index member index isRemoved rfl) fits.moveFrom_inRange
    have sameGone : ∀ index, (among arrays.removeFrom index || among arrays.moveFrom index) =
        among arrays.sources index := by
      simp [among, sources, Bool.or_comm]
    rw [without_congr sameGone] at back
    have inserted := insertAt_perm fits.views_inRange
    rw [map_snd_places] at inserted
    have tags := (Fits.views_perm arrays children).map ViewAtIndex.tag
    rw [fits.map_viewsToPlace.2] at tags
    refine (inserted.trans (tags.append_right _)).trans ?_
    rw [append_assoc]
    refine (List.Perm.append_left _ perm_append_comm).trans ?_
    rw [← append_assoc]
    exact back.symm.append_right _

end

end

end ManageChildrenArrays

/-! ### The loops over the shadow tree -/

namespace ShadowTree

variable {delta : ℤ} {shadow after : ShadowTree}

/-- Counting changes nothing else. -/
theorem addToTotalsAbove_links {fuel : ℕ} {off : Option Tag}
    (done : addToTotalsAbove delta fuel off shadow = some after) :
    after = { shadow with totalNativeChildren := after.totalNativeChildren } := by
  induction fuel generalizing off shadow with
  | zero =>
    cases off with
    | none =>
      cases done
      rfl
    | some parent => cases done
  | succ fuel ih =>
    cases off with
    | none =>
      cases done
      rfl
    | some parent =>
      rw [addToTotalsAbove] at done
      split at done
      · cases done
        rfl
      · exact @ih (shadow.addToTotal parent delta) _ done

theorem countChild_links {node : Tag} (done : shadow.countChild node delta = some after) :
    after = { shadow with totalNativeChildren := after.totalNativeChildren } := by
  rw [countChild_eq] at done
  exact addToTotalsAbove_links done

theorem removeChildAt_links {node : Tag} {index : ℕ}
    (done : shadow.removeChildAt node index = some after) :
    ∃ removed, (shadow.children node)[index]? = some removed ∧
      after = { shadow with
        children := update shadow.children node ((shadow.children node).eraseIdx index)
        parent := update shadow.parent removed none
        totalNativeChildren := after.totalNativeChildren } := by
  unfold removeChildAt at done
  split at done
  · cases done
  next removed found => exact ⟨removed, found, countChild_links done⟩

theorem addChildAt_links {node child : Tag} {index : ℕ}
    (done : shadow.addChildAt node child index = some after) :
    after = { shadow with
      children := update shadow.children node ((shadow.children node).insertIdx index child)
      parent := update shadow.parent child (some node)
      totalNativeChildren := after.totalNativeChildren } := by
  unfold addChildAt at done
  split at done
  · cases done
  · exact countChild_links done

end ShadowTree

namespace UIImplementation

open ManageChildrenArrays

theorem inRange_places {count : ℕ} {views : List ViewAtIndex} :
    InRange count (places views) ↔ IndicesInRange count views := by
  induction views generalizing count with
  | nil => simp [places, InRange, IndicesInRange]
  | cons _ _ ih => rw [indicesInRange_cons, ← ih, places, map_cons, InRange, places]

/-- What the removals change, at indices before the call. -/
structure Removed (shadow removed : ShadowTree) (viewTag : Tag) (indices : List ℕ) : Prop where
  children : removed.children viewTag = indices.foldl eraseIdx (shadow.children viewTag)
  parent : ∀ tag, removed.parent tag =
    if tag ∈ entriesAt indices (shadow.children viewTag) then none else shadow.parent tag
  registry : removed.registry = shadow.registry
  nodeClass : removed.nodeClass = shadow.nodeClass

theorem Removed.cons {shadow middle removed : ShadowTree} {viewTag : Tag} {index : ℕ}
    {rest : List ℕ} (less : ∀ other ∈ rest, other < index)
    (taken : shadow.removeChildAt viewTag index = some middle)
    (later : Removed middle removed viewTag rest) :
    Removed shadow removed viewTag (index :: rest) := by
  obtain ⟨child, found, links⟩ := ShadowTree.removeChildAt_links taken
  have children : middle.children viewTag = (shadow.children viewTag).eraseIdx index := by
    rw [links]
    exact update_self _ _ _
  -- The entries at lower indices are still there.
  have entries : entriesAt rest (middle.children viewTag) =
      entriesAt rest (shadow.children viewTag) := by
    apply filterMap_congr
    intro other member
    rw [children, getElem?_eraseIdx_of_lt (less other member)]
  constructor
  · rw [later.children, children, foldl_cons]
  · intro tag
    have isFirst : entriesAt (index :: rest) (shadow.children viewTag) =
        child :: entriesAt rest (shadow.children viewTag) := filterMap_cons_some found
    rw [later.parent, entries, isFirst, links]
    by_cases same : tag = child
    · subst same
      simp
    · simp [same]
  · rw [later.registry, links]
  · rw [later.nodeClass, links]

theorem removeHighToLow_cases {viewTag : Tag} {indices : List ℕ} {last : Option ℕ}
    {shadow : ShadowTree} (descending : indices.Pairwise (· > ·))
    (inRange : ∀ index ∈ indices, index < (shadow.children viewTag).length)
    (below : ∀ index ∈ indices, last ≠ some index) :
    (∃ removed, removeHighToLow viewTag indices last shadow = .ok removed ∧
      indices.foldlM (fun shadow index => shadow.removeChildAt viewTag index) shadow = some removed ∧
      Removed shadow removed viewTag indices) ∨
    (removeHighToLow viewTag indices last shadow = .error .brokenHierarchy ∧
      indices.foldlM (fun shadow index => shadow.removeChildAt viewTag index) shadow = none) := by
  induction indices generalizing last shadow with
  | nil => exact .inl ⟨shadow, rfl, rfl, rfl, fun _ => rfl, rfl, rfl⟩
  | cons index rest ih =>
    obtain ⟨less, descendingRest⟩ := pairwise_cons.mp descending
    have here := inRange index mem_cons_self
    rw [removeHighToLow, if_neg (below index mem_cons_self), if_neg (Nat.not_le.mpr here)]
    cases taken : shadow.removeChildAt viewTag index with
    | none =>
      refine .inr ⟨rfl, ?_⟩
      rw [foldlM_cons, taken]
      rfl
    | some removed =>
      obtain ⟨child, -, links⟩ := ShadowTree.removeChildAt_links taken
      have children : removed.children viewTag = (shadow.children viewTag).eraseIdx index := by
        rw [links]
        exact update_self _ _ _
      have stillInRange : ∀ other ∈ rest, other < (removed.children viewTag).length := by
        intro other member
        have lower := less other member
        rw [children, length_eraseIdx_of_lt here]
        omega
      -- The next index is lower, and so not the one that was removed last.
      have others : ∀ other ∈ rest, some index ≠ some other := by
        intro other member same
        cases same
        exact absurd (less index member) (Nat.lt_irrefl index)
      rcases ih descendingRest stillInRange others with
        ⟨final, done, folded, left⟩ | ⟨broken, folded⟩
      · refine .inl ⟨final, done, ?_, left.cons less taken⟩
        rw [foldlM_cons, taken]
        exact folded
      · refine .inr ⟨broken, ?_⟩
        rw [foldlM_cons, taken]
        exact folded

/-- Why nodes are not added, some of which are taken out first. -/
inductive Refusal (shadow : ShadowTree) (node : Tag) (removed tags : List Tag) :
    ManageChildrenException → Prop
  | unknown {tag : Tag} (isAdded : tag ∈ tags) (notRegistered : tag ∉ shadow.registry) :
    Refusal shadow node removed tags (unknownViewTag tag)
  | noYogaNode {tag : Tag} (manages : shadow.managesYogaChildren node) (isAdded : tag ∈ tags)
    (isVirtual : (shadow.nodeClass tag).isVirtual) :
    Refusal shadow node removed tags (.noYogaNode tag node)
  | hasParent (manages : shadow.managesYogaChildren node)
    (attached : ¬ (tags.Nodup ∧ ∀ tag ∈ tags, shadow.parent tag = none ∨ tag ∈ removed)) :
    Refusal shadow node removed tags childAlreadyHasParent

variable {shadow : ShadowTree} {viewTag : Tag} {exception : ManageChildrenException}

theorem refusal_of_yoga {child : Tag} {rest : List Tag}
    (refused : yogaRefusal shadow viewTag child = some exception) :
    Refusal shadow viewTag [] (child :: rest) exception := by
  unfold yogaRefusal at refused
  split at refused
  · cases refused
  next managed =>
    have manages : shadow.managesYogaChildren viewTag := by simpa using managed
    split at refused
    next isVirtual =>
      cases refused
      exact .noYogaNode manages mem_cons_self isVirtual
    next =>
      split at refused
      next attached =>
        cases refused
        refine .hasParent manages ?_
        rintro ⟨-, detached⟩
        rcases detached child mem_cons_self with isNone | member
        · simp [isNone] at attached
        · exact not_mem_nil member
      next => cases refused

/-- Nodes that are refused after another one has been added are refused with it. -/
theorem Refusal.cons {added : ShadowTree} {child : Tag} {index : ℕ} {rest : List Tag}
    (put : shadow.addChildAt viewTag child index = some added)
    (refusal : Refusal added viewTag [] rest exception) :
    Refusal shadow viewTag [] (child :: rest) exception := by
  have links := ShadowTree.addChildAt_links put
  have nodeClass : added.nodeClass = shadow.nodeClass := by rw [links]
  have manages : added.managesYogaChildren viewTag = shadow.managesYogaChildren viewTag := by
    rw [ShadowTree.managesYogaChildren, ShadowTree.managesYogaChildren, nodeClass]
  cases refusal with
  | unknown isAdded notRegistered =>
    rw [links] at notRegistered
    exact .unknown (mem_cons_of_mem child isAdded) notRegistered
  | noYogaNode managed isAdded isVirtual =>
    exact .noYogaNode (manages ▸ managed) (mem_cons_of_mem child isAdded) (nodeClass ▸ isVirtual)
  | hasParent managed attached =>
    refine .hasParent (manages ▸ managed) ?_
    rintro ⟨nodup, detached⟩
    obtain ⟨notLater, nodupRest⟩ := nodup_cons.mp nodup
    refine attached ⟨nodupRest, fun tag member => ?_⟩
    have differs : tag ≠ child := fun same => notLater (same ▸ member)
    have parent : added.parent tag = shadow.parent tag := by
      rw [links]
      exact update_of_ne differs _ _
    rw [parent]
    exact detached tag (mem_cons_of_mem child member)

/-- Nodes that are refused after others have been removed. -/
theorem Refusal.before {removed : ShadowTree} {indices : List ℕ} {moved tags sorted : List Tag}
    (left : Removed shadow removed viewTag indices) (perm : sorted.Perm tags)
    (taken : ∀ tag ∈ moved, tag ∈ entriesAt indices (shadow.children viewTag))
    (refusal : Refusal removed viewTag [] sorted exception) :
    Refusal shadow viewTag moved tags exception := by
  have manages : removed.managesYogaChildren viewTag = shadow.managesYogaChildren viewTag := by
    rw [ShadowTree.managesYogaChildren, ShadowTree.managesYogaChildren, left.nodeClass]
  cases refusal with
  | unknown isAdded notRegistered =>
    exact .unknown (perm.mem_iff.mp isAdded) (left.registry ▸ notRegistered)
  | noYogaNode managed isAdded isVirtual =>
    exact .noYogaNode (manages ▸ managed) (perm.mem_iff.mp isAdded) (left.nodeClass ▸ isVirtual)
  | hasParent managed attached =>
    refine .hasParent (manages ▸ managed) ?_
    rintro ⟨nodup, detached⟩
    refine attached ⟨perm.nodup_iff.mpr nodup, fun tag member => .inl ?_⟩
    rw [left.parent]
    rcases detached tag (perm.mem_iff.mp member) with isNone | isMoved
    · simp [isNone]
    · exact if_pos (taken tag isMoved)

theorem addLowToHigh_cases {views : List ViewAtIndex}
    (inRange : InRange (shadow.children viewTag).length (places views)) :
    (∃ added, addLowToHigh viewTag views shadow = .ok added ∧
      views.foldlM (addRegisteredChild viewTag) shadow = some added ∧
      added.children viewTag = insertAt (places views) (shadow.children viewTag)) ∨
    (addLowToHigh viewTag views shadow = .error .brokenHierarchy ∧
      views.foldlM (addRegisteredChild viewTag) shadow = none) ∨
    ∃ exception, Refusal shadow viewTag [] (views.map ViewAtIndex.tag) exception ∧
      addLowToHigh viewTag views shadow = .error exception := by
  induction views generalizing shadow with
  | nil => exact .inl ⟨shadow, rfl, rfl, rfl⟩
  | cons view rest ih =>
    obtain ⟨here, later⟩ := inRange
    by_cases registered : view.tag ∈ shadow.registry
    · rw [addLowToHigh, if_neg (not_not.mpr registered), if_neg (Nat.not_lt.mpr here)]
      have first : (view :: rest).foldlM (addRegisteredChild viewTag) shadow =
          (shadow.addChildAt viewTag view.tag view.index).bind fun added =>
            rest.foldlM (addRegisteredChild viewTag) added := by
        rw [foldlM_cons, addRegisteredChild, if_neg (not_not.mpr registered)]
        rfl
      rw [first]
      cases refused : yogaRefusal shadow viewTag view.tag with
      | some exception => exact .inr (.inr ⟨exception, refusal_of_yoga refused, rfl⟩)
      | none =>
        cases put : shadow.addChildAt viewTag view.tag view.index with
        | none => exact .inr (.inl ⟨rfl, rfl⟩)
        | some added =>
          have children : added.children viewTag =
              (shadow.children viewTag).insertIdx view.index view.tag := by
            rw [ShadowTree.addChildAt_links put]
            exact update_self _ _ _
          -- There is room for one more now.
          have stillInRange : InRange (added.children viewTag).length (places rest) := by
            rw [children, length_insertIdx_of_le_length here]
            exact later
          rcases ih stillInRange with
            ⟨final, done, folded, placed⟩ | broken | ⟨exception, refusal, stops⟩
          · refine .inl ⟨final, done, folded, ?_⟩
            rw [placed, children]
            rfl
          · exact .inr (.inl broken)
          · exact .inr (.inr ⟨exception, refusal.cons put, stops⟩)
    · refine .inr (.inr ⟨_, .unknown mem_cons_self registered, ?_⟩)
      rw [addLowToHigh, if_pos registered]

variable {ui : UIImplementation} {arrays : ManageChildrenArrays}

theorem manageChildrenArrays_cases {viewTag : Tag}
    (fits : arrays.Fits (ui.shadow.children viewTag).length) :
    (∃ next, ui.manageChildrenArrays viewTag arrays = .ok next ∧
      ui.manageChildren viewTag (arrays.merged (ui.shadow.children viewTag)) = some next ∧
      next.shadow.children viewTag = arrays.placedChildren (ui.shadow.children viewTag)) ∨
    (ui.manageChildrenArrays viewTag arrays = .error .brokenHierarchy ∧
      ui.manageChildren viewTag (arrays.merged (ui.shadow.children viewTag)) = none) ∨
    ∃ exception, Refusal ui.shadow viewTag
        (entriesAt arrays.moveFrom (ui.shadow.children viewTag))
        (arrays.tagsToAdd (ui.shadow.children viewTag)) exception ∧
      ui.manageChildrenArrays viewTag arrays = .error exception := by
  have descending : (arrays.merged (ui.shadow.children viewTag)).indicesToRemove.reverse.Pairwise
      (· > ·) := pairwise_reverse.mpr fits.sources_ascending
  have sameIndices : ∀ index,
      index ∈ (arrays.merged (ui.shadow.children viewTag)).indicesToRemove.reverse ↔
        index ∈ arrays.sources := by
    intro index
    rw [mem_reverse]
    exact (sortBy_perm id arrays.sources).mem_iff
  -- Removing from high to low takes out what is at the indices before the call.
  have left := foldl_eraseIdx descending (ui.shadow.children viewTag)
  rw [without_congr (among_congr sameIndices)] at left
  rw [manageChildrenArrays, fits.changes, manageChildren]
  dsimp only
  rcases @removeHighToLow_cases viewTag _ none ui.shadow descending
      (fun index member => fits.sources_inRange index ((sameIndices index).mp member))
      (by simp) with
    ⟨removed, isRemoved, foldedRemoved, changed⟩ | ⟨broken, folded⟩
  · have children := changed.children
    rw [left] at children
    rw [isRemoved, foldedRemoved]
    dsimp only
    rcases addLowToHigh_cases (by rw [children]; exact fits.views_inRange) with
      ⟨added, isAdded, foldedAdded, placed⟩ | ⟨broken, folded⟩ | ⟨exception, refusal, stops⟩
    · simp only [isAdded, foldedAdded, Option.bind_eq_bind, Option.bind_some]
      cases handled : Optimizer.handleManageChildren added viewTag
          (arrays.merged (ui.shadow.children viewTag)).tagsToRemove
          (arrays.merged (ui.shadow.children viewTag)).viewsToAdd
          (arrays.merged (ui.shadow.children viewTag)).tagsToDelete ui.native with
      | none => exact .inr (.inl ⟨rfl, rfl⟩)
      | some native =>
        refine .inl ⟨_, rfl, rfl, ?_⟩
        obtain ⟨_, same, -⟩ := removeShadowNodes_eq added
          (arrays.merged (ui.shadow.children viewTag)).tagsToDelete
        rw [same, placedChildren, ← children, ← placed]
    · rw [broken, Option.bind_eq_bind, Option.bind_some, folded]
      exact .inr (.inl ⟨rfl, rfl⟩)
    · have tags := (Fits.views_perm arrays (ui.shadow.children viewTag)).map ViewAtIndex.tag
      rw [fits.map_viewsToPlace.2] at tags
      refine .inr (.inr ⟨exception, refusal.before changed tags ?_, by rw [stops]⟩)
      intro tag isMoved
      obtain ⟨index, isSource, found⟩ := mem_filterMap.mp isMoved
      exact mem_filterMap.mpr ⟨index, (sameIndices index).mpr (mem_append_left _ isSource), found⟩
  · rw [broken, folded]
    exact .inr (.inl ⟨rfl, rfl⟩)

/-- **The call succeeds between calls**, for tags that are registered and no child of another node,
and no node above; nodes that are laid out take none that are virtual. -/
theorem manageChildrenArrays_returns {F : Forest Tag} {viewTag : Tag} (sound : ui.Sound F)
    (registered : viewTag ∈ ui.shadow.registry)
    (fits : arrays.Fits (ui.shadow.children viewTag).length) (attaches : ui.shadow.Attaches viewTag
      (entriesAt arrays.moveFrom (ui.shadow.children viewTag))
      (arrays.tagsToAdd (ui.shadow.children viewTag)))
    (yogaNodes : ui.shadow.managesYogaChildren viewTag →
      ∀ tag ∈ arrays.tagsToAdd (ui.shadow.children viewTag),
        (ui.shadow.nodeClass tag).isVirtual = false) :
    ∃ next, ui.manageChildrenArrays viewTag arrays = .ok next := by
  have tags := (Fits.views_perm arrays (ui.shadow.children viewTag)).map ViewAtIndex.tag
  rw [fits.map_viewsToPlace.2] at tags
  have nodup : (ui.shadow.children viewTag).Nodup := by
    rw [sound.valid.children]
    exact F.nodup viewTag
  have isSplit : (arrays.merged (ui.shadow.children viewTag)).tagsToRemove =
      entriesAt arrays.moveFrom (ui.shadow.children viewTag) ++
        entriesAt arrays.removeFrom (ui.shadow.children viewTag) :=
    filterMap_append
  have sorted : (entriesAt (sortBy id arrays.sources) (ui.shadow.children viewTag)).Perm
      (arrays.merged (ui.shadow.children viewTag)).tagsToRemove :=
    (sortBy_perm id arrays.sources).filterMap _
  have nodupRemoved : (arrays.merged (ui.shadow.children viewTag)).tagsToRemove.Nodup :=
    sorted.nodup_iff.mp (entriesAt_nodup nodup fits.sources_ascending)
  -- Sorting changes the order only, of what is removed and of what is added.
  have attachesMerged : ui.shadow.Attaches viewTag
      (arrays.merged (ui.shadow.children viewTag)).tagsToRemove
      ((arrays.merged (ui.shadow.children viewTag)).viewsToAdd.map ViewAtIndex.tag) := by
    constructor
    · exact fun tag member => attaches.registered tag (tags.mem_iff.mp member)
    · intro tag member
      refine (attaches.detached tag (tags.mem_iff.mp member)).imp_right fun isMoved => ?_
      rw [isSplit]
      exact mem_append_left _ isMoved
    · exact fun tag member => attaches.apart tag (tags.mem_iff.mp member)
    · exact tags.nodup_iff.mpr attaches.nodup
  have describes : (arrays.merged (ui.shadow.children viewTag)).Describes
      (ui.shadow.children viewTag) := by
    constructor
    · exact fits.sources_ascending
    · intro index member
      exact fits.sources_inRange index ((sortBy_perm id _).mem_iff.mp member)
    · exact sorted.symm
    · have ascending := fits.views_ascending
      rwa [map_fst_places, pairwise_map] at ascending
    · have kept := filter_entriesAt nodup arrays.sources
      have inRange := inRange_places.mp fits.views_inRange
      rw [← kept] at inRange
      exact inRange
    · intro tag isDeleted
      have isRemoved : tag ∈ (arrays.merged (ui.shadow.children viewTag)).tagsToRemove := by
        rw [isSplit]
        exact mem_append_right _ isDeleted
      refine ⟨isRemoved, fun isAdded => ?_⟩
      -- It has a parent, so that it is not added unless it is moved.
      have isChild : ui.shadow.parent tag = some viewTag := by
        rw [sound.valid.parent, ← sound.valid.children]
        exact mem_of_mem_entriesAt isDeleted
      rcases attaches.detached tag (tags.mem_iff.mp isAdded) with detached | isMoved
      · rw [isChild] at detached
        cases detached
      · exact (nodup_append.mp (isSplit ▸ nodupRemoved)).2.2 tag isMoved tag isDeleted rfl
  obtain ⟨next, -, done, -⟩ := manageChildren_sound sound registered describes attachesMerged
  rcases manageChildrenArrays_cases fits with
    ⟨other, same, -⟩ | ⟨-, broken⟩ | ⟨exception, refusal, -⟩
  · exact ⟨other, same⟩
  · rw [done] at broken
    cases broken
  · cases refusal with
    | unknown isAdded notRegistered => exact absurd (attaches.registered _ isAdded) notRegistered
    | noYogaNode manages isAdded isVirtual =>
      rw [yogaNodes manages _ isAdded] at isVirtual
      cases isVirtual
    | hasParent manages attached => exact absurd ⟨attaches.nodup, attaches.detached⟩ attached

def threeViews : UIImplementation where
  shadow :=
    { (initial {1}).shadow with
      children := Function.update (fun _ => []) 1 [5, 6, 7]
      parent := fun tag => if tag ∈ ([5, 6, 7] : List Tag) then some 1 else none
      totalNativeChildren := Function.update (fun _ => 0) 1 3
      registry := {1, 5, 6, 7, 8}
      tags := {1, 5, 6, 7, 8} }
  native :=
    { nativeChildren := Function.update (fun _ => []) 1 [5, 6, 7]
      nativeParent := fun tag => if tag ∈ ([5, 6, 7] : List Tag) then some 1 else none }

def rearranged : ManageChildrenArrays where
  moveFrom := [0]
  moveTo := [2]
  addChildTags := [8]
  addAtIndices := [0]
  removeFrom := [1]

theorem hosts_of_notView (hoistNativeChildren : Bool) : false = true → hoistNativeChildren = false :=
  nofun

def rawText : ShadowNodeClass where
  isVirtual := true
  hosts_of_view := hosts_of_notView false

def rawTextAndView : UIImplementation where
  shadow := (initial {1}).shadow.addNode 5 rawText

end UIImplementation

end ReactNative

