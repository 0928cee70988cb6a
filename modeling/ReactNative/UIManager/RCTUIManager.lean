import ReactNative.UIManager.ManageChildren

/-! `RCTUIManager` keeps two registries, of shadow views and of views, and makes the same changes to
both: to the shadow views when a call arrives, and to the views when its UI block runs. -/
namespace ReactNative

open PlacedEntries HiddenEntries ManageChildrenArrays List

/-- The components of a registry are their tags. A component that has left it keeps its list. Of
the shadow views, those of images can have no subviews. -/
structure RCTRegistry where
  registered : Finset Tag := ∅
  reactSubviews : Tag → List Tag := fun _ => []
  canHaveSubviews : Tag → Bool := fun _ => true

namespace RCTRegistry

/-- No children if there are no indices or no subviews; otherwise a missing child is fatal. -/
def childrenToRemoveFromContainer (subviews : List Tag) (atIndices : List ℕ) : Option (List Tag) :=
  if atIndices = [] ∨ subviews = [] then some []
  else
    let removedChildren := entriesAt atIndices subviews
    if removedChildren.length ≠ atIndices.length then none else some removedChildren

variable (registry : RCTRegistry)

def removeReactSubview (container subview : Tag) : RCTRegistry :=
  { registry with
    reactSubviews := Function.update registry.reactSubviews container
      ((registry.reactSubviews container).filter fun other => other ≠ subview) }

/-- With an animation the views leave the list just so; it is their superview that they stay in
until the animation ends. -/
def removeChildren (children : List Tag) (container : Tag) (registry : RCTRegistry) : RCTRegistry :=
  children.foldl (fun registry child => registry.removeReactSubview container child) registry

/-- An index beyond the end raises an exception. -/
def insertReactSubview (container subview : Tag) (index : ℕ) : Option RCTRegistry :=
  if registry.canHaveSubviews container = false ∨
      (registry.reactSubviews container).length < index then none
  else some { registry with
    reactSubviews := Function.update registry.reactSubviews container
      ((registry.reactSubviews container).insertIdx index subview) }

/-- The components that are visited from one, down to a depth. -/
def traverse (reactSubviews : Tag → List Tag) : ℕ → Tag → List Tag
  | 0, _ => []
  | depth + 1, view => view :: (reactSubviews view).flatMap (traverse reactSubviews depth)

/-- A child that is not in the registry is not visited. -/
def purgeChildren (depth : ℕ) (children : List Tag) (registry : RCTRegistry) : RCTRegistry :=
  children.foldl (fun registry child =>
    if child ∉ registry.registered then registry
    else { registry with
      registered := registry.registered \ (traverse registry.reactSubviews depth child).toFinset })
    registry

/-- A dictionary keeps one entry for a key, the last one. -/
def setObject (destinations : List (ℕ × Tag)) (index : ℕ) (view : Tag) : List (ℕ × Tag) :=
  destinations.filter (fun destination => destination.1 ≠ index) ++ [(index, view)]

def destinationsToChildrenToAdd (temporarilyRemovedChildren : List Tag)
    (arrays : ManageChildrenArrays) : List (ℕ × Tag) :=
  let moves := (arrays.moveTo.zip temporarilyRemovedChildren).foldl
    (fun destinations move => setObject destinations move.1 move.2) []
  (arrays.addAtIndices.zip arrays.addChildTags).foldl
    (fun destinations add =>
      if add.2 ∈ registry.registered then setObject destinations add.1 add.2 else destinations) moves

/-- `_manageChildren`, with the assertions of a build for development. Messages to a container that
is missing do nothing. The depth bounds the tree below the children. -/
def manageChildren (depth : ℕ) (containerTag : Tag) (arrays : ManageChildrenArrays)
    (registry : RCTRegistry) : Option RCTRegistry :=
  if arrays.moveFrom.length ≠ arrays.moveTo.length ∨
      arrays.addChildTags.length ≠ arrays.addAtIndices.length then none
  else if containerTag ∉ registry.registered then some registry
  else
    match childrenToRemoveFromContainer (registry.reactSubviews containerTag) arrays.removeFrom,
        childrenToRemoveFromContainer (registry.reactSubviews containerTag) arrays.moveFrom with
    | some permanentlyRemovedChildren, some temporarilyRemovedChildren =>
      let purged := purgeChildren depth permanentlyRemovedChildren
        (removeChildren temporarilyRemovedChildren containerTag
          (removeChildren permanentlyRemovedChildren containerTag registry))
      (sortBy Prod.fst
        (purged.destinationsToChildrenToAdd temporarilyRemovedChildren arrays)).foldlM
        (fun registry destination =>
          registry.insertReactSubview containerTag destination.2 destination.1) purged
    | _, _ => none

def setChildren (containerTag : Tag) (reactTags : List Tag) (registry : RCTRegistry) :
    Option RCTRegistry :=
  if containerTag ∉ registry.registered then some registry
  else
    ((reactTags.filter (· ∈ registry.registered)).zipIdx.map Prod.swap).foldlM
      (fun registry place => registry.insertReactSubview containerTag place.2 place.1) registry

def createView (reactTag : Tag) (registry : RCTRegistry) : RCTRegistry :=
  { registry with
    registered := insert reactTag registry.registered
    reactSubviews := Function.update registry.reactSubviews reactTag [] }

/-! ### One call -/

variable {registry : RCTRegistry} {container : Tag} {arrays : ManageChildrenArrays}

def withSubviews (registry : RCTRegistry) (container : Tag) (subviews : List Tag) : RCTRegistry :=
  { registry with reactSubviews := Function.update registry.reactSubviews container subviews }

@[simp] theorem withSubviews_self (registry : RCTRegistry) (container : Tag) (subviews : List Tag) :
    (registry.withSubviews container subviews).reactSubviews container = subviews :=
  Function.update_self _ _ _

theorem withSubviews_of_ne {other : Tag} (registry : RCTRegistry) (differs : other ≠ container)
    (subviews : List Tag) :
    (registry.withSubviews container subviews).reactSubviews other = registry.reactSubviews other :=
  Function.update_of_ne differs _ _

@[simp] theorem withSubviews_withSubviews (registry : RCTRegistry) (container : Tag)
    (first second : List Tag) : (registry.withSubviews container first).withSubviews container second =
      registry.withSubviews container second := by
  simp [withSubviews]

@[simp] theorem withSubviews_same (registry : RCTRegistry) (container : Tag) :
    registry.withSubviews container (registry.reactSubviews container) = registry := by
  simp [withSubviews]

theorem childrenToRemoveFromContainer_eq {subviews : List Tag} {atIndices : List ℕ}
    (inRange : ∀ index ∈ atIndices, index < subviews.length) :
    childrenToRemoveFromContainer subviews atIndices = some (entriesAt atIndices subviews) := by
  unfold childrenToRemoveFromContainer
  split
  next nothing =>
    rcases nothing with rfl | rfl
    · rfl
    · cases atIndices with
      | nil => rfl
      | cons index => exact absurd (inRange index mem_cons_self) (Nat.not_lt_zero index)
  next => exact if_neg (not_not.mpr (length_entriesAt inRange))

theorem removeChildren_eq (children : List Tag) (container : Tag) (registry : RCTRegistry) :
    removeChildren children container registry = registry.withSubviews container
        ((registry.reactSubviews container).filter fun other => other ∉ children) := by
  induction children generalizing registry with
  | nil => simp [removeChildren]
  | cons child _ ih =>
    have first : registry.removeReactSubview container child = registry.withSubviews container
          ((registry.reactSubviews container).filter fun other => other ≠ child) := rfl
    rw [removeChildren, foldl_cons, ← removeChildren, ih, first]
    simp only [withSubviews_self, withSubviews_withSubviews, filter_filter]
    congr 1
    apply filter_congr
    intro other _
    by_cases same : other = child <;> simp [same]

theorem traverse_subset {before after : Tag → List Tag} (fewer : ∀ view, after view ⊆ before view)
    (depth : ℕ) (view : Tag) : traverse after depth view ⊆ traverse before depth view := by
  induction depth generalizing view with
  | zero => exact List.Subset.refl _
  | succ depth ih =>
    intro other member
    rw [traverse, mem_cons, mem_flatMap] at member ⊢
    rcases member with rfl | ⟨subview, isSubview, below⟩
    · exact .inl rfl
    · exact .inr ⟨subview, fewer view isSubview, ih subview below⟩

theorem purgeChildren_reactSubviews (depth : ℕ) (children : List Tag) (registry : RCTRegistry) :
    (purgeChildren depth children registry).reactSubviews = registry.reactSubviews ∧
      (purgeChildren depth children registry).canHaveSubviews = registry.canHaveSubviews := by
  induction children generalizing registry with
  | nil => exact ⟨rfl, rfl⟩
  | cons child _ ih =>
    rw [purgeChildren, foldl_cons, ← purgeChildren]
    obtain ⟨subviews, canHave⟩ := ih (if child ∉ registry.registered then registry
      else { registry with
        registered := registry.registered \ (traverse registry.reactSubviews depth child).toFinset })
    rw [subviews, canHave]
    split <;> exact ⟨rfl, rfl⟩

theorem mem_purgeChildren {depth : ℕ} {children : List Tag} {tag : Tag}
    (registered : tag ∈ registry.registered)
    (apart : ∀ child ∈ children, tag ∉ traverse registry.reactSubviews depth child) :
    tag ∈ (purgeChildren depth children registry).registered := by
  induction children generalizing registry with
  | nil => exact registered
  | cons child _ ih =>
    rw [purgeChildren, foldl_cons, ← purgeChildren]
    have apartRest := fun other member => apart other (mem_cons_of_mem child member)
    split
    · exact ih registered apartRest
    · refine ih ?_ apartRest
      rw [Finset.mem_sdiff, mem_toFinset]
      exact ⟨registered, apart child mem_cons_self⟩

theorem foldl_setObject {entries start : List (ℕ × Tag)} (nodup : (entries.map Prod.fst).Nodup)
    (new : ∀ entry ∈ entries, entry.1 ∉ start.map Prod.fst) :
    entries.foldl (fun destinations entry => setObject destinations entry.1 entry.2) start =
      start ++ entries := by
  induction entries generalizing start with
  | nil => simp
  | cons entry _ ih =>
    rw [map_cons, nodup_cons] at nodup
    have isNew := new entry mem_cons_self
    have set : setObject start entry.1 entry.2 = start ++ [entry] := by
      rw [setObject, filter_eq_self.mpr]
      intro destination member
      rw [decide_eq_true_iff]
      rintro same
      exact isNew (same ▸ mem_map_of_mem member)
    rw [foldl_cons, set, ih nodup.2, append_assoc, singleton_append]
    intro other member
    rw [map_append, mem_append, map_singleton, mem_singleton, not_or]
    refine ⟨new other (mem_cons_of_mem entry member), ?_⟩
    intro same
    exact nodup.1 (same ▸ mem_map_of_mem member)

theorem places_zipWith (tags : List Tag) (indices : List ℕ) :
    places (zipWith ViewAtIndex.mk tags indices) = indices.zip tags := by
  induction tags generalizing indices with
  | nil => simp [places]
  | cons _ _ ih =>
    cases indices with
    | nil => rfl
    | cons _ others =>
      have inner := ih others
      rw [places] at inner ⊢
      rw [zipWith_cons_cons, map_cons, inner, zip_cons_cons]

theorem destinationsToChildrenToAdd_eq {children : List Tag} (fits : arrays.Fits children.length)
    (registered : ∀ tag ∈ arrays.addChildTags, tag ∈ registry.registered) :
    registry.destinationsToChildrenToAdd (entriesAt arrays.moveFrom children) arrays =
      places (arrays.viewsToPlace children) := by
  have keys := fits.targets_nodup
  have movesKeys : (arrays.moveTo.zip (entriesAt arrays.moveFrom children)).map
      Prod.fst = arrays.moveTo := map_fst_zip fits.length_moved.ge
  have addsKeys : (arrays.addAtIndices.zip arrays.addChildTags).map Prod.fst =
      arrays.addAtIndices := map_fst_zip fits.adds.ge
  obtain ⟨nodupMoves, nodupAdds, apart⟩ := nodup_append.mp keys
  have adds : (arrays.addAtIndices.zip arrays.addChildTags).foldl (fun destinations add =>
        if add.2 ∈ registry.registered then setObject destinations add.1 add.2 else destinations)
      (arrays.moveTo.zip (entriesAt arrays.moveFrom children)) =
      (arrays.addAtIndices.zip arrays.addChildTags).foldl (fun destinations add =>
        setObject destinations add.1 add.2)
      (arrays.moveTo.zip (entriesAt arrays.moveFrom children)) := by
    apply foldl_ext
    intro destinations add member
    rw [if_pos (registered add.2 (of_mem_zip member).2)]
  -- The keys are the targets, which are distinct.
  rw [destinationsToChildrenToAdd, foldl_setObject (movesKeys.symm ▸ nodupMoves) (by simp),
    nil_append, adds, foldl_setObject (addsKeys.symm ▸ nodupAdds)]
  · rw [viewsToPlace, places, map_append, ← places, ← places, places_zipWith, places_zipWith]
  · intro add member isMove
    rw [movesKeys] at isMove
    exact apart add.1 isMove add.1 (of_mem_zip member).1 rfl

theorem sortBy_places (views : List ViewAtIndex) : sortBy Prod.fst (places views) =
      places (sortBy ViewAtIndex.index views) :=
  (map_insertionSort _ _ (fun view : ViewAtIndex => (view.index, view.tag)) views
    fun _ _ _ _ => Iff.rfl).symm

theorem foldlM_insertReactSubview {placed : List (ℕ × Tag)} {registry : RCTRegistry}
    (canHaveSubviews : registry.canHaveSubviews container = true)
    (inRange : InRange (registry.reactSubviews container).length placed) :
    placed.foldlM (fun registry destination =>
        registry.insertReactSubview container destination.2 destination.1) registry =
      some (registry.withSubviews container
        (insertAt placed (registry.reactSubviews container))) := by
  induction placed generalizing registry with
  | nil => simp [insertAt]
  | cons place _ ih =>
    obtain ⟨here, later⟩ := inRange
    have first : registry.insertReactSubview container place.2 place.1 =
        some (registry.withSubviews container
          ((registry.reactSubviews container).insertIdx place.1 place.2)) :=
      if_neg (not_or.mpr ⟨by simp [canHaveSubviews], Nat.not_lt.mpr here⟩)
    rw [foldlM_cons, first, Option.bind_eq_bind, Option.bind_some, ih]
    · simp only [withSubviews_self, withSubviews_withSubviews]
      rfl
    · exact canHaveSubviews
    · rw [withSubviews_self, length_insertIdx_of_le_length here]
      exact later

theorem removeChildren_both (registry : RCTRegistry) (container : Tag)
    (nodup : (registry.reactSubviews container).Nodup) (arrays : ManageChildrenArrays) :
    removeChildren (entriesAt arrays.moveFrom (registry.reactSubviews container))
      container
      (removeChildren (entriesAt arrays.removeFrom (registry.reactSubviews container))
        container registry) =
      registry.withSubviews container
        (without (among arrays.sources) (registry.reactSubviews container)) := by
  have split : entriesAt arrays.sources (registry.reactSubviews container) =
      entriesAt arrays.moveFrom (registry.reactSubviews container) ++
        entriesAt arrays.removeFrom (registry.reactSubviews container) :=
    filterMap_append
  rw [removeChildren_eq, removeChildren_eq, ← filter_entriesAt nodup, split]
  simp

/-- The tag is registered, and not below a child that is removed. -/
def Stays (registry : RCTRegistry) (depth : ℕ) (removed : List Tag) (tag : Tag) : Prop :=
  tag ∈ registry.registered ∧ ∀ child ∈ removed, tag ∉ traverse registry.reactSubviews depth child

/-- **The container gets the children that the arrays say**, if the tags to add are still there
when the removed children are gone. -/
theorem manageChildren_eq {depth : ℕ} (registered : container ∈ registry.registered)
    (canHaveSubviews : registry.canHaveSubviews container = true) (nodup : (registry.reactSubviews container).Nodup)
    (fits : arrays.Fits (registry.reactSubviews container).length)
    (stay : ∀ tag ∈ arrays.addChildTags, registry.Stays depth
      (entriesAt arrays.removeFrom (registry.reactSubviews container)) tag) :
    ∃ next, registry.manageChildren depth container arrays = some next ∧
      next.reactSubviews container = arrays.placedChildren (registry.reactSubviews container) := by
  have removed := removeChildren_both registry container nodup arrays
  rw [manageChildren, if_neg (by simp [fits.moves, fits.adds]), if_neg (not_not.mpr registered),
    childrenToRemoveFromContainer_eq fits.removeFrom_inRange,
    childrenToRemoveFromContainer_eq fits.moveFrom_inRange]
  dsimp only
  rw [removed]
  -- What is removed is behind the added tags now; purging leaves them registered.
  obtain ⟨subviews, canHave⟩ := purgeChildren_reactSubviews depth
    (entriesAt arrays.removeFrom (registry.reactSubviews container))
    (registry.withSubviews container
      (without (among arrays.sources) (registry.reactSubviews container)))
  have stillRegistered : ∀ tag ∈ arrays.addChildTags, tag ∈ (purgeChildren depth
      (entriesAt arrays.removeFrom (registry.reactSubviews container))
      (registry.withSubviews container
        (without (among arrays.sources) (registry.reactSubviews container)))).registered := by
    intro tag member
    obtain ⟨isRegistered, apart⟩ := stay tag member
    -- The tree is purged without the links to what was taken out: less is below each child.
    refine mem_purgeChildren isRegistered ?_
    intro child isRemoved below
    refine apart child isRemoved (traverse_subset ?_ depth child below)
    intro view
    by_cases isContainer : view = container
    · subst isContainer
      rw [withSubviews_self]
      exact (without_sublist _ _).subset
    · rw [withSubviews_of_ne registry isContainer]
      exact List.Subset.refl _
  rw [destinationsToChildrenToAdd_eq fits stillRegistered, sortBy_places]
  have length : ((purgeChildren depth
      (entriesAt arrays.removeFrom (registry.reactSubviews container))
      (registry.withSubviews container
        (without (among arrays.sources) (registry.reactSubviews container)))).reactSubviews
        container) = without (among arrays.sources) (registry.reactSubviews container) := by
    rw [subviews, withSubviews_self]
  rw [foldlM_insertReactSubview (by rw [canHave]; exact canHaveSubviews)
    (by rw [length]; exact fits.views_inRange), length]
  exact ⟨_, rfl, Function.update_self _ _ _⟩

end RCTRegistry

end ReactNative

