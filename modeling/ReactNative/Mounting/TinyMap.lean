import ReactNative.Core.ShadowNode

/-! The differentiator's map from tags to pairs: a vector in insertion order whose entries are
erased by zeroing their key and swept out lazily. -/
namespace ReactNative

open List

structure TinyMap (V : Type) where
  vector : List (Tag × V) := []
  numErased : Nat := 0
  erasedAtFront : Nat := 0

namespace TinyMap

variable {V : Type}

/-- `nullptr` or a position in the vector. -/
abbrev Iterator := Option Nat

variable (map : TinyMap V)

/-- Same as `begin` but doesn't call `cleanVector` at the beginning. -/
def begin_ : Iterator :=
  if map.vector.length = 0 ∨ map.vector.length = map.numErased then none else some 0

def end_ : Iterator :=
  if map.vector.length = 0 ∨ map.numErased = map.vector.length then none
  else some map.vector.length

/-- Remove erased elements from internal vector, if they are at least half of
it or the caller insists. -/
def cleanVector (forceClean : Bool) : TinyMap V :=
  if (map.numErased < map.vector.length / 2 ∧ ¬ forceClean) ∨ map.vector.length = 0 ∨
      map.numErased = 0 ∨ map.numErased = map.erasedAtFront then map
  else if map.numErased = map.vector.length then {}
  else { vector := map.vector.filter fun item => item.1 ≠ 0 }

def find (key : Tag) : Option (TinyMap V × Iterator) :=
  let map := map.cleanVector false
  if key = 0 then none
  else match map.begin_ with
    | none =>
      -- `nullptr + erasedAtFront_` meets `end()` only without an offset.
      if map.erasedAtFront = 0 then some (map, map.end_) else none
    | some first =>
      if map.vector.length < first + map.erasedAtFront then none
      else match (map.vector.drop (first + map.erasedAtFront)).findIdx? fun item =>
          item.1 = key with
        | some offset => some (map, some (first + map.erasedAtFront + offset))
        | none => some (map, map.end_)

def insert (pair : Tag × V) : Option (TinyMap V) :=
  if pair.1 = 0 then none else some { map with vector := map.vector ++ [pair] }

def erase (iterator : Iterator) : Option (TinyMap V) := do
  let index ← iterator
  let item ← map.vector[index]?
  let map := { map with
    numErased := map.numErased + 1
    vector := map.vector.set index (0, item.2) }
  if iterator = map.begin_.map (· + map.erasedAtFront) then
    return { map with erasedAtFront := map.erasedAtFront + 1 }
  else
    return map

/-- `find` together with the test against `end()` and the read of `it->second`. -/
def findEntry (key : Tag) : Option (TinyMap V × Option (Iterator × V)) := do
  let (map, it) ← map.find key
  if it = map.end_ then
    return (map, none)
  else
    let index ← it
    let item ← map.vector[index]?
    return (map, some (it, item.2))

def values : List V :=
  match map.begin_ with
  | none => []
  | some first => (map.vector.drop first).map Prod.snd

def iterate : List V :=
  (map.cleanVector (map.erasedAtFront ≠ map.numErased)).values

def entries : List (Tag × V) :=
  match map.begin_ with
  | none => []
  | some first => map.vector.drop first

/-- The entries that a loop from `begin()` to `end()` visits. -/
def visited : List (Tag × V) :=
  (map.cleanVector (map.erasedAtFront ≠ map.numErased)).entries

/-! ### Live entries -/

def live : List (Tag × V) := map.vector.filter fun item => item.1 ≠ 0

def keys : List Tag := map.live.map Prod.fst

/-- What an iteration sees of the erased entries. -/
def strays : List V :=
  if map.erasedAtFront = map.numErased then (map.vector.take map.erasedAtFront).map Prod.snd
  else []

theorem cleanVector_subset (forceClean : Bool) :
    (map.cleanVector forceClean).vector ⊆ map.vector := by
  unfold cleanVector
  split
  · exact List.Subset.refl _
  · split
    · exact nil_subset _
    · exact filter_subset_self _

structure WellFormed : Prop where
  counted : map.vector.countP (fun item => item.1 = 0) = map.numErased
  front : ∀ item ∈ map.vector.take map.erasedAtFront, item.1 = 0
  front_le : map.erasedAtFront ≤ map.vector.length
  /-- Erasing the last live entry never counts as an erasure at the front. -/
  swept : map.erasedAtFront = map.vector.length → map.vector = []
  distinct : map.keys.Nodup

theorem wellFormed_empty : WellFormed ({} : TinyMap V) :=
  ⟨rfl, by simp, by simp, by simp, by simp [keys, live]⟩

namespace WellFormed

variable {map : TinyMap V}

section

variable (wf : map.WellFormed)
include wf

theorem countP_front :
    (map.vector.take map.erasedAtFront).countP (fun item => item.1 = 0) = map.erasedAtFront := by
  rw [countP_eq_length.mpr (by simpa using wf.front), length_take]
  exact Nat.min_eq_left wf.front_le

theorem front_le_numErased : map.erasedAtFront ≤ map.numErased := by
  have part := (take_sublist map.erasedAtFront map.vector).countP_le
    (p := fun item => item.1 = 0)
  rw [wf.countP_front, wf.counted] at part
  exact part

theorem clean (forceClean : Bool) :
    (map.cleanVector forceClean).WellFormed ∧ (map.cleanVector forceClean).live = map.live := by
  unfold cleanVector
  split
  · exact ⟨wf, rfl⟩
  · split
    next all =>
      have none : map.live = [] := by
        rw [← wf.counted, countP_eq_length] at all
        simpa [live, filter_eq_nil_iff] using all
      exact ⟨wellFormed_empty, none.symm⟩
    next some =>
      have idem : ({ vector := map.vector.filter fun item => item.1 ≠ 0 } : TinyMap V).live =
          map.live := by
        simp [live, filter_filter]
      refine ⟨⟨?_, by simp, by simp, ?_, ?_⟩, idem⟩
      · simp [countP_eq_zero]
      · intro empty
        exact eq_nil_of_length_eq_zero empty.symm
      · rw [keys, idem]
        exact wf.distinct

theorem find_start (noFirst : (map.cleanVector false).begin_ = none) :
    (map.cleanVector false).erasedAtFront = 0 ∧ (map.cleanVector false).live = [] := by
  have cleanWf := (wf.clean false).1
  revert noFirst cleanWf
  unfold cleanVector
  split
  next kept =>
    intro noFirst cleanWf
    have size : map.vector.length = 0 ∨ map.vector.length = map.numErased := by
      by_contra other
      rw [begin_, if_neg other] at noFirst
      cases noFirst
    -- A full vector of erased entries would have been swept.
    have empty : map.vector = [] := by
      by_cases front : map.numErased = map.erasedAtFront
      · rcases size with none | full
        · exact eq_nil_of_length_eq_zero none
        · exact wf.swept (front ▸ full.symm)
      · refine eq_nil_of_length_eq_zero ?_
        omega
    have front := wf.front_le
    simp only [empty, length_nil, Nat.le_zero] at front
    exact ⟨front, by simp [live, empty]⟩
  next =>
    split
    · intro _ _
      exact ⟨rfl, rfl⟩
    · intro noFirst _
      have empty : map.vector.filter (fun item => item.1 ≠ 0) = [] := by
        by_contra other
        have positive := length_pos_iff.mpr other
        simp only [begin_, ite_eq_left_iff, reduceCtorEq, imp_false, not_not, or_self] at noFirst
        omega
      exact ⟨rfl, by rw [live, empty]; rfl⟩

variable {key : Tag}

theorem find_spec (valid : key ≠ 0) :
    ∃ found, found.WellFormed ∧ found.live = map.live ∧ found.vector ⊆ map.vector ∧
      ((key ∉ map.keys ∧ map.find key = some (found, found.end_)) ∨
        ∃ index value, map.find key = some (found, some index) ∧
          found.vector[index]? = some (key, value)) := by
  -- A search cleans first, which keeps the live entries.
  obtain ⟨cleanWf, sameLive⟩ := wf.clean false
  refine ⟨map.cleanVector false, cleanWf, sameLive, map.cleanVector_subset false, ?_⟩
  have sameKeys : map.keys = (map.cleanVector false).keys := by rw [keys, keys, sameLive]
  rw [sameKeys]
  unfold find
  simp only [if_neg valid]
  cases first : (map.cleanVector false).begin_ with
  | none =>
    obtain ⟨offset, empty⟩ := wf.find_start first
    exact .inl ⟨by simp [keys, empty], by simp only [if_pos offset]⟩
  | some start =>
    have zero : start = 0 := by
      unfold begin_ at first
      split at first
      · cases first
      · cases first
        rfl
    subst zero
    simp only [Nat.zero_add]
    rw [if_neg (Nat.not_lt.mpr cleanWf.front_le)]
    cases search : ((map.cleanVector false).vector.drop
        (map.cleanVector false).erasedAtFront).findIdx? fun item => item.1 = key with
    -- Nothing behind the erased front has the key, and at the front all keys are zero.
    | none =>
      refine .inl ⟨?_, rfl⟩
      intro member
      obtain ⟨item, itemMem, rfl⟩ := mem_map.mp member
      obtain ⟨inVector, -⟩ := mem_filter.mp itemMem
      rw [← take_append_drop (map.cleanVector false).erasedAtFront
        (map.cleanVector false).vector] at inVector
      rcases mem_append.mp inVector with erased | behind
      · exact valid (cleanWf.front item erased)
      · simpa using findIdx?_eq_none_iff.mp search item behind
    | some offset =>
      obtain ⟨inside, hit, -⟩ := findIdx?_eq_some_iff_getElem.mp search
      have position : (map.cleanVector false).erasedAtFront + offset <
          (map.cleanVector false).vector.length := by
        rw [length_drop] at inside
        omega
      refine .inr ⟨_, ((map.cleanVector false).vector[(map.cleanVector false).erasedAtFront +
        offset]).2, rfl, ?_⟩
      rw [getElem?_eq_getElem position]
      simpa [Prod.ext_iff] using hit

theorem findEntry_spec (valid : key ≠ 0) :
    ∃ found, found.WellFormed ∧ found.live = map.live ∧ found.vector ⊆ map.vector ∧
      ((key ∉ map.keys ∧ map.findEntry key = some (found, none)) ∨
        ∃ index value, map.findEntry key = some (found, some (some index, value)) ∧
          found.vector[index]? = some (key, value)) := by
  obtain ⟨found, foundWf, sameLive, within, absent | ⟨index, value, present, at_⟩⟩ :=
    wf.find_spec valid
  · refine ⟨found, foundWf, sameLive, within, .inl ⟨absent.1, ?_⟩⟩
    simp [findEntry, absent.2]
  · refine ⟨found, foundWf, sameLive, within, .inr ⟨index, value, ?_, at_⟩⟩
    obtain ⟨inside, -⟩ := List.getElem?_eq_some_iff.mp at_
    have notEnd : some index ≠ found.end_ := by
      unfold end_
      split
      · simp
      · simp only [ne_eq, Option.some.injEq]
        omega
    simp [findEntry, present, notEnd, at_]

variable {value : V}

theorem live_of_index {index : Nat}
    (at_ : map.vector[index]? = some (key, value)) (valid : key ≠ 0) :
    (key, value) ∈ map.live ∧ ∀ other, (key, other) ∈ map.live → other = value := by
  have member : (key, value) ∈ map.live :=
    mem_filter.mpr ⟨mem_of_getElem? at_, by simpa using valid⟩
  refine ⟨member, fun other otherMem => ?_⟩
  have same := inj_on_of_nodup_map wf.distinct otherMem member rfl
  exact (Prod.ext_iff.mp same).2

theorem insert_spec (value : V) (valid : key ≠ 0) (fresh : key ∉ map.keys) :
    ∃ inserted, map.insert (key, value) = some inserted ∧ inserted.WellFormed ∧
      inserted.live = map.live ++ [(key, value)] ∧
      inserted.vector = map.vector ++ [(key, value)] := by
  have grown : ({ map with vector := map.vector ++ [(key, value)] } : TinyMap V).live =
      map.live ++ [(key, value)] := by
    simp [live, valid]
  refine ⟨_, if_neg valid, ⟨?_, ?_, ?_, ?_, ?_⟩, grown, rfl⟩
  · simp [valid, wf.counted]
  · rw [take_append_of_le_length wf.front_le]
    exact wf.front
  · simp only [length_append]
    exact wf.front_le.trans (Nat.le_add_right _ _)
  · have small := wf.front_le
    simp only [length_append, length_singleton]
    omega
  · rw [keys, grown, map_append]
    refine nodup_append.mpr ⟨wf.distinct, by simp, ?_⟩
    intro k member other otherMem
    rw [map_singleton, mem_singleton] at otherMem
    exact otherMem ▸ ne_of_mem_of_not_mem member fresh

end

private theorem filter_wiped (before after : List (Tag × V)) (valid : key ≠ 0)
    (distinct : (((before ++ (key, value) :: after).filter fun item => item.1 ≠ 0).map
      Prod.fst).Nodup) :
    (before ++ (0, value) :: after).filter (fun item => item.1 ≠ 0) =
      ((before ++ (key, value) :: after).filter fun item => item.1 ≠ 0).filter
        fun item => item.1 ≠ key := by
  rw [filter_append, filter_cons_of_pos (by simpa using valid), map_append, map_cons] at distinct
  obtain ⟨-, tail, apart⟩ := nodup_append.mp distinct
  have front : ∀ item ∈ before.filter (fun item => item.1 ≠ 0), item.1 ≠ key :=
    fun item member => apart _ (mem_map_of_mem member) _ (by simp)
  have back : ∀ item ∈ after.filter (fun item => item.1 ≠ 0), item.1 ≠ key := by
    intro item member same
    have found := mem_map_of_mem (f := Prod.fst) member
    rw [same] at found
    exact (nodup_cons.mp tail).1 found
  have keepFront := filter_eq_self.mpr fun item member => decide_eq_true (front item member)
  have keepBack := filter_eq_self.mpr fun item member => decide_eq_true (back item member)
  rw [filter_append, filter_cons_of_neg (by simp), filter_append,
    filter_cons_of_pos (by simpa using valid), filter_append,
    filter_cons_of_neg (by simp), keepFront, keepBack]

theorem erase_spec (wf : map.WellFormed) {index : Nat}
    (at_ : map.vector[index]? = some (key, value)) (valid : key ≠ 0) :
    ∃ erased, map.erase (some index) = some erased ∧ erased.WellFormed ∧
      erased.live = (map.live.filter fun item => item.1 ≠ key) ∧
      ∀ item ∈ erased.vector, item ∈ map.vector ∨ item = (0, value) := by
  obtain ⟨inside, found⟩ := List.getElem?_eq_some_iff.mp at_
  have split : map.vector =
      map.vector.take index ++ (key, value) :: map.vector.drop (index + 1) := by
    rw [← found, ← drop_eq_getElem_cons inside, take_append_drop]
  have wiped : map.vector.set index (0, value) =
      map.vector.take index ++ (0, value) :: map.vector.drop (index + 1) := by
    rw [set_eq_take_append_cons_drop, if_pos inside]
  have behind : map.erasedAtFront ≤ index := by
    by_contra early
    have inFront : (map.vector.take map.erasedAtFront)[index]? = some (key, value) := by
      rw [getElem?_take_of_lt (Nat.lt_of_not_le early)]
      exact at_
    exact valid (wf.front (key, value) (mem_of_getElem? inFront))
  have counted : (map.vector.set index (0, value)).countP (fun item => item.1 = 0) =
      map.numErased + 1 := by
    rw [← wf.counted, wiped]
    conv => rhs; rw [split]
    simp [valid]
    omega
  have erasedLive : (map.vector.set index (0, value)).filter (fun item => item.1 ≠ 0) =
      map.live.filter fun item => item.1 ≠ key := by
    have distinct := wf.distinct
    rw [keys, live, split] at distinct
    rw [wiped, filter_wiped _ _ valid distinct, live, ← split]
  have distinct : ((map.live.filter fun item => item.1 ≠ key).map Prod.fst).Nodup :=
    wf.distinct.sublist (filter_sublist.map _)
  have length : (map.vector.set index (0, value)).length = map.vector.length := length_set
  have contents : ∀ item ∈ map.vector.set index (0, value), item ∈ map.vector ∨ item = (0, value) :=
    fun item member => mem_or_eq_of_mem_set member
  simp only [erase, Option.bind_eq_bind, Option.bind_some, at_]
  split
  next atFront =>
    -- The entry at the front was erased, but it was not the last live one.
    have here : index = map.erasedAtFront ∧ map.vector.length ≠ map.numErased + 1 := by
      unfold begin_ at atFront
      split at atFront
      · cases atFront
      next some =>
        simp only [length, not_or] at some
        exact ⟨by simpa using atFront, some.2⟩
    refine ⟨_, rfl, ⟨counted, ?_, ?_, ?_, by rw [keys, live, erasedLive]; exact distinct⟩,
      erasedLive, contents⟩
    · intro item member
      have front : (map.vector.set index (0, value)).take (map.erasedAtFront + 1) =
          map.vector.take index ++ [(0, value)] := by
        rw [wiped, ← here.1, take_append, length_take, Nat.min_eq_left inside.le,
          take_of_length_le (by rw [length_take]; omega), Nat.add_sub_cancel_left, take_succ_cons,
          take_zero]
      rw [front] at member
      rcases mem_append.mp member with old | new
      · exact wf.front item (here.1 ▸ old)
      · rw [mem_singleton.mp new]
    · simp only [length]
      omega
    · intro full
      simp only [length] at full
      have all : ∀ item ∈ map.vector.set index (0, value), item.1 = 0 := by
        rw [wiped, drop_eq_nil_of_le (by omega)]
        intro item member
        rcases mem_append.mp member with old | new
        · exact wf.front item (here.1 ▸ old)
        · rw [mem_singleton.mp new]
      rw [countP_eq_length.mpr (by simpa using all), length] at counted
      exact absurd counted here.2
  next elsewhere =>
    refine ⟨_, rfl, ⟨counted, ?_, ?_, ?_, by rw [keys, live, erasedLive]; exact distinct⟩,
      erasedLive, contents⟩
    · simp only [take_set_of_le behind]
      exact wf.front
    · simp only [length]
      exact wf.front_le
    · intro full
      simp only [length] at full
      have empty := wf.swept full
      simp [empty] at inside

theorem values_eq_entries : map.values = map.entries.map Prod.snd := by
  unfold values entries
  cases map.begin_ <;> rfl

theorem entries_eq {map : TinyMap V}
    (nonempty : map.vector.length = map.numErased → map.vector = []) :
    map.entries = map.vector := by
  unfold entries begin_
  by_cases empty : map.vector = []
  · simp [empty]
  · rw [if_neg (by simpa [empty] using fun full => empty (nonempty full))]
    rfl

theorem visited_eq (wf : map.WellFormed) :
    map.visited = (if map.erasedAtFront = map.numErased then map.vector.take map.erasedAtFront
      else []) ++ map.live := by
  have few := wf.front_le_numErased
  unfold visited
  by_cases front : map.erasedAtFront = map.numErased
  -- The erased ones are all at the front, so that the rest is live.
  · have rest : map.vector.drop map.erasedAtFront = map.live := by
      have total := wf.counted
      rw [← take_append_drop map.erasedAtFront map.vector, countP_append,
        wf.countP_front, front, Nat.add_eq_left, countP_eq_zero] at total
      rw [live]
      conv => rhs; rw [← take_append_drop map.erasedAtFront map.vector]
      rw [filter_append, filter_eq_nil_iff.mpr (by simpa using wf.front),
        filter_eq_self.mpr (by rw [front]; simpa using total), nil_append]
    have kept : map.cleanVector (map.erasedAtFront ≠ map.numErased) = map :=
      if_pos (.inr (.inr (.inr front.symm)))
    rw [if_pos front, kept, ← rest, take_append_drop]
    exact entries_eq fun full => wf.swept (front.trans full.symm)
  · rw [if_neg front, nil_append]
    -- Otherwise `begin()` sweeps them, because some are left and not all are erased.
    have swept : (map.cleanVector (map.erasedAtFront ≠ map.numErased)).vector = map.live ∧
        (map.cleanVector (map.erasedAtFront ≠ map.numErased)).numErased = 0 := by
      have nonempty : map.vector.length ≠ 0 := by
        have none := countP_le_length (p := fun item : Tag × V => item.1 = 0)
          (l := map.vector)
        rw [wf.counted] at none
        omega
      unfold cleanVector
      rw [if_neg]
      · split
        next all =>
          rw [← wf.counted, countP_eq_length] at all
          exact ⟨(filter_eq_nil_iff.mpr (by simpa using all)).symm, rfl⟩
        next => exact ⟨rfl, rfl⟩
      · simp only [front, ne_eq, not_false_eq_true, decide_true, not_true_eq_false, and_false,
          false_or, nonempty]
        omega
    rw [entries_eq, swept.1]
    intro full
    rw [swept.2] at full
    exact eq_nil_of_length_eq_zero full

theorem iterate_eq (wf : map.WellFormed) : map.iterate = map.strays ++ map.live.map Prod.snd := by
  have visits := congrArg (List.map Prod.snd) wf.visited_eq
  rw [map_append] at visits
  rw [iterate, values_eq_entries, strays]
  refine visits.trans (congrArg (· ++ map.live.map Prod.snd) ?_)
  split <;> rfl

end WellFormed

/-! ### Renaming values

The keys alone decide what the map does. -/

end TinyMap

end ReactNative

