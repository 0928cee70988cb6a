import ReactNative.Foundation.Runs
import ReactNative.Mounting.TinyMap

/-! A finite map has at most one value for each key. What `find` answers is always what the finite
map contains. -/
namespace ReactNative

namespace TinyMap

variable {V : Type}

/-- A client erases what `find` has just returned, if that is not `end()`. -/
inductive Operation (V : Type) where
  | insert (key : Tag) (value : V)
  | find (key : Tag)
  | erase (key : Tag)
  | iterate

variable (map : TinyMap V)

def step : Operation V → Option (TinyMap V)
  | .insert key value => map.insert (key, value)
  | .find key => (map.find key).map Prod.fst
  | .erase key => (map.find key).bind fun found =>
      if found.2 = found.1.end_ then some found.1 else found.1.erase found.2
  | .iterate => some (map.cleanVector (map.erasedAtFront ≠ map.numErased))

/-! ### The finite map -/

/-- A key has the value that was last inserted and not erased since. -/
abbrev Contents (V : Type) := Tag → Option V

variable (contents : Contents V)

/-- A client inserts keys that are not zero and not present, and does not look for zero. -/
def Permits : Operation V → Prop
  | .insert key _ => key ≠ 0 ∧ contents key = none
  | .find key => key ≠ 0
  | .erase key => key ≠ 0
  | .iterate => True

instance (contents : Contents V) (operation : Operation V) :
    Decidable (Permits contents operation) := by
  cases operation <;> unfold Permits <;> infer_instance

def contentsAfter : Operation V → Contents V
  | .insert key value => Function.update contents key (some value)
  | .erase key => Function.update contents key none
  | _ => contents

def finiteMapStep (operation : Operation V) : Option (Contents V) :=
  if Permits contents operation then some (contentsAfter contents operation) else none

/-- What an iterator for the key points to. -/
def Answers (found : TinyMap V) (iterator : Iterator) (key : Tag) : Option V → Prop
  | none => iterator = found.end_
  | some value => iterator ≠ found.end_ ∧ ∃ index, iterator = some index ∧
      found.vector[index]? = some (key, value)

structure Refines (contents : Contents V) : Prop where
  find : ∀ key, key ≠ 0 → ∃ found iterator, map.find key = some (found, iterator) ∧
    found.Answers iterator key (contents key)
  visits : ∀ entry, entry ∈ map.visited ↔ contents entry.1 = some entry.2
  once : map.visited.Nodup

/-- Whether a loop from `begin()` starts at an erased entry. -/
def StartsErased : Prop := 0 < map.erasedAtFront ∧ map.erasedAtFront = map.numErased

/-! ### The relation to the finite map -/

structure Represents (contents : Contents V) : Prop where
  wellFormed : map.WellFormed
  live : ∀ key value, (key, value) ∈ map.live ↔ contents key = some value

namespace Represents

variable {map : TinyMap V} {contents : Contents V}

section

variable (represents : map.Represents contents)
include represents

theorem mem_keys (key : Tag) : key ∈ map.keys ↔ (contents key).isSome := by
  rw [keys, List.mem_map, Option.isSome_iff_exists]
  constructor
  · rintro ⟨⟨_, value⟩, member, rfl⟩
    exact ⟨value, (represents.live _ value).mp member⟩
  · rintro ⟨value, present⟩
    exact ⟨(key, value), (represents.live key value).mpr present, rfl⟩

theorem clean (forceClean : Bool) : (map.cleanVector forceClean).Represents contents := by
  obtain ⟨wf, sameLive⟩ := represents.wellFormed.clean forceClean
  refine ⟨wf, ?_⟩
  rw [sameLive]
  exact represents.live

theorem insert {key : Tag} (value : V) (valid : key ≠ 0) (fresh : contents key = none) :
    ∃ inserted, map.insert (key, value) = some inserted ∧
      inserted.Represents (Function.update contents key (some value)) := by
  have absent : key ∉ map.keys := by simp [represents.mem_keys, fresh]
  obtain ⟨inserted, inserts, wf, sameLive, -⟩ :=
    represents.wellFormed.insert_spec value valid absent
  refine ⟨inserted, inserts, wf, ?_⟩
  intro other otherValue
  rw [sameLive, List.mem_append, represents.live, List.mem_singleton, Prod.mk.injEq]
  by_cases same : other = key
  · simp [same, fresh, eq_comm]
  · simp [same]

theorem find {key : Tag} (valid : key ≠ 0) :
    ∃ found iterator, map.find key = some (found, iterator) ∧ found.Represents contents ∧
      found.Answers iterator key (contents key) := by
  obtain ⟨found, wf, sameLive, -, absent | ⟨index, _, finds, there⟩⟩ :=
    represents.wellFormed.find_spec valid
  · have nothing : contents key = none := by
      simpa [represents.mem_keys] using absent.1
    refine ⟨found, found.end_, absent.2, ⟨wf, sameLive ▸ represents.live⟩, ?_⟩
    rw [nothing, Answers]
  · have member := (wf.live_of_index there valid).1
    rw [sameLive, represents.live] at member
    refine ⟨found, some index, finds, ⟨wf, sameLive ▸ represents.live⟩, ?_⟩
    rw [member, Answers]
    refine ⟨?_, index, rfl, there⟩
    obtain ⟨inside, -⟩ := List.getElem?_eq_some_iff.mp there
    rw [end_]
    split
    next => simp
    next => simpa using inside.ne

theorem erase {key : Tag} {index : ℕ} {value : V} (there : map.vector[index]? = some (key, value))
    (valid : key ≠ 0) :
    ∃ erased, map.erase (some index) = some erased ∧
      erased.Represents (Function.update contents key none) := by
  obtain ⟨erased, erases, wf, sameLive, -⟩ := represents.wellFormed.erase_spec there valid
  refine ⟨erased, erases, wf, ?_⟩
  intro other otherValue
  rw [sameLive, List.mem_filter, represents.live]
  by_cases same : other = key
  · simp [same]
  · simp [same]

theorem step {operation : Operation V} {next : Contents V}
    (permitted : finiteMapStep contents operation = some next) :
    ∃ answer, map.step operation = some answer ∧ answer.Represents next := by
  obtain ⟨permits, ⟨⟩⟩ := Option.ite_none_right_eq_some.mp permitted
  cases operation with
  | insert key value => exact represents.insert value permits.1 permits.2
  | find key =>
    obtain ⟨found, iterator, finds, kept, -⟩ := represents.find permits
    exact ⟨found, by rw [TinyMap.step, finds, Option.map_some], kept⟩
  | erase key =>
    obtain ⟨found, iterator, finds, kept, answers⟩ := represents.find permits
    rw [TinyMap.step, finds, Option.bind_some]
    cases present : contents key with
    | none =>
      rw [present, Answers] at answers
      refine ⟨found, if_pos answers, ?_⟩
      rw [contentsAfter, Function.update_eq_self_iff.mpr present.symm]
      exact kept
    | some value =>
      rw [present, Answers] at answers
      obtain ⟨notEnd, _, rfl, there⟩ := answers
      rw [if_neg notEnd]
      exact kept.erase there permits
  | iterate => exact ⟨_, rfl, represents.clean _⟩

theorem nodup_live : map.live.Nodup :=
  List.Nodup.of_map _ represents.wellFormed.distinct

theorem contents_zero : contents 0 = none := by
  cases present : contents 0 with
  | none => rfl
  | some value =>
    have member := (represents.live 0 value).mpr present
    simp [TinyMap.live] at member

theorem visited_eq_live (starts : ¬map.StartsErased) : map.visited = map.live := by
  rw [represents.wellFormed.visited_eq]
  split
  next front =>
    have nothing : map.erasedAtFront = 0 := by
      by_contra some_erased
      exact starts ⟨Nat.pos_of_ne_zero some_erased, front⟩
    rw [nothing, List.take_zero, List.nil_append]
  next => rw [List.nil_append]

theorem visited_erased (starts : map.StartsErased) : ∃ value, ((0 : Tag), value) ∈ map.visited := by
  have wf := represents.wellFormed
  have inside : 0 < map.vector.length := Nat.lt_of_lt_of_le starts.1 wf.front_le
  have first : map.vector[0] ∈ map.vector.take map.erasedAtFront :=
    List.mem_take_iff_getElem.mpr ⟨0, lt_min starts.1 inside, rfl⟩
  refine ⟨map.vector[0].2, ?_⟩
  rw [wf.visited_eq, if_pos starts.2, List.mem_append]
  left
  rw [← wf.front _ first]
  exact first

theorem refines_iff : map.Refines contents ↔ ¬map.StartsErased := by
  constructor
  · intro refines starts
    obtain ⟨value, member⟩ := represents.visited_erased starts
    have present := (refines.visits _).mp member
    rw [represents.contents_zero] at present
    cases present
  · intro starts
    have visits := represents.visited_eq_live starts
    constructor
    · intro key valid
      obtain ⟨found, iterator, finds, -, answers⟩ := represents.find valid
      exact ⟨found, iterator, finds, answers⟩
    · rintro ⟨key, value⟩
      rw [visits]
      exact represents.live key value
    · rw [visits]
      exact represents.nodup_live

end

end Represents

theorem represents_empty : ({} : TinyMap V).Represents fun _ => none where
  wellFormed := wellFormed_empty
  live := by simp [live]

/-- **A finite map.** Whatever the operations, the map represents the finite map and no assertion
fails; it refines the finite map exactly if a loop does not start at an erased entry. -/
theorem refines_of_run {operations : List (Operation V)} {contents : Contents V}
    (permitted : Runs.run finiteMapStep (fun _ => none) operations = some contents) :
    ∃ map, Runs.run step ({} : TinyMap V) operations = some map ∧
      (map.Refines contents ↔ ¬map.StartsErased) := by
  have simulates : ∀ (map : TinyMap V) contents operation next, map.Represents contents →
      finiteMapStep contents operation = some next →
      ∃ answer, map.step operation = some answer ∧ answer.Represents next :=
    fun _ _ _ _ represents => represents.step
  obtain ⟨map, ran, represents⟩ := Runs.run_simulation simulates represents_empty permitted
  exact ⟨map, ran, represents.refines_iff⟩

def frontErased : List (Operation ℕ) := [.insert 1 10, .insert 2 20, .insert 3 30, .erase 1]

theorem refines_of_run_frontErased : ∃ map, Runs.run step ({} : TinyMap ℕ) frontErased = some map ∧
    (map.Refines (contentsAfter (contentsAfter (contentsAfter (contentsAfter (fun _ => none)
      (.insert 1 10)) (.insert 2 20)) (.insert 3 30)) (.erase 1)) ↔ ¬map.StartsErased) :=
  refines_of_run rfl

theorem frontErased_not_refines : ∃ contents map,
    Runs.run finiteMapStep (fun _ => none) frontErased = some contents ∧
      Runs.run step ({} : TinyMap ℕ) frontErased = some map ∧ ¬map.Refines contents := by
  refine ⟨_, _, rfl, rfl, ?_⟩
  intro refines
  have visited := (refines.visits (0, 10)).mp (by decide)
  cases visited

end TinyMap

end ReactNative

