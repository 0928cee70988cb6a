import Mathlib.Data.List.Nodup
import ReactNative.Foundation.Runs

/-! `ModuleRegistry` finds modules through an index of their names, which `moduleNames` builds and
`registerModules` extends if there are names in it. -/
namespace ReactNative.ModuleRegistry

open Runs List

abbrev Name := List Char

structure MethodDescriptor where
  name : Name
  type : Name

structure NativeModule (Constants : Type) where
  name : Name
  constants : Constants
  methods : List MethodDescriptor

/-- An item of the array that describes a module. -/
inductive ConfigItem (Constants : Type)
  | name (name : Name)
  | constants (constants : Constants)
  | methodNames (names : List Name)
  | methodIds (ids : List ℕ)

structure ModuleConfig (Constants : Type) where
  index : ℕ
  config : List (ConfigItem Constants)

def normalizeName (name : Name) : Name :=
  if "RCT".toList <+: name then name.drop 3
  else if "RK".toList <+: name then name.drop 2
  else name

structure Registry (Constants : Type) where
  modules_ : List (NativeModule Constants)
  /-- Entries that are assigned later come first. -/
  modulesByName_ : List (Name × ℕ) := []
  unknownModules_ : List Name := []

variable {Constants : Type} (isEmpty : Constants → Bool)

def NativeModule.key (native : NativeModule Constants) : Name := normalizeName native.name

def methodIds (methods : List MethodDescriptor) (type : Name) : List ℕ :=
  (methods.zipIdx.filter (·.1.type = type)).map (·.2)

def NativeModule.config (native : NativeModule Constants) (index : ℕ) (name : Name) :
    Option (ModuleConfig Constants) :=
  let methodNames := native.methods.map (·.name)
  let promiseMethodIds := methodIds native.methods "promise".toList
  let syncMethodIds := methodIds native.methods "sync".toList
  let methods : List (ConfigItem Constants) :=
    if methodNames = [] then []
    else if promiseMethodIds = [] ∧ syncMethodIds = [] then [.methodNames methodNames]
    else if syncMethodIds = [] then [.methodNames methodNames, .methodIds promiseMethodIds]
    else [.methodNames methodNames, .methodIds promiseMethodIds, .methodIds syncMethodIds]
  if methods.isEmpty ∧ isEmpty native.constants then none
  else some { index, config := .name name :: .constants native.constants :: methods }

/-- `modulesByName_[name] = index` for the modules from an index on. -/
def indexed (modules : List (NativeModule Constants)) (start : ℕ) (names : List (Name × ℕ)) :
    List (Name × ℕ) :=
  ((modules.drop start).zipIdx start).foldl
    (fun names native => (native.1.key, native.2) :: names) names

namespace Registry

def updateModuleNamesFromIndex (registry : Registry Constants) (index : ℕ) : Registry Constants :=
  { registry with modulesByName_ := indexed registry.modules_ index registry.modulesByName_ }

def addKnown (unknownModules : List Name) (addToNames : Bool) :
    List (NativeModule Constants × ℕ) → List (Name × ℕ) → Option Name × List (Name × ℕ)
  | [], names => (none, names)
  | (nativeModule, index) :: rest, names =>
    if nativeModule.key ∈ unknownModules then
      (some ("module ".toList ++ nativeModule.key ++
        " was required without being registered and is now being registered.".toList), names)
    else
      addKnown unknownModules addToNames rest
        (if addToNames then (nativeModule.key, index) :: names else names)

/-- The message of the error that is thrown, and the registry after the call. -/
def registerModules (registry : Registry Constants) (modules : List (NativeModule Constants)) :
    Option Name × Registry Constants :=
  if registry.modules_ = [] ∧ registry.unknownModules_ = [] then
    (none, { registry with modules_ := modules })
  else
    let modulesSize := registry.modules_.length
    let addToNames := !registry.modulesByName_.isEmpty
    let grown := { registry with modules_ := registry.modules_ ++ modules }
    if registry.unknownModules_ ≠ [] then
      let added := addKnown registry.unknownModules_ addToNames (modules.zipIdx modulesSize)
        registry.modulesByName_
      (added.1, { grown with modulesByName_ := added.2 })
    else if addToNames then (none, grown.updateModuleNamesFromIndex modulesSize)
    else (none, grown)

def moduleNames (registry : Registry Constants) : List Name × Registry Constants :=
  (registry.modules_.map NativeModule.key, registry.updateModuleNamesFromIndex 0)

/-- What `moduleNotFoundCallback_` does with the registry, until an error is thrown. -/
def registerAll (registry : Registry Constants) :
    List (List (NativeModule Constants)) → Option Name × Registry Constants
  | [] => (none, registry)
  | modules :: rest =>
    match registry.registerModules modules with
    | (some error, registry) => (some error, registry)
    | (none, registry) => registry.registerAll rest

def initialized (registry : Registry Constants) : Registry Constants :=
  if registry.modulesByName_ = [] ∧ registry.modules_ ≠ [] then registry.moduleNames.2
  else registry

/-- The callback, if there is one, registers modules and returns whether it knows the module. -/
structure Callback (Constants : Type) where
  registrations : List (List (NativeModule Constants))
  found : Bool

def configAt (registry : Registry Constants) (index : ℕ) (name : Name) :
    Except Name (Option (ModuleConfig Constants)) :=
  match registry.modules_[index]? with
  | none => .error "Check failed: index < modules_.size()".toList
  | some native => .ok (native.config isEmpty index name)

def getConfig (registry : Registry Constants) (name : Name)
    (moduleNotFoundCallback : Option (Callback Constants)) :
    Except Name (Option (ModuleConfig Constants)) × Registry Constants :=
  let registry := registry.initialized
  match registry.modulesByName_.lookup name with
  | some index => (registry.configAt isEmpty index name, registry)
  | none =>
    if name ∈ registry.unknownModules_ then (.ok none, registry)
    else
      let unknown (registry : Registry Constants) :=
        { registry with unknownModules_ := name :: registry.unknownModules_ }
      match moduleNotFoundCallback with
      | none => (.ok none, unknown registry)
      | some callback =>
        match registry.registerAll callback.registrations with
        | (some error, registry) => (.error error, registry)
        | (none, registry) =>
          if callback.found then
            match registry.modulesByName_.lookup name with
            | some index => (registry.configAt isEmpty index name, registry)
            | none => (.ok none, unknown registry)
          else (.ok none, unknown registry)

end Registry

/-! ### Runs -/

inductive Action (Constants : Type)
  | registerModules (modules : List (NativeModule Constants))
  | moduleNames
  | getConfig (name : Name) (callback : Option (Registry.Callback Constants))

def step (registry : Registry Constants) : Action Constants → Option (Registry Constants)
  | .registerModules modules => some (registry.registerModules modules).2
  | .moduleNames => some registry.moduleNames.2
  | .getConfig name callback => some (registry.getConfig isEmpty name callback).2

def called (registry : Registry Constants) : Action Constants →
    Option (Name × Registry.Callback Constants)
  | .getConfig name (some callback) =>
    if (registry.initialized.modulesByName_.lookup name).isNone ∧ name ∉ registry.unknownModules_
    then some (name, callback) else none
  | _ => none

def registrations (registry : Registry Constants) :
    List (List (NativeModule Constants)) → List (Registry Constants × List (NativeModule Constants))
  | [] => []
  | modules :: rest => (registry, modules) ::
    match registry.registerModules modules with
    | (none, next) => registrations next rest
    | (some _, _) => []

def calls (registry : Registry Constants) (action : Action Constants) :
    List (Registry Constants × List (NativeModule Constants)) :=
  match action with
  | .registerModules modules => [(registry, modules)]
  | action => (called registry action).elim []
      fun called => registrations registry.initialized called.2.registrations

def keys (modules : List (NativeModule Constants)) : List Name := modules.map NativeModule.key

variable (registry : Registry Constants) (action : Action Constants)

/-- All modules have different names. -/
def Distinct : Prop := ∀ call ∈ calls registry action, (keys (call.1.modules_ ++ call.2)).Nodup

/-- No module is registered that has been asked for in vain, and a callback that registers the
module that is asked for says so, and is called when there are modules. -/
def InTime : Prop :=
  (∀ call ∈ calls registry action, ∀ key ∈ keys call.2, key ∉ call.1.unknownModules_) ∧
  ∀ found ∈ called registry action, found.1 ∈ keys found.2.registrations.flatten →
    found.2.found ∧ registry.modules_ ≠ []

instance : Decidable (Distinct registry action) := inferInstanceAs (Decidable (∀ _ ∈ _, _))

instance : Decidable (InTime registry action) := inferInstanceAs (Decidable (_ ∧ ∀ _ ∈ _, _))

/-- The module of that name at its index, if there is one. -/
def Finds (name : Name) (result : Except Name (Option (ModuleConfig Constants))) : Prop :=
  (∀ i (native : NativeModule Constants), registry.modules_[i]? = some native → native.key = name →
    result = .ok (native.config isEmpty i name)) ∧
  (name ∉ keys registry.modules_ → result = .ok none)

def Consistent : Prop :=
  (∀ call ∈ calls registry action, (call.1.registerModules call.2).1 ≠ none →
    (call.1.registerModules call.2).2 = call.1) ∧
  ∀ name callback, action = .getConfig name callback →
    Finds isEmpty (registry.getConfig isEmpty name callback).2 name
      (registry.getConfig isEmpty name callback).1

/-! ### The index -/

/-- The index leads to modules of their names, and to all modules in front of the n-th. -/
structure Indexes (modules : List (NativeModule Constants)) (n : ℕ) (names : List (Name × ℕ)) :
    Prop where
  sound : ∀ name i, names.lookup name = some i → (keys modules)[i]? = some name
  complete : ∀ i < n, ∀ name, (keys modules)[i]? = some name → names.lookup name = some i

variable {modules : List (NativeModule Constants)} {names : List (Name × ℕ)} {n : ℕ}

theorem Indexes.cons {native : NativeModule Constants} (indexes : Indexes modules n names)
    (distinct : (keys modules).Nodup) (isModule : modules[n]? = some native) :
    Indexes modules (n + 1) ((native.key, n) :: names) := by
  have isKey : (keys modules)[n]? = some native.key := by simp [keys, isModule]
  constructor
  · intro name i found
    rw [lookup_cons] at found
    split at found
    next same =>
      cases found
      rwa [beq_iff_eq.1 same]
    next => exact indexes.sound name i found
  · intro i below name isName
    rw [lookup_cons]
    split
    next same =>
      rw [beq_iff_eq.1 same, ← isKey] at isName
      rw [(getElem?_inj (List.getElem?_eq_some_iff.1 isKey).1 distinct).1 isName.symm]
    next other =>
      have isOther : i ≠ n := by
        rintro rfl
        simp [Option.some.inj (isKey.symm.trans isName)] at other
      exact indexes.complete i (by omega) name isName

theorem Indexes.indexed (indexes : Indexes modules n names) (distinct : (keys modules).Nodup) :
    Indexes modules modules.length (indexed modules n names) := by
  unfold ModuleRegistry.indexed
  generalize isRest : modules.drop n = rest
  induction rest generalizing n names with
  | nil =>
    have := drop_eq_nil_iff.1 isRest
    exact ⟨indexes.sound, fun i below => indexes.complete i (by omega)⟩
  | cons native rest ih =>
    have isModule : modules[n]? = some native := by rw [← head?_drop, isRest]; rfl
    exact ih (indexes.cons distinct isModule) (by rw [← tail_drop, isRest]; rfl)

theorem addKnown_eq {unknown : List Name} (add : Bool)
    (known : ∀ key ∈ keys modules, key ∉ unknown) (start : ℕ) (names : List (Name × ℕ)) :
    Registry.addKnown unknown add (modules.zipIdx start) names = (none, if add then
      (modules.zipIdx start).foldl (fun names native => (native.1.key, native.2) :: names) names
      else names) := by
  induction modules generalizing start names with
  | nil => simp [Registry.addKnown]
  | cons native modules ih =>
    have := known native.key (.head _)
    simp only [zipIdx_cons, Registry.addKnown, this, if_false, foldl_cons]
    rw [ih (fun key member => known key (.tail _ member))]
    cases add <;> rfl

theorem Indexes.eq_nil_iff (indexes : Indexes modules modules.length names) :
    names = [] ↔ modules = [] := by
  constructor
  · rintro rfl
    cases modules with
    | nil => rfl
    | cons native modules =>
      simpa using indexes.complete 0 (by simp) native.key (by simp [keys])
  · rintro rfl
    cases names with
    | nil => rfl
    | cons entry names =>
      obtain ⟨name, i⟩ := entry
      simpa [keys] using indexes.sound name i (by simp)

structure Valid (registry : Registry Constants) : Prop where
  distinct : (keys registry.modules_).Nodup
  index : registry.modulesByName_ = [] ∨
    Indexes registry.modules_ registry.modules_.length registry.modulesByName_
  unknown : ∀ key ∈ keys registry.modules_, key ∉ registry.unknownModules_

variable {registry} {name : Name}

section

variable (valid : Valid registry)
include valid

theorem Valid.lookup_eq_none (missing : name ∉ keys registry.modules_) :
    registry.modulesByName_.lookup name = none := by
  rcases valid.index with none | indexes
  · rw [none, lookup_nil]
  · refine Option.eq_none_iff_forall_ne_some.2 fun i found => missing ?_
    exact mem_of_getElem? (indexes.sound name i found)

theorem Valid.lookup_ne_none (member : name ∈ keys registry.modules_)
    (some : registry.modulesByName_ ≠ []) : registry.modulesByName_.lookup name ≠ none := by
  obtain ⟨i, isName⟩ := mem_iff_getElem?.1 member
  have below : i < registry.modules_.length := by
    simpa [keys] using (List.getElem?_eq_some_iff.1 isName).1
  simp [(valid.index.resolve_left some).complete i below name isName]

theorem Valid.finds {i : ℕ} (found : registry.modulesByName_.lookup name = some i) :
    Finds isEmpty registry name (registry.configAt isEmpty i name) := by
  have indexes := valid.index.resolve_left fun none => by simp [none] at found
  have isName := indexes.sound name i found
  refine ⟨fun j native isNative isKey => ?_, fun missing =>
    absurd (mem_of_getElem? isName) missing⟩
  have isOther : (keys registry.modules_)[j]? = some name := by simp [keys, isNative, isKey]
  obtain rfl := (getElem?_inj (List.getElem?_eq_some_iff.1 isName).1 valid.distinct).1
    (isName.trans isOther.symm)
  rw [Registry.configAt, isNative]

theorem Valid.registerModules (distinct : (keys (registry.modules_ ++ modules)).Nodup)
    (known : ∀ key ∈ keys modules, key ∉ registry.unknownModules_) :
    ∃ next, registry.registerModules modules = (none, next) ∧ Valid next ∧
      next.modules_ = registry.modules_ ++ modules ∧
      next.unknownModules_ = registry.unknownModules_ ∧
      (registry.modulesByName_ ≠ [] → next.modulesByName_ ≠ []) := by
  have unknown : ∀ key ∈ keys (registry.modules_ ++ modules), key ∉ registry.unknownModules_ := by
    simp only [keys, map_append, mem_append] at known ⊢
    exact fun key member => member.elim (valid.unknown key) (known key)
  have isNext : registry.registerModules modules = (none,
      { registry with
        modules_ := registry.modules_ ++ modules
        modulesByName_ := if registry.modulesByName_ = [] then [] else
          indexed (registry.modules_ ++ modules) registry.modules_.length
            registry.modulesByName_ }) := by
    unfold Registry.registerModules
    split
    next empty =>
      have none : registry.modulesByName_ = [] := valid.index.elim id fun indexes =>
        indexes.eq_nil_iff.2 empty.1
      simp [none, empty.1]
    next =>
      rcases eq_or_ne registry.modulesByName_ [] with none | some
      · simp [none, addKnown_eq _ known]
      · simp [some, addKnown_eq _ known, Registry.updateModuleNamesFromIndex, indexed]
  have newIndex (some : registry.modulesByName_ ≠ []) : Indexes (registry.modules_ ++ modules)
      (registry.modules_ ++ modules).length (indexed (registry.modules_ ++ modules)
        registry.modules_.length registry.modulesByName_) := by
    have indexes := valid.index.resolve_left some
    refine Indexes.indexed ⟨fun name i found => ?_, fun i below name isName => ?_⟩ distinct
    · have isName := indexes.sound name i found
      rw [keys, map_append]
      exact getElem?_append_left (List.getElem?_eq_some_iff.1 isName).1 ▸ isName
    · rw [keys, map_append, getElem?_append_left (by simpa using below)] at isName
      exact indexes.complete i below name isName
  refine ⟨_, isNext, ⟨distinct, ?_, unknown⟩, rfl, rfl, fun some => ?_⟩
  · split_ifs with none
    · exact .inl rfl
    · exact .inr (newIndex none)
  · have nonempty := (valid.index.resolve_left some).eq_nil_iff.not.1 some
    simp only [if_neg some]
    exact (newIndex some).eq_nil_iff.not.2 (append_ne_nil_of_left_ne_nil nonempty _)

theorem Valid.moduleNames : Valid registry.moduleNames.2 ∧
    (registry.modules_ ≠ [] → registry.moduleNames.2.modulesByName_ ≠ []) := by
  have indexes : Indexes registry.modules_ registry.modules_.length
      (indexed registry.modules_ 0 registry.modulesByName_) := by
    refine Indexes.indexed ⟨fun name i found => ?_, fun i below => absurd below (Nat.not_lt_zero i)⟩
      valid.distinct
    exact (valid.index.resolve_left fun none => by simp [none] at found).sound name i found
  exact ⟨⟨valid.distinct, .inr indexes, valid.unknown⟩, indexes.eq_nil_iff.not.2⟩

theorem Valid.initialized : Valid registry.initialized ∧
    registry.initialized.modules_ = registry.modules_ ∧
    registry.initialized.unknownModules_ = registry.unknownModules_ ∧
    (registry.modules_ ≠ [] → registry.initialized.modulesByName_ ≠ []) := by
  unfold Registry.initialized
  split_ifs with unindexed
  · exact ⟨valid.moduleNames.1, rfl, rfl, valid.moduleNames.2⟩
  · exact ⟨valid, rfl, rfl, fun some none => unindexed ⟨none, some⟩⟩

theorem Valid.registerAll {all : List (List (NativeModule Constants))}
    (distinct : ∀ call ∈ registrations registry all, (keys (call.1.modules_ ++ call.2)).Nodup)
    (known : ∀ call ∈ registrations registry all,
      ∀ key ∈ keys call.2, key ∉ call.1.unknownModules_) :
    (∀ call ∈ registrations registry all, (call.1.registerModules call.2).1 = none) ∧
    ∃ next, registry.registerAll all = (none, next) ∧ Valid next ∧
      next.modules_ = registry.modules_ ++ all.flatten ∧
      next.unknownModules_ = registry.unknownModules_ ∧
      (registry.modulesByName_ ≠ [] → next.modulesByName_ ≠ []) := by
  induction all generalizing registry with
  | nil => simp [registrations, Registry.registerAll, valid]
  | cons _ all ih =>
    simp only [registrations, forall_mem_cons] at distinct known ⊢
    obtain ⟨_, isMiddle, validMiddle, modulesMiddle, unknownMiddle, someMiddle⟩ :=
      valid.registerModules distinct.1 known.1
    simp only [isMiddle] at distinct known ⊢
    obtain ⟨returned, next, isNext, validNext, modulesNext, unknownNext, someNext⟩ :=
      ih validMiddle distinct.2 known.2
    refine ⟨⟨trivial, returned⟩, next, ?_, validNext, ?_, ?_, fun some => someNext (someMiddle some)⟩
    · rw [Registry.registerAll, isMiddle]
      exact isNext
    · rw [modulesNext, modulesMiddle, flatten_cons, append_assoc]
    · rw [unknownNext, unknownMiddle]

theorem Valid.unknown_cons (missing : name ∉ keys registry.modules_) :
    Valid { registry with unknownModules_ := name :: registry.unknownModules_ } ∧
      Finds isEmpty { registry with unknownModules_ := name :: registry.unknownModules_ } name
        (.ok none) := by
  refine ⟨⟨valid.distinct, valid.index, fun key member => ?_⟩,
    fun i native isNative isKey => absurd ?_ missing, fun _ => rfl⟩
  · rintro (_ | later)
    · exact missing member
    · exact valid.unknown key member (by assumption)
  · exact mem_map.2 ⟨native, mem_of_getElem? isNative, isKey⟩

theorem Valid.getConfig {callback : Option (Registry.Callback Constants)}
    (distinct : Distinct registry (.getConfig name callback))
    (inTime : InTime registry (.getConfig name callback)) :
    Valid (registry.getConfig isEmpty name callback).2 ∧
      registry.modules_ <+: (registry.getConfig isEmpty name callback).2.modules_ ∧
      (∀ call ∈ calls registry (.getConfig name callback),
        (call.1.registerModules call.2).1 = none) ∧
      Finds isEmpty (registry.getConfig isEmpty name callback).2 name
        (registry.getConfig isEmpty name callback).1 := by
  obtain ⟨validFirst, modulesFirst, unknownFirst, someFirst⟩ := valid.initialized
  rw [← modulesFirst]
  unfold Registry.getConfig
  simp only [unknownFirst]
  have stays := prefix_rfl (l := registry.initialized.modules_)
  cases found : registry.initialized.modulesByName_.lookup name with
  | some index =>
    have uncalled : called registry (.getConfig name callback) = none := by
      cases callback <;> simp [called, found]
    exact ⟨validFirst, stays, by simp [calls, uncalled], validFirst.finds isEmpty found⟩
  | none =>
    have missing : name ∉ keys registry.initialized.modules_ := by
      intro member
      have nonempty := ne_nil_of_mem (mem_map.1 member).choose_spec.1
      exact validFirst.lookup_ne_none member (someFirst (modulesFirst ▸ nonempty)) found
    have unknown := validFirst.unknown_cons isEmpty missing
    simp only [unknownFirst] at unknown
    by_cases known : name ∈ registry.unknownModules_
    · have uncalled : called registry (.getConfig name callback) = none := by
        cases callback <;> simp [called, known]
      simp only [known, if_true]
      exact ⟨validFirst, stays, by simp [calls, uncalled], unknown.2.1, unknown.2.2⟩
    simp only [known, if_false]
    cases callback with
    | none => exact ⟨unknown.1, stays, by simp [calls, called], unknown.2⟩
    | some callback =>
      have isCalled : called registry (.getConfig name (some callback)) = some (name, callback) := by
        simp [called, found, known]
      unfold Distinct InTime at *
      simp only [calls, isCalled, Option.elim_some, Option.mem_some_iff, forall_eq'] at *
      obtain ⟨returned, next, isNext, validNext, modulesNext, -, someNext⟩ :=
        validFirst.registerAll distinct inTime.1
      simp only [isNext]
      have grows : registry.initialized.modules_ <+: next.modules_ :=
        modulesNext ▸ prefix_append _ _
      by_cases member : name ∈ keys next.modules_
      · have registered : name ∈ keys callback.registrations.flatten := by
          rw [modulesNext, keys, map_append, mem_append] at member
          exact member.resolve_left missing
        obtain ⟨isFound, nonempty⟩ := inTime.2 registered
        simp only [isFound, if_true]
        cases again : next.modulesByName_.lookup name with
        | none => exact absurd again (validNext.lookup_ne_none member (someNext (someFirst nonempty)))
        | some index => exact ⟨validNext, grows, returned, validNext.finds isEmpty again⟩
      · have unknownNext := validNext.unknown_cons isEmpty member
        simp only [validNext.lookup_eq_none member, ite_self]
        exact ⟨unknownNext.1, grows, returned, unknownNext.2⟩

theorem Valid.step {action : Action Constants} {next : Registry Constants}
    (distinct : Distinct registry action) (inTime : InTime registry action)
    (stepped : step isEmpty registry action = some next) :
    Valid next ∧ registry.modules_ <+: next.modules_ ∧ Consistent isEmpty registry action := by
  cases action with
  | registerModules =>
    obtain ⟨other, isOther, validNext, modulesNext, -⟩ := valid.registerModules
      (distinct _ (.head _)) (inTime.1 _ (.head _))
    obtain rfl : other = next := by simpa [ModuleRegistry.step, isOther] using stepped
    refine ⟨validNext, modulesNext ▸ prefix_append _ _, ?_, fun _ _ => nofun⟩
    simp [calls, isOther]
  | moduleNames =>
    cases stepped
    exact ⟨valid.moduleNames.1, prefix_rfl, by simp [calls, called], fun _ _ => nofun⟩
  | getConfig =>
    cases stepped
    obtain ⟨validNext, isPrefix, returned, finds⟩ := valid.getConfig isEmpty distinct inTime
    refine ⟨validNext, isPrefix, fun call member thrown => absurd (returned call member) thrown, ?_⟩
    rintro _ _ ⟨⟩
    exact finds

end

/-- **As long as no module is registered after it has been asked for in vain, and callbacks that
register the module that is asked for say so, and are called when there are modules, calls that throw
change nothing, modules keep their indices, and those that are registered are found.** -/
theorem lookups_stay_consistent (modules : List (NativeModule Constants))
    (actions : List (Action Constants)) (different : (keys modules).Nodup)
    (distinct : Along (step isEmpty) Distinct { modules_ := modules } actions)
    (inTime : Along (step isEmpty) InTime { modules_ := modules } actions) :
    Along (step isEmpty) (Consistent isEmpty) { modules_ := modules } actions ∧
      ∀ first second middle final, actions = first ++ second →
        run (step isEmpty) { modules_ := modules } first = some middle →
        run (step isEmpty) middle second = some final → middle.modules_ <+: final.modules_ := by
  have start : Valid { modules_ := modules } := ⟨different, .inl rfl, by simp⟩
  have both := along_and distinct inTime
  have always : Along (step isEmpty) (fun _ _ => True) { modules_ := modules } actions :=
    along_mono (fun _ _ _ => trivial) both
  constructor
  · refine (along_iff_of_allowed
      (fun _ _ _ valid allowed stepped => (valid.step isEmpty allowed.1 allowed.2 stepped).1)
      (fun registry action valid allowed => ?_) start both).1 always
    obtain ⟨next, stepped⟩ : ∃ next, step isEmpty registry action = some next := by
      cases action <;> exact ⟨_, rfl⟩
    exact iff_of_true trivial (valid.step isEmpty allowed.1 allowed.2 stepped).2.2
  · rintro first second middle final rfl ranFirst ranSecond
    obtain ⟨before, after⟩ := along_append both
    have valid : Valid middle := run_induction
      (fun _ _ _ valid allowed stepped => (valid.step isEmpty allowed.1 allowed.2 stepped).1)
      start before ranFirst
    have keeps (registry : Registry Constants) (action : Action Constants)
        (next : Registry Constants) (kept : Valid registry ∧ middle.modules_ <+: registry.modules_)
        (allowed : Distinct registry action ∧ InTime registry action)
        (stepped : step isEmpty registry action = some next) :
        Valid next ∧ middle.modules_ <+: next.modules_ :=
      have steps := kept.1.step isEmpty allowed.1 allowed.2 stepped
      ⟨steps.1, kept.2.trans steps.2.1⟩
    exact (run_induction keeps ⟨valid, prefix_rfl⟩ (after middle ranFirst) ranSecond).2

def sample (name : String) : NativeModule Bool := ⟨name.toList, true, []⟩

theorem lookups_stay_consistent_late :
    Along (step not) (Consistent not) { modules_ := [sample "RCTA"] }
      [.getConfig "C".toList none, .registerModules [sample "RKB"],
        .getConfig "D".toList (some ⟨[[sample "D"]], true⟩), .getConfig "B".toList none] :=
  (lookups_stay_consistent not _ _ (by decide +kernel) (by decide +kernel) (by decide +kernel)).1

theorem first_module_not_found : ¬ ∀ (modules : List (NativeModule Bool)) actions,
    (keys modules).Nodup → Along (step not) Distinct { modules_ := modules } actions →
    Along (step not) (Consistent not) { modules_ := modules } actions := by
  intro consistent
  have along := consistent [] [.getConfig "A".toList (some ⟨[[sample "A"]], true⟩)]
    (by decide +kernel) (by decide +kernel)
  have found := (along.1.2 _ _ rfl).1 0 (sample "A") rfl (by decide +kernel)
  change Except.ok none = Except.ok (some _) at found
  cases found

end ReactNative.ModuleRegistry

