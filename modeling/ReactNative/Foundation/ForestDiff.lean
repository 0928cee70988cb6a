import ReactNative.Foundation.EditScript

/-! A level of a recursive diff compares two sibling lists and hands matching children to recursive
jobs. -/
namespace KeyedTree

open List

variable {α κ : Type} [DecidableEq κ] (key : α → κ) (blank : α)

/-! ### Triples -/

structure Ready (table : Table α κ) (root : κ) (old new : List (Tree α)) : Prop where
  parent : ∃ label, table root = some ⟨label, rootKeys key old⟩
  holds : ∀ node ∈ forestNodes old,
    table (key node.label) = some ⟨node.label, rootKeys key node.children⟩
  fresh : ∀ k ∈ keys key new, k ∉ keys key old → table k = none

structure Patched (table result : Table α κ) (root : κ) (old new : List (Tree α)) : Prop where
  parent : ∀ entry, table root = some entry → result root = some ⟨entry.label, rootKeys key new⟩
  holds : ∀ node ∈ forestNodes new,
    result (key node.label) = some ⟨node.label, rootKeys key node.children⟩
  gone : ∀ k ∈ keys key old, k ∉ keys key new → result k = none

structure Job (α κ : Type) where
  root : κ
  old : List (Tree α)
  new : List (Tree α)
  edits : List (Edit α κ)

def Job.Covers (job : Job α κ) (k : κ) : Prop :=
  k = job.root ∨ k ∈ keys key job.old ∨ k ∈ keys key job.new

def Transforms (job : Job α κ) : Prop :=
  ∀ table, Ready key table job.root job.old job.new →
    ∃ result, run key blank job.edits table = some result ∧
      Patched key table result job.root job.old job.new ∧
      ∀ k, ¬ job.Covers key k → result k = table k

variable {key blank} {table other : Table α κ} {job : Job α κ}

omit [DecidableEq κ] in
theorem Ready.congr (ready : Ready key table job.root job.old job.new)
    (agree : ∀ k, job.Covers key k → other k = table k) :
    Ready key other job.root job.old job.new := by
  obtain ⟨label, parent⟩ := ready.parent
  refine ⟨⟨label, (agree _ (.inl rfl)).trans parent⟩, ?_, ?_⟩
  · intro node member
    rw [agree _ (.inr (.inl (mem_keys.mpr ⟨node, member, rfl⟩)))]
    exact ready.holds node member
  · intro k inNew notOld
    rw [agree k (.inr (.inr inNew))]
    exact ready.fresh k inNew notOld

omit [DecidableEq κ] in
theorem Patched.congr {result final : Table α κ}
    (patched : Patched key table result job.root job.old job.new)
    (before : other job.root = table job.root)
    (after : ∀ k, job.Covers key k → final k = result k) :
    Patched key other final job.root job.old job.new := by
  refine ⟨?_, ?_, ?_⟩
  · intro entry found
    rw [after _ (.inl rfl)]
    exact patched.parent entry (before ▸ found)
  · intro node member
    rw [after _ (.inr (.inr (mem_keys.mpr ⟨node, member, rfl⟩)))]
    exact patched.holds node member
  · intro k inOld notNew
    rw [after k (.inr (.inl inOld))]
    exact patched.gone k inOld notNew

theorem run_jobs (jobs : List (Job α κ)) (table : Table α κ)
    (each : ∀ job ∈ jobs, Transforms key blank job)
    (apart : jobs.Pairwise fun a b => ∀ k, a.Covers key k → ¬ b.Covers key k)
    (ready : ∀ job ∈ jobs, Ready key table job.root job.old job.new) :
    ∃ result, run key blank (jobs.flatMap Job.edits) table = some result ∧
      (∀ job ∈ jobs, Patched key table result job.root job.old job.new) ∧
      ∀ k, (∀ job ∈ jobs, ¬ job.Covers key k) → result k = table k := by
  induction jobs generalizing table with
  | nil => exact ⟨table, rfl, by simp, fun _ _ => rfl⟩
  | cons first rest ih =>
    obtain ⟨firstApart, restApart⟩ := pairwise_cons.mp apart
    obtain ⟨middle, ranFirst, patchedFirst, frameFirst⟩ :=
      each first (by simp) table (ready first (by simp))
    have unchanged : ∀ job ∈ rest, ∀ k, job.Covers key k → middle k = table k :=
      fun job member k covers => frameFirst k fun inFirst => firstApart job member k inFirst covers
    obtain ⟨result, ranRest, patchedRest, frameRest⟩ :=
      ih middle (fun job member => each job (by simp [member])) restApart
        (fun job member => (ready job (by simp [member])).congr (unchanged job member))
    have untouched : ∀ k, first.Covers key k → result k = middle k := fun k covers =>
      frameRest k fun job member inJob => firstApart job member k covers inJob
    refine ⟨result, run_trans ranFirst ranRest, ?_, ?_⟩
    · intro job member
      rcases mem_cons.mp member with rfl | later
      · exact patchedFirst.congr rfl untouched
      · exact (patchedRest job later).congr (unchanged job later _ (.inl rfl)).symm (fun _ _ => rfl)
    · intro k outside
      rw [frameRest k fun job member => outside job (by simp [member])]
      exact frameFirst k (outside first (by simp))

/-! ### Levels -/

variable (key)

/-- What one level collects, in the order in which it is emitted. Removals are
collected by ascending index and emitted in reverse. -/
structure Plan (α κ : Type) where
  kept : κ → Bool
  destructive : List (Job α κ)
  updates : List α
  removes : List (Tree α × Nat)
  deletes : List (Tree α)
  creates : List (Tree α)
  downward : List (Job α κ)
  inserts : List (Tree α × Nat)

def Plan.edits (plan : Plan α κ) (root : κ) : List (Edit α κ) :=
  plan.destructive.flatMap Job.edits ++
  plan.updates.map .update ++
  plan.removes.reverse.map (fun r => .remove root (key r.1.label) r.2) ++
  (rootKeys key plan.deletes).map .delete ++
  (rootKeys key plan.creates).map .create ++
  plan.downward.flatMap Job.edits ++
  plan.inserts.map (fun r => .insert root r.1.label r.2)

def Dies (new : List (Tree α)) (o : Tree α) : Prop :=
  key o.label ∉ rootKeys key new ∨ ∃ n ∈ new, key n.label = key o.label ∧ n.children = []

structure Plan.Fits (stray : List κ) (old new : List (Tree α)) (plan : Plan α κ) : Prop where
  removes_eq : plan.removes = old.zipIdx.filter fun r => !plan.kept (key r.1.label)
  inserts_eq : plan.inserts = new.zipIdx.filter fun r => !plan.kept (key r.1.label)
  kept_eq : (rootKeys key old).filter plan.kept = (rootKeys key new).filter plan.kept
  updates_mem : ∀ label ∈ plan.updates, ∃ o ∈ old, ∃ n ∈ new,
    key o.label = key n.label ∧ n.label = label
  updates_kept : ∀ o ∈ old, ∀ n ∈ new, key o.label = key n.label → plan.kept (key n.label) →
    o.label = n.label ∨ n.label ∈ plan.updates
  deletes_iff : ∀ o, o ∈ plan.deletes ↔ o ∈ old ∧ key o.label ∉ rootKeys key new
  deletes_nodup : (rootKeys key plan.deletes).Nodup
  creates_iff : ∀ n, n ∈ plan.creates ↔
    n ∈ new ∧ (key n.label ∉ rootKeys key old ∨ key n.label ∈ stray)
  creates_nodup : stray = [] → (rootKeys key plan.creates).Nodup
  destructive_mem : ∀ job ∈ plan.destructive, job.new = [] ∧
    ∃ o ∈ old, job.root = key o.label ∧ job.old = o.children ∧ Dies key new o
  destructive_nodup : (plan.destructive.map Job.root).Nodup
  deletes_job : ∀ o ∈ plan.deletes, ∃ job ∈ plan.destructive, job.root = key o.label
  downward_mem : ∀ job ∈ plan.downward, ∃ n ∈ new, job.root = key n.label ∧ job.new = n.children ∧
    ((∃ o ∈ old, key o.label = key n.label ∧ job.old = o.children ∧ n.children ≠ []) ∨
      (n ∈ plan.creates ∧ job.old = []))
  downward_nodup : stray = [] → (plan.downward.map Job.root).Nodup
  creates_job : ∀ n ∈ plan.creates, ∃ job ∈ plan.downward,
    job.root = key n.label ∧ job.old = [] ∧ job.new = n.children
  matched_job : ∀ o ∈ old, ∀ n ∈ new, key o.label = key n.label → o.children = n.children ∨
    (n.children = [] ∧ ∃ job ∈ plan.destructive, job.root = key o.label) ∨
    (n.children ≠ [] ∧ ∃ job ∈ plan.downward,
      job.root = key n.label ∧ job.old = o.children ∧ job.new = n.children)

variable (stray : List κ → List κ → List κ)

inductive Diff : κ → List (Tree α) → List (Tree α) → List (Edit α κ) → Prop
  | empty (root : κ) : Diff root [] [] []
  | level {root : κ} {old new : List (Tree α)} (plan : Plan α κ)
      (fits : plan.Fits key (stray (rootKeys key old) (rootKeys key new)) old new)
      (jobs : ∀ job ∈ plan.destructive ++ plan.downward, Diff job.root job.old job.new job.edits) :
      Diff root old new (plan.edits key root)

/-- The sibling lists a diff compares: the two forests, and the children of
equal keys in lists it compares. -/
inductive Compared : List (Tree α) → List (Tree α) → List (Tree α) → List (Tree α) → Prop
  | here (old new : List (Tree α)) : Compared old new old new
  | inside {old new old' new' : List (Tree α)} {o n : Tree α} (oldMem : o ∈ old) (newMem : n ∈ new)
      (same : key o.label = key n.label) (deeper : Compared o.children n.children old' new') :
      Compared old new old' new'

def NoStray (old new : List (Tree α)) : Prop :=
  ∀ old' new', Compared key old new old' new' → stray (rootKeys key old') (rootKeys key new') = []

def NoEscape (old new : List (Tree α)) : Prop :=
  ∀ a ∈ forestNodes old, ∀ b ∈ forestNodes new, key a.label = key b.label → b.children ≠ [] →
    ∀ k ∈ keys key a.children, k ∈ keys key new → k ∈ keys key b.children

variable {key stray}

omit [DecidableEq κ] in
theorem NoEscape.children {old new : List (Tree α)} (noEscape : NoEscape key old new)
    {o n : Tree α} (oldMem : o ∈ old) (newMem : n ∈ new) : NoEscape key o.children n.children := by
  intro a ha b hb same nonempty k below inNew
  exact noEscape a (below_mem_forestNodes oldMem ha) b (below_mem_forestNodes newMem hb) same
    nonempty k below (below_mem_keys newMem inNew)

/-- A level whose forests have distinct keys, let no key escape and create no stray key. -/
structure Level (key : α → κ) (root : κ) (old new : List (Tree α)) (plan : Plan α κ) : Prop where
  fits : plan.Fits key [] old new
  distinctOld : Distinct key root old
  distinctNew : Distinct key root new
  noEscape : NoEscape key old new

omit [DecidableEq κ] in
theorem survives {new : List (Tree α)} {o : Tree α} (alive : ¬ Dies key new o) :
    ∃ n ∈ new, key n.label = key o.label ∧ n.children ≠ [] := by
  simp only [Dies, not_or, not_not, not_exists, not_and] at alive
  obtain ⟨n, newMem, same⟩ := mem_rootKeys.mp alive.1
  exact ⟨n, newMem, same, alive.2 n newMem same⟩

namespace Level

variable {root : κ} {old new : List (Tree α)} {plan : Plan α κ} {o n : Tree α}

variable (level : Level key root old new plan)
include level

section

omit [DecidableEq κ]

/-- Keys below a surviving old child that still exist are below its new version. -/
theorem stays_below {k : κ} (oldMem : o ∈ old)
    (newMem : n ∈ new) (same : key o.label = key n.label) (nonempty : n.children ≠ [])
    (below : k ∈ keys key o.children) (inNew : k ∈ keys key new) : k ∈ keys key n.children :=
  level.noEscape o (root_mem_forestNodes oldMem) n (root_mem_forestNodes newMem) same nonempty
    k below inNew

theorem not_dies (newMem : n ∈ new)
    (same : key o.label = key n.label) (nonempty : n.children ≠ []) : ¬ Dies key new o := by
  rintro (gone | ⟨m, otherMem, sameOther, emptyOther⟩)
  · exact gone (mem_rootKeys.mpr ⟨n, newMem, same.symm⟩)
  · exact nonempty (level.distinctNew.tree_unique newMem otherMem
      (same.symm.trans sameOther.symm) ▸ emptyOther)

theorem mem_creates :
    n ∈ plan.creates ↔ n ∈ new ∧ key n.label ∉ rootKeys key old := by
  simpa using level.fits.creates_iff n

theorem destructive_covers {k : κ} (member : job ∈ plan.destructive) (covers : job.Covers key k) :
    job.new = [] ∧ ∃ o ∈ old, job.root = key o.label ∧ job.old = o.children ∧ Dies key new o ∧
      (key o.label = k ∨ k ∈ keys key o.children) := by
  obtain ⟨empty, o, oldMem, jobRoot, jobOld, dies⟩ := level.fits.destructive_mem job member
  refine ⟨empty, o, oldMem, jobRoot, jobOld, dies, ?_⟩
  simpa [Job.Covers, empty, jobRoot, jobOld, eq_comm] using covers

theorem destructive_apart :
    plan.destructive.Pairwise fun a b => ∀ k, a.Covers key k → ¬ b.Covers key k := by
  have distinct := level.fits.destructive_nodup
  rw [List.Nodup, pairwise_map] at distinct
  refine distinct.imp_of_mem ?_
  intro a b memA memB differ k inA inB
  obtain ⟨-, _, oaMem, rootA, -, -, regionA⟩ := level.destructive_covers memA inA
  obtain ⟨-, _, obMem, rootB, -, -, regionB⟩ := level.destructive_covers memB inB
  exact differ (by rw [rootA, rootB, level.distinctOld.region_unique oaMem obMem regionA regionB])

end

theorem after_destructive (table : Table α κ) (ready : Ready key table root old new)
    (each : ∀ job ∈ plan.destructive, Transforms key blank job) :
    ∃ result, run key blank (plan.destructive.flatMap Job.edits) table = some result ∧
      (∀ o ∈ old, Dies key new o → result (key o.label) = some ⟨o.label, []⟩ ∧
        ∀ k ∈ keys key o.children, result k = none) ∧
      (∀ o ∈ old, ¬ Dies key new o →
        result (key o.label) = some ⟨o.label, rootKeys key o.children⟩ ∧
        ∀ node ∈ forestNodes o.children,
          result (key node.label) = some ⟨node.label, rootKeys key node.children⟩) ∧
      ∀ k, k ∉ keys key old → result k = table k := by
  have jobReady : ∀ job ∈ plan.destructive, Ready key table job.root job.old job.new := by
    intro job member
    obtain ⟨empty, o, oldMem, jobRoot, jobOld, -⟩ := level.fits.destructive_mem job member
    rw [empty, jobRoot, jobOld]
    refine ⟨⟨o.label, ready.holds o (root_mem_forestNodes oldMem)⟩, ?_, by simp⟩
    exact fun node below => ready.holds node (below_mem_forestNodes oldMem below)
  obtain ⟨result, ran, patched, frame⟩ :=
    run_jobs plan.destructive table each level.destructive_apart jobReady
  -- A destructive job can only cover the region of the dying child it belongs to.
  have owner : ∀ job ∈ plan.destructive, ∀ o ∈ old, ∀ k,
      (key o.label = k ∨ k ∈ keys key o.children) → job.Covers key k →
      job.root = key o.label ∧ job.old = o.children ∧ job.new = [] ∧ Dies key new o := by
    intro job member o oldMem k inside covers
    obtain ⟨empty, _, oldMem', jobRoot, jobOld, dies, region⟩ :=
      level.destructive_covers member covers
    obtain rfl := level.distinctOld.region_unique oldMem oldMem' inside region
    exact ⟨jobRoot, jobOld, empty, dies⟩
  refine ⟨result, ran, ?_, ?_, ?_⟩
  · intro o oldMem dies
    by_cases found : ∃ job ∈ plan.destructive, job.root = key o.label
    · obtain ⟨job, member, jobRoot⟩ := found
      obtain ⟨-, jobOld, empty, -⟩ := owner job member o oldMem _ (.inl rfl) (.inl jobRoot.symm)
      have facts := patched job member
      rw [jobRoot, jobOld, empty] at facts
      exact ⟨facts.parent _ (ready.holds o (root_mem_forestNodes oldMem)),
        fun k below => facts.gone k below (by simp)⟩
    · have childless : o.children = [] := by
        rcases dies with deleted | ⟨n, newMem, same, empty⟩
        · exact absurd (level.fits.deletes_job o ((level.fits.deletes_iff o).mpr ⟨oldMem, deleted⟩))
            found
        · rcases level.fits.matched_job o oldMem n newMem same.symm with equal | ⟨-, job⟩ | ⟨full, -⟩
          · exact equal.trans empty
          · exact absurd job found
          · exact absurd empty full
      refine ⟨?_, by simp [childless]⟩
      rw [frame (key o.label) fun job member covers => found ⟨job, member,
        (owner job member o oldMem _ (.inl rfl) covers).1⟩,
        ready.holds o (root_mem_forestNodes oldMem), childless, rootKeys_nil]
  · intro o oldMem alive
    have untouched : ∀ k, (key o.label = k ∨ k ∈ keys key o.children) → result k = table k :=
      fun k inside => frame k fun job member covers =>
        alive (owner job member o oldMem k inside covers).2.2.2
    refine ⟨?_, ?_⟩
    · rw [untouched _ (.inl rfl)]
      exact ready.holds o (root_mem_forestNodes oldMem)
    · intro node below
      rw [untouched _ (.inr (mem_keys.mpr ⟨node, below, rfl⟩))]
      exact ready.holds node (below_mem_forestNodes oldMem below)
  · intro k outside
    refine frame k fun job member covers => outside ?_
    obtain ⟨-, o, oldMem, -, -, -, region⟩ := level.destructive_covers member covers
    exact mem_keys_roots.mpr ⟨o, oldMem, region⟩

section

omit [DecidableEq κ]

theorem root_not_old (oldMem : o ∈ old) :
    key o.label ≠ root :=
  level.distinctOld.ne_root (rootKey_mem_keys oldMem)

theorem root_not_new (newMem : n ∈ new) :
    key n.label ≠ root :=
  level.distinctNew.ne_root (rootKey_mem_keys newMem)

theorem updated_iff (newMem : n ∈ new) :
    key n.label ∈ plan.updates.map key ↔ n.label ∈ plan.updates := by
  constructor
  · intro member
    obtain ⟨label, labelMem, same⟩ := mem_map.mp member
    obtain ⟨-, -, m, otherMem, -, rfl⟩ := level.fits.updates_mem label labelMem
    rw [← level.distinctNew.tree_unique otherMem newMem same]
    exact labelMem
  · exact fun member => mem_map.mpr ⟨n.label, member, rfl⟩

end

variable (blank) in
/-- Updates, removals, deletions and creations touch only the two sibling lists
and the child list of their parent. -/
theorem after_siblings (table : Table α κ) (label : α)
    (parent : table root = some ⟨label, rootKeys key old⟩)
    (present : ∀ o ∈ old, ∃ kids, table (key o.label) = some ⟨o.label, kids⟩)
    (absent : ∀ n ∈ new, key n.label ∉ rootKeys key old → table (key n.label) = none) :
    ∃ result, run key blank (plan.updates.map .update ++
          plan.removes.reverse.map (fun r => .remove root (key r.1.label) r.2) ++
          (rootKeys key plan.deletes).map .delete ++
          (rootKeys key plan.creates).map .create) table = some result ∧
      result root = some ⟨label, (rootKeys key old).filter plan.kept⟩ ∧
      (∀ o ∈ old, ∀ n ∈ new, key o.label = key n.label → ∀ kids,
        table (key o.label) = some ⟨o.label, kids⟩ → ∃ written,
          result (key n.label) = some ⟨written, kids⟩ ∧
          (plan.kept (key n.label) → written = n.label)) ∧
      (∀ o ∈ old, key o.label ∉ rootKeys key new → result (key o.label) = none) ∧
      (∀ n ∈ new, key n.label ∉ rootKeys key old → result (key n.label) = some ⟨blank, []⟩) ∧
      ∀ k, k ≠ root → k ∉ rootKeys key old → k ∉ rootKeys key new → result k = table k := by
  have fits := level.fits
  obtain ⟨t₂, ran₂, frame₂, written₂⟩ := run_updates key blank plan.updates table
    (fun a member => by
      obtain ⟨o, oldMem, n, newMem, same, rfl⟩ := fits.updates_mem a member
      obtain ⟨kids, found⟩ := present o oldMem
      exact ⟨_, same ▸ found⟩)
    (fun a ha b hb same => by
      obtain ⟨-, -, n, newMem, -, rfl⟩ := fits.updates_mem a ha
      obtain ⟨-, -, m, otherMem, -, rfl⟩ := fits.updates_mem b hb
      rw [level.distinctNew.tree_unique newMem otherMem same])
  have updatesOld : ∀ k ∈ plan.updates.map key, k ∈ rootKeys key old ∧ k ∈ rootKeys key new := by
    intro k member
    obtain ⟨a, aMem, rfl⟩ := mem_map.mp member
    obtain ⟨o, oldMem, n, newMem, same, rfl⟩ := fits.updates_mem a aMem
    exact ⟨mem_rootKeys.mpr ⟨o, oldMem, same⟩, mem_rootKeys.mpr ⟨n, newMem, rfl⟩⟩
  -- After the updates every old sibling still carries a label with its own key.
  have label₂ : ∀ o ∈ old, ∀ kids, table (key o.label) = some ⟨o.label, kids⟩ →
      ∃ written, t₂ (key o.label) = some ⟨written, kids⟩ ∧ key written = key o.label ∧
        ∀ n ∈ new, key o.label = key n.label → plan.kept (key n.label) → written = n.label := by
    intro o oldMem kids found
    by_cases updated : key o.label ∈ plan.updates.map key
    · obtain ⟨a, aMem, same⟩ := mem_map.mp updated
      refine ⟨a, ?_, same, ?_⟩
      · rw [← same]
        exact written₂ a aMem ⟨o.label, kids⟩ (by rw [same]; exact found)
      · intro n newMem sameNew _
        obtain ⟨-, -, m, otherMem, -, rfl⟩ := fits.updates_mem a aMem
        rw [level.distinctNew.tree_unique otherMem newMem (same.trans sameNew)]
    · refine ⟨o.label, by rw [frame₂ _ updated]; exact found, rfl, ?_⟩
      intro n newMem same keep
      rcases fits.updates_kept o oldMem n newMem same keep with equal | member
      · exact equal
      · exact absurd (same ▸ (level.updated_iff newMem).mpr member) updated
  have root₂ : t₂ root = some ⟨label, rootKeys key old ++ []⟩ := by
    rw [frame₂ root fun member => level.distinctOld.root_not_mem
      (rootKeys_subset (updatesOld root member).1), parent, append_nil]
  have ran₃ := run_removes key blank root label plan.kept old [] t₂ root₂
    (fun o oldMem => by
      obtain ⟨kids, found⟩ := present o oldMem
      obtain ⟨written, now, same, -⟩ := label₂ o oldMem kids found
      exact ⟨level.root_not_old oldMem, _, now, same⟩)
  rw [← fits.removes_eq, append_nil] at ran₃
  generalize t₃_eq : Function.update t₂ root
    (some ⟨label, (rootKeys key old).filter plan.kept⟩) = t₃ at ran₃
  have off₃ : ∀ k, k ≠ root → t₃ k = t₂ k := by
    intro k notRoot
    rw [← t₃_eq, Function.update_of_ne notRoot]
  have deletesOld : ∀ k ∈ rootKeys key plan.deletes, k ∈ rootKeys key old ∧
      k ∉ rootKeys key new := by
    intro k member
    obtain ⟨o, oMem, rfl⟩ := mem_rootKeys.mp member
    obtain ⟨oldMem, gone⟩ := (fits.deletes_iff o).mp oMem
    exact ⟨mem_rootKeys.mpr ⟨o, oldMem, rfl⟩, gone⟩
  have createsNew : ∀ k ∈ rootKeys key plan.creates, k ∈ rootKeys key new ∧
      k ∉ rootKeys key old := by
    intro k member
    obtain ⟨n, nMem, rfl⟩ := mem_rootKeys.mp member
    obtain ⟨newMem, gone⟩ := level.mem_creates.mp nMem
    exact ⟨mem_rootKeys.mpr ⟨n, newMem, rfl⟩, gone⟩
  obtain ⟨t₄, ran₄, frame₄, gone₄⟩ := run_deletes key blank
    (rootKeys key plan.deletes) t₃ fits.deletes_nodup (by
      intro k member
      obtain ⟨o, oMem, rfl⟩ := mem_rootKeys.mp member
      have oldMem := ((fits.deletes_iff o).mp oMem).1
      obtain ⟨kids, found⟩ := present o oldMem
      obtain ⟨written, now, -⟩ := label₂ o oldMem kids found
      exact ⟨_, by rw [off₃ _ (level.root_not_old oldMem)]; exact now⟩)
  obtain ⟨t₅, ran₅, frame₅, made₅⟩ := run_creates key blank
    (rootKeys key plan.creates) t₄ (fits.creates_nodup rfl) (by
      intro k member
      obtain ⟨n, nMem, rfl⟩ := mem_rootKeys.mp member
      have facts := createsNew _ member
      have newMem := (level.mem_creates.mp nMem).1
      rw [frame₄ _ fun deleted => facts.2 (deletesOld _ deleted).1,
        off₃ _ (level.root_not_new newMem),
        frame₂ _ fun updated => facts.2 (updatesOld _ updated).1]
      exact absent n newMem facts.2)
  refine ⟨t₅, run_trans (run_trans (run_trans ran₂ ran₃) ran₄) ran₅, ?_, ?_, ?_, ?_, ?_⟩
  · rw [frame₅ root fun member => level.distinctNew.root_not_mem
        (rootKeys_subset (createsNew root member).1),
      frame₄ root fun member => level.distinctOld.root_not_mem
        (rootKeys_subset (deletesOld root member).1),
      ← t₃_eq, Function.update_self]
  · intro o oldMem n newMem same kids found
    obtain ⟨written, now, -, exact⟩ := label₂ o oldMem kids found
    refine ⟨written, ?_, exact n newMem same⟩
    rw [frame₅ _ fun created => (createsNew _ created).2 (mem_rootKeys.mpr ⟨o, oldMem, same⟩),
      frame₄ _ fun deleted => (deletesOld _ deleted).2 (mem_rootKeys.mpr ⟨n, newMem, rfl⟩),
      off₃ _ (level.root_not_new newMem), ← same]
    exact now
  · intro o oldMem gone
    rw [frame₅ _ fun created => gone (createsNew _ created).1]
    exact gone₄ _ (mem_rootKeys.mpr ⟨o, (fits.deletes_iff o).mpr ⟨oldMem, gone⟩, rfl⟩)
  · intro n newMem fresh
    exact made₅ _ (mem_rootKeys.mpr ⟨n, level.mem_creates.mpr ⟨newMem, fresh⟩, rfl⟩)
  · intro k notRoot notOld notNew
    rw [frame₅ k fun created => notNew (createsNew k created).1,
      frame₄ k fun deleted => notOld (deletesOld k deleted).1, off₃ k notRoot,
      frame₂ k fun updated => notOld (updatesOld k updated).1]

theorem before_downward (table : Table α κ) (label : α)
    (parent : table root = some ⟨label, rootKeys key old⟩) (ready : Ready key table root old new)
    (each : ∀ job ∈ plan.destructive, Transforms key blank job) :
    ∃ result, run key blank (plan.destructive.flatMap Job.edits ++ (plan.updates.map .update ++
          plan.removes.reverse.map (fun r => .remove root (key r.1.label) r.2) ++
          (rootKeys key plan.deletes).map .delete ++
          (rootKeys key plan.creates).map .create)) table = some result ∧
      result root = some ⟨label, (rootKeys key old).filter plan.kept⟩ ∧
      (∀ o ∈ old, ∀ n ∈ new, key o.label = key n.label → ∃ written, result (key n.label) =
          some ⟨written, if n.children = [] then [] else rootKeys key o.children⟩ ∧
        (plan.kept (key n.label) → written = n.label)) ∧
      (∀ n ∈ new, key n.label ∉ rootKeys key old → result (key n.label) = some ⟨blank, []⟩) ∧
      (∀ o ∈ old, ∀ n ∈ new, key o.label = key n.label → n.children ≠ [] →
        ∀ node ∈ forestNodes o.children,
          result (key node.label) = some ⟨node.label, rootKeys key node.children⟩) ∧
      (∀ n ∈ new, ∀ k ∈ keys key n.children,
        (∀ o ∈ old, key o.label = key n.label → k ∉ keys key o.children) → result k = none) ∧
      (∀ o ∈ old, Dies key new o → ∀ k, (key o.label = k ∨ k ∈ keys key o.children) →
        k ∉ keys key new → result k = none) ∧
      ∀ k, k ≠ root → k ∉ keys key old → k ∉ keys key new → result k = table k := by
  -- The destructive jobs first: they empty the subtrees of all children that die.
  obtain ⟨t₁, ran₁, dead₁, alive₁, frame₁⟩ := level.after_destructive table ready each
  have kids₁ : ∀ o ∈ old, ∀ n ∈ new, key o.label = key n.label → t₁ (key o.label) =
      some ⟨o.label, if n.children = [] then [] else rootKeys key o.children⟩ := by
    -- A matched child without new children has lost its old ones.
    intro o oldMem n newMem same
    by_cases empty : n.children = []
    · rw [if_pos empty]
      exact (dead₁ o oldMem (.inr ⟨n, newMem, same.symm, empty⟩)).1
    · rw [if_neg empty]
      exact (alive₁ o oldMem (level.not_dies newMem same empty)).1
  -- A key that is new here has been given up by whoever had it.
  have free₁ : ∀ n ∈ new, ∀ k, (key n.label = k ∨ k ∈ keys key n.children) → k ∉ rootKeys key old →
      (∀ o ∈ old, key o.label = key n.label → k ∉ keys key o.children) → t₁ k = none := by
    intro n newMem k inside notRoot elsewhere
    have inNew : k ∈ keys key new := mem_keys_roots.mpr ⟨n, newMem, inside⟩
    by_cases inOld : k ∈ keys key old
    · obtain ⟨o, oldMem, here | below⟩ := mem_keys_roots.mp inOld
      · exact absurd (mem_rootKeys.mpr ⟨o, oldMem, here⟩) notRoot
      · by_cases dies : Dies key new o
        · exact (dead₁ o oldMem dies).2 k below
        · -- A survivor keeps the key, so it is the very child we look at.
          obtain ⟨m, otherMem, same, nonempty⟩ := survives dies
          have kept := level.stays_below oldMem otherMem same.symm nonempty below inNew
          have equal := level.distinctNew.region_unique otherMem newMem (.inr kept) inside
          exact absurd below (elsewhere o oldMem (equal ▸ same.symm))
    · rw [frame₁ k inOld]
      exact ready.fresh k inNew inOld
  have parent₁ : t₁ root = some ⟨label, rootKeys key old⟩ := by
    rw [frame₁ root level.distinctOld.root_not_mem]
    exact parent
  -- Then the edits among the siblings, which touch the roots only.
  obtain ⟨t₅, ran₅, root₅, matched₅, deleted₅, created₅, frame₅⟩ :=
    level.after_siblings blank t₁ label parent₁
      (fun o oldMem => by
        by_cases dies : Dies key new o
        · exact ⟨[], (dead₁ o oldMem dies).1⟩
        · exact ⟨_, (alive₁ o oldMem dies).1⟩)
      (fun n newMem fresh => free₁ n newMem _ (.inl rfl) fresh fun o oldMem same =>
        absurd (mem_rootKeys.mpr ⟨o, oldMem, same⟩) fresh)
  refine ⟨t₅, run_trans ran₁ ran₅, root₅, ?_, created₅, ?_, ?_, ?_, ?_⟩
  · intro o oldMem n newMem same
    exact matched₅ o oldMem n newMem same _ (kids₁ o oldMem n newMem same)
  · intro o oldMem n newMem same nonempty node below
    have inside : key node.label ∈ keys key o.children := mem_keys.mpr ⟨node, below, rfl⟩
    have notNew (member : key node.label ∈ rootKeys key new) : False :=
      level.distinctNew.below_not_rootKey newMem
        (level.stays_below oldMem newMem same nonempty inside (rootKeys_subset member)) member
    rw [frame₅ _ (level.distinctOld.ne_root (below_mem_keys oldMem inside))
      (level.distinctOld.below_not_rootKey oldMem inside) notNew]
    exact (alive₁ o oldMem (level.not_dies newMem same nonempty)).2 node below
  · intro n newMem k below elsewhere
    have notNew := level.distinctNew.below_not_rootKey newMem below
    by_cases inRoots : k ∈ rootKeys key old
    · obtain ⟨o, oldMem, rfl⟩ := mem_rootKeys.mp inRoots
      exact deleted₅ o oldMem notNew
    · rw [frame₅ k (level.distinctNew.ne_root (below_mem_keys newMem below)) inRoots notNew]
      exact free₁ n newMem k (.inr below) inRoots elsewhere
  · intro o oldMem dies k inside notNew
    have notNewRoot : k ∉ rootKeys key new := fun member => notNew (rootKeys_subset member)
    rcases inside with rfl | below
    · exact deleted₅ o oldMem notNewRoot
    · rw [frame₅ k (level.distinctOld.ne_root (below_mem_keys oldMem below))
        (level.distinctOld.below_not_rootKey oldMem below) notNewRoot]
      exact (dead₁ o oldMem dies).2 k below
  · intro k notRoot notOld notNew
    rw [frame₅ k notRoot (fun member => notOld (rootKeys_subset member))
      (fun member => notNew (rootKeys_subset member)), frame₁ k notOld]

omit [DecidableEq κ] in
/-- A downward job covers keys of its new child, and what is gone of its old one. -/
theorem downward_covers {k : κ} (member : job ∈ plan.downward) (covers : job.Covers key k) :
    ∃ n ∈ new, job.root = key n.label ∧ ((key n.label = k ∨ k ∈ keys key n.children) ∨
      k ∉ keys key new ∧ ∃ o ∈ old, key o.label = key n.label ∧ ¬ Dies key new o ∧
        k ∈ keys key o.children) := by
  obtain ⟨n, newMem, jobRoot, jobNew, kind⟩ := level.fits.downward_mem job member
  refine ⟨n, newMem, jobRoot, ?_⟩
  rcases covers with here | inOld | below
  · exact .inl (.inl (jobRoot ▸ here.symm))
  · rcases kind with ⟨o, oldMem, same, jobOld, nonempty⟩ | ⟨-, jobOld⟩
    · rw [jobOld] at inOld
      by_cases inNew : k ∈ keys key new
      · exact .inl (.inr (level.stays_below oldMem newMem same nonempty inOld inNew))
      · exact .inr ⟨inNew, o, oldMem, same, level.not_dies newMem same nonempty, inOld⟩
    · simp [jobOld] at inOld
  · exact .inl (.inr (jobNew ▸ below))

omit [DecidableEq κ] in
theorem downward_apart :
    plan.downward.Pairwise fun a b => ∀ k, a.Covers key k → ¬ b.Covers key k := by
  have distinct := level.fits.downward_nodup rfl
  rw [List.Nodup, pairwise_map] at distinct
  refine distinct.imp_of_mem ?_
  intro a b memA memB differ k inA inB
  obtain ⟨na, naMem, rootA, regionA⟩ := level.downward_covers memA inA
  obtain ⟨nb, nbMem, rootB, regionB⟩ := level.downward_covers memB inB
  refine differ ?_
  rw [rootA, rootB]
  rcases regionA with regionA | ⟨goneA, oa, oaMem, sameA, -, belowA⟩ <;>
    rcases regionB with regionB | ⟨goneB, ob, obMem, sameB, -, belowB⟩
  · rw [level.distinctNew.region_unique naMem nbMem regionA regionB]
  · exact absurd (mem_keys_roots.mpr ⟨na, naMem, regionA⟩) goneB
  · exact absurd (mem_keys_roots.mpr ⟨nb, nbMem, regionB⟩) goneA
  · rw [← sameA, ← sameB,
      level.distinctOld.region_unique oaMem obMem (.inr belowA) (.inr belowB)]

theorem transforms (each : ∀ job ∈ plan.destructive ++ plan.downward, Transforms key blank job) :
    Transforms key blank ⟨root, old, new, plan.edits key root⟩ := by
  intro table ready
  obtain ⟨label, parent⟩ := ready.parent
  obtain ⟨t₅, ran₅, root₅, matched₅, created₅, alive₅, free₅, dead₅, frame₅⟩ :=
    level.before_downward table label parent ready (fun job member => each job (by simp [member]))
  have jobReady : ∀ job ∈ plan.downward, Ready key t₅ job.root job.old job.new := by
    intro job member
    obtain ⟨n, newMem, jobRoot, jobNew, ⟨o, oldMem, same, jobOld, nonempty⟩ | ⟨made, jobOld⟩⟩ :=
      level.fits.downward_mem job member
    · rw [jobRoot, jobNew, jobOld]
      obtain ⟨written, now, -⟩ := matched₅ o oldMem n newMem same
      rw [if_neg nonempty] at now
      refine ⟨⟨written, now⟩, alive₅ o oldMem n newMem same nonempty, ?_⟩
      intro k below notOld
      refine free₅ n newMem k below fun o' otherMem sameOther => ?_
      rw [level.distinctOld.tree_unique otherMem oldMem (sameOther.trans same.symm)]
      exact notOld
    · have fresh := (level.mem_creates.mp made).2
      rw [jobRoot, jobNew, jobOld]
      refine ⟨⟨blank, created₅ n newMem fresh⟩, by simp, ?_⟩
      intro k below _
      exact free₅ n newMem k below fun o oldMem same =>
        absurd (mem_rootKeys.mpr ⟨o, oldMem, same⟩) fresh
  obtain ⟨t₆, ran₆, patched₆, frame₆⟩ := run_jobs plan.downward t₅
    (fun job member => each job (by simp [member])) level.downward_apart jobReady
  -- A downward job covers keys of its own child only.
  have owner : ∀ job ∈ plan.downward, ∀ k, job.Covers key k → k ≠ root ∧
      (k ∈ keys key new ∨ ∃ o ∈ old, ¬ Dies key new o ∧ k ∈ keys key o.children) := by
    intro job member k covers
    obtain ⟨n, newMem, -, region | ⟨-, o, oldMem, -, alive, below⟩⟩ :=
      level.downward_covers member covers
    · have inNew := mem_keys_roots.mpr ⟨n, newMem, region⟩
      exact ⟨level.distinctNew.ne_root inNew, .inl inNew⟩
    · exact ⟨level.distinctOld.ne_root (below_mem_keys oldMem below), .inr ⟨o, oldMem, alive, below⟩⟩
  have ownNew : ∀ job ∈ plan.downward, ∀ n ∈ new, ∀ k, (key n.label = k ∨ k ∈ keys key n.children) →
      job.Covers key k → job.root = key n.label := by
    intro job member n newMem k inside covers
    obtain ⟨m, otherMem, jobRoot, region | ⟨gone, -⟩⟩ := level.downward_covers member covers
    · rw [jobRoot, level.distinctNew.region_unique otherMem newMem region inside]
    · exact absurd (mem_keys_roots.mpr ⟨n, newMem, inside⟩) gone
  -- Before the insertions every new child has its final children.
  have child₆ : ∀ n ∈ new, ∃ written, t₆ (key n.label) = some ⟨written, rootKeys key n.children⟩ ∧
      (plan.kept (key n.label) → written = n.label) ∧ ∀ node ∈ forestNodes n.children,
        t₆ (key node.label) = some ⟨node.label, rootKeys key node.children⟩ := by
    intro n newMem
    by_cases found : ∃ job ∈ plan.downward, job.root = key n.label
    · obtain ⟨job, member, jobRoot⟩ := found
      obtain ⟨m, otherMem, otherRoot, jobNew, kind⟩ := level.fits.downward_mem job member
      have equal := level.distinctNew.tree_unique otherMem newMem (otherRoot.symm.trans jobRoot)
      subst equal
      have patched := patched₆ job member
      rw [jobRoot, jobNew] at patched
      rcases kind with ⟨o, oldMem, same, -, -⟩ | ⟨made, -⟩
      · obtain ⟨written, now, exact⟩ := matched₅ o oldMem m newMem same
        exact ⟨written, patched.parent _ now, exact, patched.holds⟩
      · have fresh := (level.mem_creates.mp made).2
        refine ⟨blank, patched.parent _ (created₅ m newMem fresh), ?_, patched.holds⟩
        intro keep
        have inKept : key m.label ∈ (rootKeys key new).filter plan.kept :=
          mem_filter.mpr ⟨mem_rootKeys.mpr ⟨m, newMem, rfl⟩, keep⟩
        rw [← level.fits.kept_eq] at inKept
        exact absurd (mem_filter.mp inKept).1 fresh
    · have quiet : ∀ k, (key n.label = k ∨ k ∈ keys key n.children) → t₆ k = t₅ k :=
        fun k inside => frame₆ k fun job member covers =>
          found ⟨job, member, ownNew job member n newMem k inside covers⟩
      have matched : key n.label ∈ rootKeys key old := by
        by_contra fresh
        obtain ⟨job, member, jobRoot, -⟩ := level.fits.creates_job n
          (level.mem_creates.mpr ⟨newMem, fresh⟩)
        exact found ⟨job, member, jobRoot⟩
      obtain ⟨o, oldMem, same⟩ := mem_rootKeys.mp matched
      obtain ⟨written, now, exact⟩ := matched₅ o oldMem n newMem same
      refine ⟨written, ?_, exact, ?_⟩
      · rw [quiet _ (.inl rfl), now]
        rcases level.fits.matched_job o oldMem n newMem same with equal | ⟨empty, -⟩ | ⟨-, job, member, jobRoot, -⟩
        · by_cases empty : n.children = []
          · simp [empty]
          · rw [if_neg empty, equal]
        · simp [empty]
        · exact absurd ⟨job, member, jobRoot⟩ found
      · intro node below
        have nonempty : n.children ≠ [] := by
          rintro empty
          simp [empty] at below
        rw [quiet _ (.inr (mem_keys.mpr ⟨node, below, rfl⟩))]
        rcases level.fits.matched_job o oldMem n newMem same with equal | ⟨empty, -⟩ | ⟨-, job, member, jobRoot, -⟩
        · exact alive₅ o oldMem n newMem same nonempty node (equal ▸ below)
        · exact absurd empty nonempty
        · exact absurd ⟨job, member, jobRoot⟩ found
  have root₆ : t₆ root = some ⟨label, [] ++ (rootKeys key new).filter plan.kept⟩ := by
    rw [frame₆ root fun job member covers => (owner job member root covers).1 rfl, root₅,
      level.fits.kept_eq, nil_append]
  obtain ⟨t₇, ran₇, root₇, frame₇, written₇⟩ := run_inserts key blank root label plan.kept new []
    t₆ root₆ (fun member => level.distinctNew.root_not_mem (rootKeys_subset member))
    level.distinctNew.rootKeys_nodup
    (fun n newMem => by obtain ⟨written, now, -⟩ := child₆ n newMem; exact ⟨_, now⟩)
  have insertsRan : run key blank (plan.inserts.map fun r => .insert root r.1.label r.2) t₆ =
      some t₇ := by
    rw [level.fits.inserts_eq]
    exact ran₇
  have below₇ : ∀ n ∈ new, ∀ k ∈ keys key n.children, t₇ k = t₆ k := by
    intro n newMem k below
    exact frame₇ k (level.distinctNew.ne_root (below_mem_keys newMem below))
      (level.distinctNew.below_not_rootKey newMem below)
  refine ⟨t₇, ?_, ⟨?_, ?_, ?_⟩, ?_⟩
  · have all := run_trans (run_trans ran₅ ran₆) insertsRan
    simpa only [Plan.edits, append_assoc] using all
  · intro entry found
    rw [parent] at found
    cases found
    exact root₇
  · intro node member
    obtain ⟨n, newMem, inside⟩ := mem_forestNodes.mp member
    obtain ⟨written, now, exact, below⟩ := child₆ n newMem
    rcases mem_nodes.mp inside with rfl | deeper
    · rw [written₇ node newMem _ now]
      cases keep : plan.kept (key node.label) with
      | true => rw [if_pos rfl, exact keep]
      | false => rfl
    · rw [below₇ n newMem _ (mem_keys.mpr ⟨node, deeper, rfl⟩)]
      exact below node deeper
  · intro k inOld notNew
    rw [frame₇ k (level.distinctOld.ne_root inOld) fun member => notNew (rootKeys_subset member)]
    obtain ⟨o, oldMem, inside⟩ := mem_keys_roots.mp inOld
    by_cases covered : ∃ job ∈ plan.downward, job.Covers key k
    · obtain ⟨job, member, covers⟩ := covered
      obtain ⟨n, newMem, jobRoot, jobNew, -⟩ := level.fits.downward_mem job member
      have notBelow (inJob : k ∈ keys key job.new) : False :=
        notNew (below_mem_keys newMem (jobNew ▸ inJob))
      rcases covers with here | inJob | inJob
      · exact absurd (here ▸ jobRoot ▸ rootKey_mem_keys newMem) notNew
      · exact (patched₆ job member).gone k inJob notBelow
      · exact (notBelow inJob).elim
    · rw [frame₆ k fun job member covers => covered ⟨job, member, covers⟩]
      refine dead₅ o oldMem ?_ k inside notNew
      by_contra alive
      obtain ⟨n, newMem, same, nonempty⟩ := survives alive
      rcases inside with rfl | below
      · exact notNew (same ▸ rootKey_mem_keys newMem)
      · rcases level.fits.matched_job o oldMem n newMem same.symm with
          equal | ⟨empty, -⟩ | ⟨-, job, member, jobRoot, jobOld, -⟩
        · exact notNew (below_mem_keys newMem (equal ▸ below))
        · exact nonempty empty
        · exact covered ⟨job, member, .inr (.inl (jobOld ▸ below))⟩
  · intro k outside
    simp only [Job.Covers, not_or] at outside
    rw [frame₇ k outside.1 fun member => outside.2.2 (rootKeys_subset member),
      frame₆ k fun job member covers => ?_, frame₅ k outside.1 outside.2.1 outside.2.2]
    rcases (owner job member k covers).2 with inNew | ⟨o, oldMem, -, below⟩
    · exact outside.2.2 inNew
    · exact outside.2.1 (below_mem_keys oldMem below)

end Level

end KeyedTree
