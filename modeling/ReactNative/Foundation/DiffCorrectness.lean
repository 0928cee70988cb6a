import ReactNative.Foundation.ForestDiff

/-! A derivation transforms the table exactly when no compared pair of sibling lists creates a stray
key. The script never deletes a key it has created before, and without re-parenting it creates
precisely the new keys. -/
namespace KeyedTree

open Function

variable {α κ : Type} {key : α → κ} {blank : α}
  {stray : List κ → List κ → List κ}

structure StrayMatched (stray : List κ → List κ → List κ) : Prop where
  matched : ∀ old new k, k ∈ stray old new → k ∈ old ∧ k ∈ new
  refl : ∀ siblings, stray siblings siblings = []

namespace StrayMatched

variable (only : StrayMatched stray)
include only

theorem nil_left (new : List κ) : stray [] new = [] := by
  refine List.eq_nil_iff_forall_not_mem.mpr fun k member => ?_
  simpa using (only.matched _ _ k member).1

theorem nil_right (old : List κ) : stray old [] = [] := by
  refine List.eq_nil_iff_forall_not_mem.mpr fun k member => ?_
  simpa using (only.matched _ _ k member).2

theorem noStray_nil_left (new : List (Tree α)) : NoStray key stray [] new := by
  intro old' new' compared
  cases compared with
  | here => exact only.nil_left _
  | inside oldMem => simp at oldMem

theorem noStray_nil_right (old : List (Tree α)) : NoStray key stray old [] := by
  intro old' new' compared
  cases compared with
  | here => exact only.nil_right _
  | inside _ newMem => simp at newMem

theorem noStray_self {root : κ} {forest : List (Tree α)} (distinct : Distinct key root forest) :
    NoStray key stray forest forest := by
  have equal : ∀ {old new old' new' : List (Tree α)}, Compared key old new old' new' → old = new →
      ∀ root, Distinct key root old → old' = new' := by
    intro old new old' new' compared
    induction compared with
    | here => exact fun same _ _ => same
    | inside oldMem newMem sameKey _ ih =>
      intro same root distinct
      subst same
      have trees := distinct.tree_unique oldMem newMem sameKey
      subst trees
      exact ih rfl _ (distinct.children oldMem)
  intro old' new' compared
  rw [equal compared rfl root distinct]
  exact only.refl _

end StrayMatched

variable {old new : List (Tree α)}

theorem NoStray.children (noStray : NoStray key stray old new) {o n : Tree α} (oldMem : o ∈ old)
    (newMem : n ∈ new) (same : key o.label = key n.label) :
    NoStray key stray o.children n.children :=
  fun old' new' compared => noStray old' new' (.inside oldMem newMem same compared)

theorem distinct_nil (root : κ) : Distinct key root ([] : List (Tree α)) := by
  simp [Distinct]

structure Safe (key : α → κ) (stray : List κ → List κ → List κ) (root : κ)
    (old new : List (Tree α)) : Prop where
  distinctOld : Distinct key root old
  distinctNew : Distinct key root new
  noEscape : NoEscape key old new
  noStray : NoStray key stray old new

namespace Safe

variable {root : κ} {old new : List (Tree α)} {plan : Plan α κ}

theorem fits_nil (safe : Safe key stray root old new)
    (fits : plan.Fits key (stray (rootKeys key old) (rootKeys key new)) old new) :
    plan.Fits key [] old new := by
  rw [← safe.noStray _ _ (.here old new)]
  exact fits

theorem level (safe : Safe key stray root old new) (fits : plan.Fits key [] old new) :
    Level key root old new plan :=
  ⟨fits, safe.distinctOld, safe.distinctNew, safe.noEscape⟩

theorem job (safe : Safe key stray root old new) (only : StrayMatched stray)
    (fits : plan.Fits key [] old new) {job : Job α κ}
    (member : job ∈ plan.destructive ++ plan.downward) :
    Safe key stray job.root job.old job.new := by
  rcases List.mem_append.mp member with destructive | downward
  · obtain ⟨empty, o, oldMem, jobRoot, jobOld, -⟩ := fits.destructive_mem job destructive
    rw [jobRoot, jobOld, empty]
    exact ⟨safe.distinctOld.children oldMem, distinct_nil _, by simp [NoEscape],
      only.noStray_nil_right _⟩
  · obtain ⟨n, newMem, jobRoot, jobNew, ⟨o, oldMem, same, jobOld, -⟩ | ⟨-, jobOld⟩⟩ :=
      fits.downward_mem job downward
    · have distinctOld := safe.distinctOld.children oldMem
      rw [same] at distinctOld
      rw [jobRoot, jobOld, jobNew]
      exact ⟨distinctOld, safe.distinctNew.children newMem, safe.noEscape.children oldMem newMem,
        safe.noStray.children oldMem newMem same⟩
    · rw [jobRoot, jobOld, jobNew]
      exact ⟨distinct_nil _, safe.distinctNew.children newMem, by simp [NoEscape],
        only.noStray_nil_left _⟩

end Safe

/-! ### What a script creates and deletes -/

variable {root : κ} {edits : List (Edit α κ)} {table : Table α κ} {plan : Plan α κ} {k : κ}
  {old' new' : List (Tree α)}

theorem Represents.ready {label : α} (represents : Represents key table label old)
    (distinctNew : Distinct key (key label) new) :
    Ready key table (key label) old new where
  parent := ⟨label, represents.root⟩
  holds := represents.nodes
  fresh k inNew notOld :=
    represents.only k (distinctNew.ne_root inNew) notOld

theorem Plan.delete_mem :
    .delete k ∈ plan.edits key root ↔ (∃ job ∈ plan.destructive, .delete k ∈ job.edits) ∨
      k ∈ rootKeys key plan.deletes ∨ ∃ job ∈ plan.downward, .delete k ∈ job.edits := by
  simp [Plan.edits]

theorem Plan.create_mem :
    .create k ∈ plan.edits key root ↔ (∃ job ∈ plan.destructive, .create k ∈ job.edits) ∨
      k ∈ rootKeys key plan.creates ∨ ∃ job ∈ plan.downward, .create k ∈ job.edits := by
  simp [Plan.edits]

theorem Diff.deletes_old (diff : Diff key stray root old new edits) (member : .delete k ∈ edits) :
    k ∈ keys key old := by
  induction diff with
  | empty => simp at member
  | level _ fits _ ih =>
    rcases Plan.delete_mem.mp member with ⟨job, jobMem, inJob⟩ | here | ⟨job, jobMem, inJob⟩
    · have below := ih job (by simp [jobMem]) inJob
      obtain ⟨-, o, oldMem, -, jobOld, -⟩ := fits.destructive_mem job jobMem
      exact below_mem_keys oldMem (jobOld ▸ below)
    · obtain ⟨o, deleted, rfl⟩ := mem_rootKeys.mp here
      exact rootKey_mem_keys ((fits.deletes_iff o).mp deleted).1
    · have below := ih job (by simp [jobMem]) inJob
      obtain ⟨n, -, -, -, ⟨o, oldMem, -, jobOld, -⟩ | ⟨-, jobOld⟩⟩ := fits.downward_mem job jobMem
      · exact below_mem_keys oldMem (jobOld ▸ below)
      · simp [jobOld] at below

theorem Diff.creates_new (diff : Diff key stray root old new edits) (member : .create k ∈ edits) :
    k ∈ keys key new := by
  induction diff with
  | empty => simp at member
  | level _ fits _ ih =>
    rcases Plan.create_mem.mp member with ⟨job, jobMem, inJob⟩ | here | ⟨job, jobMem, inJob⟩
    · have below := ih job (by simp [jobMem]) inJob
      simp [(fits.destructive_mem job jobMem).1] at below
    · obtain ⟨n, created, rfl⟩ := mem_rootKeys.mp here
      exact rootKey_mem_keys ((fits.creates_iff n).mp created).1
    · have below := ih job (by simp [jobMem]) inJob
      obtain ⟨n, newMem, -, jobNew, -⟩ := fits.downward_mem job jobMem
      exact below_mem_keys newMem (jobNew ▸ below)

theorem Compared.old_mem (compared : Compared key old new old' new')
    (member : k ∈ rootKeys key old') : k ∈ keys key old := by
  induction compared with
  | here => exact rootKeys_subset member
  | inside oldMem _ _ _ ih => exact below_mem_keys oldMem (ih member)

theorem Compared.new_mem (compared : Compared key old new old' new')
    (member : k ∈ rootKeys key new') : k ∈ keys key new := by
  induction compared with
  | here => exact rootKeys_subset member
  | inside _ newMem _ _ ih => exact below_mem_keys newMem (ih member)

theorem Diff.creates_stray (only : StrayMatched stray) (compared : Compared key old new old' new')
    (diff : Diff key stray root old new edits) (distinctOld : Distinct key root old)
    (found : k ∈ stray (rootKeys key old') (rootKeys key new')) : .create k ∈ edits := by
  induction compared generalizing root edits with
  | here old new =>
    cases diff with
    | empty => exact absurd (only.matched _ _ k found).1 (by simp)
    | level plan fits jobs =>
      obtain ⟨n, newMem, rfl⟩ := mem_rootKeys.mp (only.matched _ _ k found).2
      refine Plan.create_mem.mpr (.inr (.inl (mem_rootKeys.mpr ⟨n, ?_, rfl⟩)))
      exact (fits.creates_iff n).mpr ⟨newMem, .inr found⟩
  | @inside old new old' new' o n oldMem newMem same deeper ih =>
    cases diff with
    | empty => simp at oldMem
    | level plan fits jobs =>
      have distinct := distinctOld.children oldMem
      rcases fits.matched_job o oldMem n newMem same with
        equal | ⟨empty, -⟩ | ⟨-, job, member, jobRoot, jobOld, jobNew⟩
      · rw [← equal] at deeper
        rw [only.noStray_self distinct _ _ deeper] at found
        simp at found
      · rw [empty] at deeper
        rw [only.noStray_nil_right _ _ _ deeper] at found
        simp at found
      · have below := jobs job (List.mem_append_right _ member)
        rw [jobRoot, jobOld, jobNew] at below
        refine Plan.create_mem.mpr (.inr (.inr ⟨job, member, ih below ?_ found⟩))
        rw [← same]
        exact distinct

theorem Diff.matched_undeleted (compared : Compared key old new old' new')
    (diff : Diff key stray root old new edits) (distinctOld : Distinct key root old)
    (distinctNew : Distinct key root new) (inOld : k ∈ rootKeys key old')
    (inNew : k ∈ rootKeys key new') : .delete k ∉ edits := by
  -- Induction on how the matched pair is reached: at the roots, or below a matched pair.
  induction compared generalizing root edits with
  | here old new =>
    cases diff with
    | empty => simp
    | level plan fits jobs =>
      -- A deletion is one of a destructive job, of this level, or of a downward job.
      intro deleted
      rcases Plan.delete_mem.mp deleted with ⟨job, member, inJob⟩ | here | ⟨job, member, inJob⟩
      · have below := (jobs job (List.mem_append_left _ member)).deletes_old inJob
        obtain ⟨-, o', oldMem', -, jobOld, -⟩ := fits.destructive_mem job member
        exact distinctOld.below_not_rootKey oldMem' (jobOld ▸ below) inOld
      · obtain ⟨o', deleted', same⟩ := mem_rootKeys.mp here
        exact ((fits.deletes_iff o').mp deleted').2 (same ▸ inNew)
      · have below := (jobs job (List.mem_append_right _ member)).deletes_old inJob
        obtain ⟨n, -, -, -, ⟨o', oldMem', -, jobOld, -⟩ | ⟨-, jobOld⟩⟩ :=
          fits.downward_mem job member
        · exact distinctOld.below_not_rootKey oldMem' (jobOld ▸ below) inOld
        · simp [jobOld] at below
  | @inside old new old' new' o n oldMem newMem same deeper ih =>
    cases diff with
    | empty => simp at oldMem
    | level plan fits jobs =>
      have inside : k ∈ keys key o.children := deeper.old_mem inOld
      -- The key is below one old root only, so that a job that deletes it is that of this root.
      have owned : ∀ o' ∈ old, k ∈ keys key o'.children → o' = o := fun o' oldMem' below =>
        distinctOld.region_unique oldMem' oldMem (.inr below) (.inr inside)
      intro deleted
      rcases Plan.delete_mem.mp deleted with ⟨job, member, inJob⟩ | here | ⟨job, member, inJob⟩
      · have below := (jobs job (List.mem_append_left _ member)).deletes_old inJob
        obtain ⟨-, o', oldMem', -, jobOld, dies⟩ := fits.destructive_mem job member
        obtain rfl := owned o' oldMem' (jobOld ▸ below)
        rcases dies with gone | ⟨n', newMem', same', empty⟩
        · exact gone (mem_rootKeys.mpr ⟨n, newMem, same.symm⟩)
        · obtain rfl := distinctNew.tree_unique newMem' newMem (same'.trans same)
          have survivor := deeper.new_mem inNew
          simp [empty] at survivor
      · obtain ⟨o', deleted', equal⟩ := mem_rootKeys.mp here
        exact distinctOld.below_not_rootKey oldMem inside
          (mem_rootKeys.mpr ⟨o', ((fits.deletes_iff o').mp deleted').1, equal⟩)
      · have below := (jobs job (List.mem_append_right _ member)).deletes_old inJob
        obtain ⟨n', newMem', jobRoot, jobNew, ⟨o', oldMem', same', jobOld, -⟩ | ⟨-, jobOld⟩⟩ :=
          fits.downward_mem job member
        · obtain rfl := owned o' oldMem' (jobOld ▸ below)
          obtain rfl := distinctNew.tree_unique newMem' newMem (same'.symm.trans same)
          have derivation := jobs job (List.mem_append_right _ member)
          rw [jobRoot, jobOld, jobNew] at derivation
          refine ih derivation ?_ (distinctNew.children newMem) inOld inNew inJob
          rw [← same]
          exact distinctOld.children oldMem
        · simp [jobOld] at below

/-! ### What a script does to a table -/

variable [DecidableEq κ]

/-- **Soundness of a diff.** Without strays and escapes the script turns the
table of the old forest into that of the new one. -/
theorem Diff.transforms (only : StrayMatched stray) (diff : Diff key stray root old new edits)
    (safe : Safe key stray root old new) : Transforms key blank ⟨root, old, new, edits⟩ := by
  induction diff with
  | empty root =>
    intro table ready
    refine ⟨table, rfl, ⟨?_, by simp, by simp⟩, fun _ _ => rfl⟩
    obtain ⟨_, parent⟩ := ready.parent
    intro entry found
    rw [parent] at found
    cases found
    exact parent
  | level _ fits _ ih =>
    have exact := safe.fits_nil fits
    exact (safe.level exact).transforms fun job member => ih job member (safe.job only exact member)

theorem Diff.represents (only : StrayMatched stray) {label : α} {old new : List (Tree α)}
    {edits : List (Edit α κ)} (diff : Diff key stray (key label) old new edits)
    (safe : Safe key stray (key label) old new) {table : Table α κ}
    (start : Represents key table label old) :
    ∃ result, run key blank edits table = some result ∧ Represents key result label new := by
  obtain ⟨result, ran, patched, frame⟩ :=
    diff.transforms only safe table (start.ready safe.distinctNew)
  refine ⟨result, ran, patched.parent _ start.root, patched.holds, fun k notRoot notNew => ?_⟩
  by_cases inOld : k ∈ keys key old
  · exact patched.gone k inOld notNew
  · rw [frame k (by simp [Job.Covers, notRoot, inOld, notNew])]
    exact start.only k notRoot inOld

theorem apply_registered {edit : Edit α κ} {next : Table α κ} {entry : Entry α κ}
    (applied : edit.apply key blank table = some next) (registered : table k = some entry)
    (undeleted : .delete k ≠ edit) : edit ≠ .create k ∧ ∃ kept, next k = some kept := by
  cases edit with
  | create child =>
    by_cases same : child = k
    · subst same
      simp [Edit.apply, registered] at applied
    · refine ⟨by simpa using same, ?_⟩
      simp only [Edit.apply] at applied
      split at applied
      · cases applied
        exact ⟨entry, by rw [update_of_ne (Ne.symm same)]; exact registered⟩
      · cases applied
  | delete child =>
    have other : k ≠ child := fun same => undeleted (by simp [same])
    refine ⟨by simp, ?_⟩
    simp only [Edit.apply] at applied
    split at applied
    · cases applied
    · cases applied
      exact ⟨entry, by rw [update_of_ne other]; exact registered⟩
  | insert parent label index =>
    refine ⟨by simp, ?_⟩
    simp only [Edit.apply] at applied
    split at applied
    · split at applied
      · cases applied
      · split at applied
        · cases applied
          -- An insertion writes at the parent and at the child, and both are in the table.
          by_cases atParent : k = parent
          · exact ⟨_, by rw [atParent, update_self]⟩
          · rw [update_of_ne atParent]
            by_cases atChild : k = key label
            · exact ⟨_, by rw [atChild, update_self]⟩
            · exact ⟨entry, by rw [update_of_ne atChild]; exact registered⟩
        · cases applied
    · cases applied
  | remove parent child index =>
    refine ⟨by simp, ?_⟩
    simp only [Edit.apply] at applied
    split at applied
    · split at applied
      · cases applied
        by_cases atParent : k = parent
        · exact ⟨_, by rw [atParent, update_self]⟩
        · exact ⟨entry, by rw [update_of_ne atParent]; exact registered⟩
      · cases applied
    · cases applied
  | update label =>
    refine ⟨by simp, ?_⟩
    simp only [Edit.apply] at applied
    split at applied
    · cases applied
    · cases applied
      by_cases atLabel : k = key label
      · exact ⟨_, by rw [atLabel, update_self]⟩
      · exact ⟨entry, by rw [update_of_ne atLabel]; exact registered⟩

theorem run_creates_registered {result : Table α κ} {entry : Entry α κ}
    (ran : run key blank edits table = some result) (registered : table k = some entry)
    (undeleted : .delete k ∉ edits) : .create k ∉ edits := by
  induction edits generalizing table entry with
  | nil => simp
  | cons _ _ ih =>
    obtain ⟨_, applied, ranRest⟩ := Option.bind_eq_some_iff.mp ran
    obtain ⟨others, undeletedRest⟩ := List.ne_and_not_mem_of_not_mem_cons undeleted
    obtain ⟨differs, _, present⟩ := apply_registered applied registered others
    have tail := ih ranRest present undeletedRest
    simpa [Ne.symm differs] using tail

/-- **A stray key is fatal**: it is created while it is still in the table. -/
theorem Diff.run_none (only : StrayMatched stray) (diff : Diff key stray root old new edits)
    (distinctOld : Distinct key root old) (distinctNew : Distinct key root new)
    (strays : ¬ NoStray key stray old new) (ready : Ready key table root old new) :
    run key blank edits table = none := by
  simp only [NoStray, not_forall] at strays
  obtain ⟨_, _, compared, nonempty⟩ := strays
  obtain ⟨k, found⟩ := List.exists_mem_of_ne_nil _ nonempty
  obtain ⟨inOld, inNew⟩ := only.matched _ _ k found
  obtain ⟨node, nodeMem, nodeKey⟩ := mem_keys.mp (compared.old_mem inOld)
  have registered := nodeKey ▸ ready.holds node nodeMem
  refine Option.eq_none_iff_forall_ne_some.mpr fun result ran => ?_
  exact run_creates_registered ran registered
    (diff.matched_undeleted compared distinctOld distinctNew inOld inNew)
    (diff.creates_stray only compared distinctOld found)

end KeyedTree


