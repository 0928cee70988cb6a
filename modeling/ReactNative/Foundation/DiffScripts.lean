import ReactNative.Foundation.DiffCorrectness

/-! A key that changes its parent is deleted below the one and created below the other; the
deletions come first. A key that keeps its parent wherever it survives is created only where it is
new. -/
namespace KeyedTree

open List

variable {α κ : Type} {key : α → κ} {stray : List κ → List κ → List κ}

/-! ### Creation after deletion -/

def Precedes (first second : List (Edit α κ)) : Prop := ∀ k, .create k ∈ first → .delete k ∉ second

def DeletesFirst (edits : List (Edit α κ)) : Prop :=
  edits.Pairwise fun earlier later => ∀ k, earlier = .create k → later ≠ .delete k

theorem deletesFirst_append {first second : List (Edit α κ)} : DeletesFirst (first ++ second) ↔
      DeletesFirst first ∧ DeletesFirst second ∧ Precedes first second := by
  simp only [DeletesFirst, pairwise_append, Precedes]
  refine and_congr_right fun _ => and_congr_right fun _ => ⟨?_, ?_⟩
  · intro all k created deleted
    exact all _ created _ deleted k rfl rfl
  · rintro all earlier first later second k rfl rfl
    exact all k first second

variable {edits : List (Edit α κ)}

theorem deletesFirst_of_no_creates (none : ∀ k, .create k ∉ edits) : DeletesFirst edits := by
  refine pairwise_of_forall_mem_list ?_
  rintro earlier member later - k rfl
  exact absurd member (none k)

theorem deletesFirst_of_no_deletes (none : ∀ k, .delete k ∉ edits) : DeletesFirst edits := by
  refine pairwise_of_forall_mem_list ?_
  rintro earlier - later member k - rfl
  exact none k member

theorem deletesFirst_jobs {jobs : List (Job α κ)} (each : ∀ job ∈ jobs, DeletesFirst job.edits)
    (apart : jobs.Pairwise fun a b => Precedes a.edits b.edits) :
    DeletesFirst (jobs.flatMap Job.edits) := by
  induction jobs with
  | nil => simp [DeletesFirst]
  | cons first _ ih =>
    obtain ⟨firstApart, restApart⟩ := pairwise_cons.mp apart
    rw [flatMap_cons, deletesFirst_append]
    refine ⟨each first (by simp), ih (fun job member => each job (by simp [member])) restApart, ?_⟩
    intro k created deleted
    obtain ⟨job, member, inJob⟩ := mem_flatMap.mp deleted
    exact firstApart job member k created inJob

theorem Level.creates_precede {root : κ} {old new : List (Tree α)} {plan : Plan α κ}
    (level : Level key root old new plan)
    (jobs : ∀ job ∈ plan.downward, Diff key stray job.root job.old job.new job.edits)
    {k : κ} (created : k ∈ rootKeys key plan.creates) :
    ∀ job ∈ plan.downward, .delete k ∉ job.edits := by
  intro job member deleted
  obtain ⟨n, createdMem, rfl⟩ := mem_rootKeys.mp created
  have newMem := ((level.fits.creates_iff n).mp createdMem).1
  have below := (jobs job member).deletes_old deleted
  obtain ⟨m, otherMem, -, -, ⟨o, oldMem, same, jobOld, nonempty⟩ | ⟨-, jobOld⟩⟩ :=
    level.fits.downward_mem job member
  · -- The key would escape from the matched node that keeps it.
    exact level.distinctNew.below_not_rootKey otherMem (level.stays_below oldMem otherMem same
      nonempty (jobOld ▸ below) (rootKey_mem_keys newMem)) (mem_rootKeys.mpr ⟨n, newMem, rfl⟩)
  · simp [jobOld] at below

/-- **Deletions first.** No script deletes a key after it has created it. -/
theorem Diff.deletesFirst (only : StrayMatched stray) {root : κ} {old new : List (Tree α)}
    (diff : Diff key stray root old new edits)
    (safe : Safe key stray root old new) : DeletesFirst edits := by
  induction diff with
  | empty => simp [DeletesFirst]
  | @level root old new plan fits jobs ih =>
    replace fits := safe.fits_nil fits
    have level := safe.level fits
    have downwardJobs : ∀ job ∈ plan.downward, Diff key stray job.root job.old job.new job.edits :=
      fun job member => jobs job (mem_append_right _ member)
    have downwardEach : ∀ job ∈ plan.downward, DeletesFirst job.edits := fun job member =>
      ih job (mem_append_right _ member)
        (safe.job only fits (mem_append_right _ member))
    have downwardApart : plan.downward.Pairwise fun a b => Precedes a.edits b.edits := by
      refine level.downward_apart.imp_of_mem ?_
      intro a b memA memB apart k created deleted
      exact apart k (.inr (.inr ((downwardJobs a memA).creates_new created)))
        (.inr (.inl ((downwardJobs b memB).deletes_old deleted)))
    -- Up to the deletions of this level nothing is created, after the creations
    -- only the downward jobs delete.
    have front : ∀ k, .create k ∉ plan.destructive.flatMap Job.edits ++ plan.updates.map .update ++
        plan.removes.reverse.map (fun r => .remove root (key r.1.label) r.2) ++
        (rootKeys key plan.deletes).map .delete := by
      intro k created
      simp only [mem_append, mem_flatMap, mem_map, reduceCtorEq, and_false,
        exists_false, or_false] at created
      obtain ⟨job, member, inJob⟩ := created
      have below := (jobs job (mem_append_left _ member)).creates_new inJob
      simp [(fits.destructive_mem job member).1] at below
    have created : Precedes ((rootKeys key plan.creates).map .create)
        (plan.downward.flatMap Job.edits) := by
      intro k member deleted
      obtain ⟨job, jobMem, inJob⟩ := mem_flatMap.mp deleted
      exact level.creates_precede downwardJobs (by simpa using member) job jobMem inJob
    have inserts : ∀ k, Edit.delete k ∉ plan.inserts.map (fun r => Edit.insert root r.1.label r.2) := by
      simp
    simp only [Plan.edits]
    rw [deletesFirst_append, deletesFirst_append, deletesFirst_append]
    refine ⟨⟨⟨deletesFirst_of_no_creates front, deletesFirst_of_no_deletes (by simp), ?_⟩,
      deletesFirst_jobs downwardEach downwardApart, ?_⟩,
      deletesFirst_of_no_deletes inserts, fun k _ => inserts k⟩
    · exact fun k member => absurd member (front k)
    · intro k member
      rcases mem_append.mp member with early | here
      · exact absurd early (front k)
      · exact created k here

/-! ### Forests without re-parenting -/

variable (key) in
/-- A key of both forests has the same parent in both. -/
def SameParents (root : κ) (old new : List (Tree α)) : Prop :=
  ∀ k a b, ParentOf key root old a k → ParentOf key root new b k → a = b

instance [DecidableEq κ] (root : κ) (old new : List (Tree α)) :
    Decidable (SameParents key root old new) :=
  decidable_of_iff (∀ above ∈ parents key root old, ∀ above' ∈ parents key root new,
      above.2 = above'.2 → above.1 = above'.1) <| by
    constructor
    · intro all k a b inOld inNew
      exact all _ (mem_parents.mpr inOld) _ (mem_parents.mpr inNew) rfl
    · rintro same ⟨a, k⟩ inOld ⟨b, _⟩ inNew rfl
      exact same k a b (mem_parents.mp inOld) (mem_parents.mp inNew)

namespace SameParents

variable {root : κ} {old new : List (Tree α)}

theorem symm (same : SameParents key root old new) : SameParents key root new old :=
  fun k a b inNew inOld => (same k b a inOld inNew).symm

theorem nil_left (new : List (Tree α)) : SameParents key root [] new := by
  rintro k a b (⟨-, member⟩ | ⟨_, member, -⟩) - <;> simp at member

theorem children (same : SameParents key root old new) {o n : Tree α} (oldMem : o ∈ old)
    (newMem : n ∈ new) (equal : key o.label = key n.label) :
    SameParents key (key n.label) o.children n.children := by
  have lift : ∀ {forest : List (Tree α)} {tree : Tree α} {parent k : κ}, tree ∈ forest →
      ParentOf key (key tree.label) tree.children parent k → ParentOf key root forest parent k := by
    rintro forest tree parent k member (⟨rfl, here⟩ | ⟨node, below, found⟩)
    · exact .inr ⟨tree, root_mem_forestNodes member, rfl, here⟩
    · exact .inr ⟨node, below_mem_forestNodes member below, found⟩
  intro k a b inOld inNew
  rw [← equal] at inOld
  exact same k a b (lift oldMem inOld) (lift newMem inNew)

variable {k : κ}

theorem root_stays (same : SameParents key root old new) (distinctNew : Distinct key root new)
    (inOld : k ∈ rootKeys key old) (inNew : k ∈ keys key new) : k ∈ rootKeys key new := by
  obtain ⟨parent, above⟩ := exists_parentOf root inNew
  have atRoot := same k root parent (.inl ⟨rfl, inOld⟩) above
  rcases above with ⟨-, here⟩ | ⟨node, member, nodeKey, -⟩
  · exact here
  · exact absurd (mem_keys.mpr ⟨node, member, nodeKey.trans atRoot.symm⟩) distinctNew.root_not_mem

section

variable (same : SameParents key root old new) (distinctOld : Distinct key root old)
include same distinctOld

theorem parent_stays {a : Tree α} (member : a ∈ forestNodes old)
    (child : k ∈ rootKeys key a.children) (inNew : k ∈ keys key new) :
    ∃ b ∈ forestNodes new, key b.label = key a.label ∧ k ∈ rootKeys key b.children := by
  obtain ⟨parent, above⟩ := exists_parentOf root inNew
  have equal := same k (key a.label) parent (.inr ⟨a, member, rfl, child⟩) above
  rcases above with ⟨atRoot, -⟩ | ⟨b, newMem, nodeKey, here⟩
  · exact absurd (mem_keys.mpr ⟨a, member, equal.trans atRoot⟩) distinctOld.root_not_mem
  · exact ⟨b, newMem, nodeKey.trans equal.symm, here⟩

theorem below_stays (distinctNew : Distinct key root new) (inNew : k ∈ keys key new) :
    ∀ a : Tree α, a ∈ forestNodes old → k ∈ keys key a.children →
      ∃ b ∈ forestNodes new, key b.label = key a.label ∧ k ∈ keys key b.children := by
  refine Tree.induction ?_
  intro a ih member below
  obtain ⟨c, childMem, here | deeper⟩ := mem_keys_roots.mp below
  · obtain ⟨b, newMem, equal, found⟩ := same.parent_stays distinctOld member
      (mem_rootKeys.mpr ⟨c, childMem, here⟩) inNew
    exact ⟨b, newMem, equal, rootKeys_subset found⟩
  · have cMem := forestNodes_trans member (root_mem_forestNodes childMem)
    obtain ⟨c', newMem', equal', below'⟩ := ih c childMem cMem deeper
    obtain ⟨b, newMem, equal, found⟩ := same.parent_stays distinctOld member
      (mem_rootKeys.mpr ⟨c, childMem, rfl⟩) (mem_keys.mpr ⟨c', newMem', equal'⟩)
    obtain ⟨d, dMem, dKey⟩ := mem_rootKeys.mp found
    have unique := distinctNew.node_unique (forestNodes_trans newMem (root_mem_forestNodes dMem))
      newMem' (dKey.trans equal'.symm)
    exact ⟨b, newMem, equal, below_mem_keys dMem (unique ▸ below')⟩

theorem region_stays (distinctNew : Distinct key root new) {a : Tree α} (member : a ∈ old)
    (region : key a.label = k ∨ k ∈ keys key a.children) (inNew : k ∈ keys key new) :
    ∃ b ∈ new, key b.label = key a.label ∧ (key b.label = k ∨ k ∈ keys key b.children) := by
  have rootKey : key a.label ∈ rootKeys key old := mem_rootKeys.mpr ⟨a, member, rfl⟩
  rcases region with rfl | below
  · obtain ⟨b, newMem, equal⟩ := mem_rootKeys.mp (same.root_stays distinctNew rootKey inNew)
    exact ⟨b, newMem, equal, .inl equal⟩
  · obtain ⟨c, cMem, cKey, cBelow⟩ := same.below_stays distinctOld distinctNew inNew a
      (root_mem_forestNodes member) below
    obtain ⟨b, newMem, equal⟩ := mem_rootKeys.mp
      (same.root_stays distinctNew rootKey (mem_keys.mpr ⟨c, cMem, cKey⟩))
    have unique := distinctNew.node_unique cMem (root_mem_forestNodes newMem) (cKey.trans equal.symm)
    exact ⟨b, newMem, equal, .inr (unique ▸ cBelow)⟩

theorem noEscape (distinctNew : Distinct key root new) : NoEscape key old new := by
  intro a oldMem b newMem equal _ k below inNew
  obtain ⟨_, newMem', equal', below'⟩ := same.below_stays distinctOld distinctNew inNew a oldMem below
  have unique := distinctNew.node_unique newMem' newMem (equal'.trans equal)
  exact unique ▸ below'

end

end SameParents

section

variable {root k : κ} {old new : List (Tree α)} (diff : Diff key stray root old new edits)
include diff

theorem Diff.creates_fresh (inNew : k ∈ keys key new) (notOld : k ∉ keys key old) :
    .create k ∈ edits := by
  induction diff with
  | empty => simp at inNew
  | @level _ old new _ fits _ ih =>
    rw [Plan.create_mem]
    obtain ⟨n, newMem, here | below⟩ := mem_keys_roots.mp inNew
    · have fresh : key n.label ∉ rootKeys key old := fun member =>
        notOld (here ▸ rootKeys_subset member)
      have created := (fits.creates_iff n).mpr ⟨newMem, .inl fresh⟩
      exact .inr (.inl (mem_rootKeys.mpr ⟨n, created, here⟩))
    · by_cases matched : key n.label ∈ rootKeys key old
      · obtain ⟨o, oldMem, same⟩ := mem_rootKeys.mp matched
        have notBelow : k ∉ keys key o.children := fun inside =>
          notOld (below_mem_keys oldMem inside)
        rcases fits.matched_job o oldMem n newMem same with
          equal | ⟨empty, -⟩ | ⟨-, job, member, -, jobOld, jobNew⟩
        · exact absurd (equal ▸ below) notBelow
        · simp [empty] at below
        · exact .inr (.inr ⟨job, member, ih job (mem_append_right _ member)
            (jobNew ▸ below) (jobOld ▸ notBelow)⟩)
      · have created := (fits.creates_iff n).mpr ⟨newMem, .inl matched⟩
        obtain ⟨job, member, -, jobOld, jobNew⟩ := fits.creates_job n created
        exact .inr (.inr ⟨job, member, ih job (mem_append_right _ member)
          (jobNew ▸ below) (by simp [jobOld])⟩)

theorem Diff.creates_only_fresh (only : StrayMatched stray) (safe : Safe key stray root old new)
    (same : SameParents key root old new) (created : .create k ∈ edits) : k ∉ keys key old := by
  induction diff with
  | empty => simp at created
  | @level root old new _ fits jobs ih =>
    replace fits := safe.fits_nil fits
    intro inOld
    rcases Plan.create_mem.mp created with ⟨job, member, inJob⟩ | here | ⟨job, member, inJob⟩
    · have below := (jobs job (mem_append_left _ member)).creates_new inJob
      simp [(fits.destructive_mem job member).1] at below
    · obtain ⟨n, createdMem, rfl⟩ := mem_rootKeys.mp here
      obtain ⟨newMem, fresh | strayed⟩ := (fits.creates_iff n).mp createdMem
      · exact fresh (same.symm.root_stays safe.distinctOld
          (mem_rootKeys.mpr ⟨n, newMem, rfl⟩) inOld)
      · simp at strayed
    · have derivation := jobs job (mem_append_right _ member)
      have jobSafe := safe.job only fits (mem_append_right _ member)
      have inside := derivation.creates_new inJob
      obtain ⟨n, newMem, jobRoot, jobNew, kind⟩ := fits.downward_mem job member
      -- The key was below the old node of `n`'s key, which is the matched root or nowhere.
      obtain ⟨a, aMem, aKey, below⟩ := same.symm.below_stays safe.distinctNew safe.distinctOld
        inOld n (root_mem_forestNodes newMem) (jobNew ▸ inside)
      rcases kind with ⟨o, oldMem, equal, jobOld, -⟩ | ⟨createdMem, -⟩
      · have jobSame : SameParents key job.root job.old job.new := by
          rw [jobRoot, jobOld, jobNew]
          exact same.children oldMem newMem equal
        have unique := safe.distinctOld.node_unique aMem (root_mem_forestNodes oldMem)
          (aKey.trans equal.symm)
        exact ih job (mem_append_right _ member) jobSafe jobSame inJob
          (jobOld ▸ unique ▸ below)
      · have oldKey := same.symm.root_stays safe.distinctOld (mem_rootKeys.mpr ⟨n, newMem, rfl⟩)
          (mem_keys.mpr ⟨a, aMem, aKey⟩)
        simpa [oldKey] using ((fits.creates_iff n).mp createdMem).2

end

end KeyedTree

