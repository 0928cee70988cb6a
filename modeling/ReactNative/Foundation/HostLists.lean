import ReactNative.Foundation.HostedNodes

/-! Each host keeps a list of what it contains and each node the host that contains it. -/
namespace HostedNodes

open LinkedForest Forest List Function

variable {N : Type} {K : Roles N} {F G : Forest N} {lists : N → List N} {hostOf : N → Option N}

structure Mirrors (K : Roles N) (F : Forest N) (lists : N → List N) (hostOf : N → Option N) :
    Prop where
  lists_eq : ∀ q, lists q = if K.hosts q then content K F q else []
  hostOf_iff : ∀ n q, hostOf n = some q ↔ n ∈ lists q

namespace Mirrors

section

variable (mirrors : Mirrors K F lists hostOf)
include mirrors

theorem list_of_host {q : N} (host : K.hosts q = true) : lists q = content K F q := by
  rw [mirrors.lists_eq, if_pos host]

theorem host_of_mem {n q : N} (member : n ∈ lists q) : K.hosts q = true ∧ n ∈ content K F q := by
  rw [mirrors.lists_eq] at member
  split at member
  · rename_i host
    exact ⟨host, member⟩
  · cases member

theorem congr (same : G.children = F.children) :
    Mirrors K G lists hostOf where
  lists_eq q := by
    have pieces_eq : pieces K G = pieces K F := by
      funext n
      exact pieces_congr (tree_congr fun d _ => congrFun same d)
    rw [mirrors.lists_eq, content, content, same, pieces_eq]
  hostOf_iff := mirrors.hostOf_iff

theorem hostOf_of_not_child {n : N} (noParent : ∀ p, n ∉ F.children p) : hostOf n = none := by
  cases found : hostOf n with
  | none => rfl
  | some q =>
    obtain ⟨host, member⟩ := mirrors.host_of_mem ((mirrors.hostOf_iff n q).mp found)
    obtain ⟨-, p, child, -⟩ := (mem_content_iff host).mp member
    exact absurd child (noParent p)

theorem hostOf_of_mem_pieces {e x : N} (noParent : ∀ p, x ∉ F.children p)
    (member : e ∈ pieces K F x) : hostOf e = none := by
  cases found : hostOf e with
  | none => rfl
  | some q =>
    obtain ⟨host, inside⟩ := mirrors.host_of_mem ((mirrors.hostOf_iff e q).mp found)
    obtain ⟨-, p, child, hosted⟩ := (mem_content_iff host).mp inside
    rcases mem_pieces.mp member with ⟨rfl, -⟩ | ⟨notHost, deeper⟩
    · exact absurd child (noParent p)
    · obtain ⟨c, isChild, visible⟩ := mem_content.mp deeper
      obtain ⟨_, _, path⟩ := (hosted_of_mem_pieces visible isChild child).mp hosted
      cases path with
      | here isHost => rw [isHost] at notHost; cases notHost
      | above _ siblings => exact absurd (by rw [siblings]; simp) (noParent _)

end

variable [DecidableEq N]

theorem filter_segment {first segment last swept : List N}
    (nodup : (first ++ segment ++ last).Nodup)
    (same : ∀ e ∈ first ++ segment ++ last, e ∈ swept ↔ e ∈ segment) :
    (first ++ segment ++ last).filter (fun e => e ∉ swept) = first ++ last := by
  have parts := nodup_append.mp nodup
  have apart := (nodup_append.mp parts.1).2.2
  have keepFirst : first.filter (fun e => e ∉ swept) = first := by
    rw [filter_eq_self]
    intro e member
    rw [decide_eq_true_iff, same e (by simp [member])]
    exact fun inside => apart e member e inside rfl
  have dropSegment : segment.filter (fun e => e ∉ swept) = [] := by
    rw [filter_eq_nil_iff]
    intro e member
    rw [decide_eq_true_iff, not_not]
    exact (same e (by simp [member])).mpr member
  have keepLast : last.filter (fun e => e ∉ swept) = last := by
    rw [filter_eq_self]
    intro e member
    rw [decide_eq_true_iff, same e (by simp [member])]
    exact fun inside => parts.2.2 e (mem_append_right _ inside) e member rfl
  rw [filter_append, filter_append, keepFirst, dropSegment, keepLast, append_nil]

section Change

variable {m x : N} {left right : List N} (differ : ∀ n, n ≠ m → G.children n = F.children n)
include differ

theorem remove (mirrors : Mirrors K F lists hostOf) (old : F.children m = left ++ x :: right)
    (new : G.children m = left ++ right) :
    Mirrors K G (fun q => (lists q).filter fun e => e ∉ swept K F x)
      (fun n => if n ∈ swept K F x then none else hostOf n) := by
  have child : x ∈ F.children m := by
    rw [old]
    simp
  -- Below the siblings of the subtree nothing changed.
  have samePieces : ∀ c ∈ F.children m, pieces K G c = pieces K F c := fun c isChild =>
    pieces_of_not_descends differ (not_descends_child isChild)
  constructor
  · intro q
    cases host : K.hosts q with
    | false => rw [mirrors.lists_eq, host]; rfl
    | true =>
      rw [mirrors.list_of_host host, if_pos rfl]
      have nodup := nodup_content (K := K) (F := F) q
      by_cases hosted : Hosted K F m q
      · -- The segment of the subtree goes.
        obtain ⟨before, after, path⟩ := hosted
        have oldContent : content K F q = (before ++ left.flatMap (pieces K F)) ++ pieces K F x ++
              (right.flatMap (pieces K F) ++ after) := by
          rw [content_eq_of_hostedAt path, content, old]
          simp
        have newContent : content K G q =
            (before ++ left.flatMap (pieces K F)) ++ (right.flatMap (pieces K F) ++ after) := by
          rw [content_eq_of_hostedAt (hostedAt_congr differ path), content, new, flatMap_append,
            flatMap_congr fun c member => samePieces c (by rw [old]; simp [member]),
            flatMap_congr fun c member => samePieces c (by rw [old]; simp [member])]
          simp
        rw [newContent, oldContent]
        rw [oldContent] at nodup
        apply filter_segment nodup
        intro e member
        rw [← oldContent] at member
        exact mem_swept_iff (shown_of_mem_content member)
      · -- Nothing of the subtree is here.
        rw [content_of_not_hosted differ host hosted, filter_eq_self]
        intro e member
        rw [decide_eq_true_iff]
        intro inside
        obtain ⟨isShown, p, parent, hostedP⟩ := (mem_content_iff host).mp member
        have visible := (mem_swept_iff isShown).mp inside
        exact hosted ((hosted_of_mem_pieces visible child parent).mp hostedP)
  -- Only what was swept has lost its host.
  · intro n q
    by_cases inside : n ∈ swept K F x
    · simp [inside]
    · simp [inside, mirrors.hostOf_iff]

theorem insert (mirrors : Mirrors K F lists hostOf) (old : F.children m = left ++ right)
    (new : G.children m = left ++ x :: right) {q : N} {before after : List N}
    (path : HostedAt K F m q before after) :
    Mirrors K G
      (Function.update lists q ((before ++ left.flatMap (pieces K F)) ++ pieces K F x ++
        (right.flatMap (pieces K F) ++ after)))
      (fun n => if n ∈ pieces K F x then some q else hostOf n) := by
  have child : x ∈ G.children m := by
    rw [new]
    simp
  have host := host_of_hosted ⟨before, after, path⟩
  -- Below the other children nothing changed.
  have samePieces : ∀ c ∈ G.children m, pieces K F c = pieces K G c := fun c isChild =>
    pieces_of_not_descends (fun n different => (differ n different).symm)
      (not_descends_child isChild)
  have oldContent : content K F q =
      (before ++ left.flatMap (pieces K F)) ++ (right.flatMap (pieces K F) ++ after) := by
    rw [content_eq_of_hostedAt path, content, old]
    simp
  have newContent : content K G q = (before ++ left.flatMap (pieces K F)) ++ pieces K F x ++
        (right.flatMap (pieces K F) ++ after) := by
    rw [content_eq_of_hostedAt (hostedAt_congr differ path), content, new, samePieces x child,
      flatMap_congr fun c member => samePieces c (by rw [new]; simp [member]),
      flatMap_congr fun c member => samePieces c (by rw [new]; simp [member])]
    simp
  -- Only the list of the host of this place changes.
  have elsewhere : ∀ r, r ≠ q → K.hosts r = true → content K G r = content K F r := by
    intro r different hostR
    apply content_of_not_hosted differ hostR
    intro hosted
    exact different (hosted_unique hosted ⟨before, after, path⟩)
  constructor
  · intro r
    by_cases same : r = q
    · subst same
      rw [update_self, if_pos host, newContent]
    · rw [update_of_ne same, mirrors.lists_eq]
      cases hostR : K.hosts r with
      | false => rfl
      | true => rw [if_pos rfl, if_pos rfl, elsewhere r same hostR]
  · intro n r
    by_cases inside : n ∈ pieces K F x
    · rw [if_pos inside, Option.some.injEq]
      constructor
      · rintro rfl
        simp [inside]
      -- A piece inserted is in this list, and so can be in no other.
      · intro member
        by_contra different
        rw [update_of_ne (Ne.symm different)] at member
        obtain ⟨hostR, inR⟩ := mirrors.host_of_mem member
        rw [← elsewhere r (Ne.symm different) hostR] at inR
        have inQ : n ∈ content K G q := by
          rw [newContent]
          simp [inside]
        exact different (host_unique host hostR inQ inR)
    · rw [if_neg inside, mirrors.hostOf_iff]
      by_cases same : r = q
      · subst same
        rw [update_self, mirrors.list_of_host host, oldContent]
        simp [inside]
      · rw [update_of_ne same]

omit [DecidableEq N] in
theorem unhosted (mirrors : Mirrors K F lists hostOf) (none : ∀ q, ¬ Hosted K F m q) :
    Mirrors K G lists hostOf where
  lists_eq q := by
    rw [mirrors.lists_eq]
    cases host : K.hosts q with
    | false => rfl
    | true => rw [if_pos rfl, if_pos rfl, content_of_not_hosted differ host (none q)]
  hostOf_iff := mirrors.hostOf_iff

end Change

section ChangeRole

variable {K' : Roles N} {x : N} (noParent : ∀ p, x ∉ F.children p)
  (differ : ∀ n, n ≠ x → G.children n = F.children n)
  (sameShown : ∀ n, n ≠ x → K'.shown n = K.shown n)
  (sameHosts : ∀ n, n ≠ x → K'.hosts n = K.hosts n)
include noParent differ sameShown sameHosts

omit [DecidableEq N] in
/-- The role of a node without a parent, and its children, do not matter elsewhere. -/
theorem pieces_changeRole {n : N} (different : n ≠ x) : pieces K' G n = pieces K F n := by
  induction n using F.induction with
  | step n ih =>
    have inner : content K' G n = content K F n := by
      rw [content, content, differ n different]
      apply flatMap_congr
      intro c child
      apply ih c child
      rintro rfl
      exact noParent n child
    rw [pieces_eq, pieces_eq, inner, own, own, sameShown n different, sameHosts n different]

omit [DecidableEq N] in
theorem changeRole (mirrors : Mirrors K F lists hostOf) (empty : lists x = [])
    (noContent : K'.hosts x = true → content K' G x = []) : Mirrors K' G lists hostOf := by
  constructor
  · intro q
    by_cases isX : q = x
    · subst isX
      rw [empty]
      split
      · rename_i host
        exact (noContent host).symm
      · rfl
    · rw [mirrors.lists_eq, sameHosts q isX, content, content, differ q isX]
      congr 1
      apply flatMap_congr
      intro c child
      refine (pieces_changeRole noParent differ sameShown sameHosts ?_).symm
      rintro rfl
      exact noParent q child
  · exact mirrors.hostOf_iff

end ChangeRole

end Mirrors

end HostedNodes

