import Mathlib.Data.List.Nodup
import ScopeComplexity.Proofs.FileTree.Legal
import ScopeComplexity.Proofs.Journal
import ScopeComplexity.Proofs.Path.Order
import ScopeComplexity.Sources

namespace ScopeComplexity.Sources

theorem mem_dropRepeats {p : Path} {paths : List Path} : p ∈ dropRepeats paths ↔ p ∈ paths := by
  induction paths using dropRepeats.induct with
  | case1 q paths ih =>
    rw [dropRepeats, if_pos rfl, ih]
    simp
  | case2 q r paths other ih =>
    rw [dropRepeats, if_neg other, List.mem_cons, ih]
    exact List.mem_cons.symm
  | case3 paths short =>
    rw [dropRepeats]
    exact short

theorem pairwise_dropRepeats {paths : List Path} (normal : ∀ p ∈ paths, p.Normal)
    (sorted : paths.Pairwise fun p q => p.components ≤ q.components) :
    (dropRepeats paths).Pairwise fun p q => p.components < q.components := by
  induction paths using dropRepeats.induct with
  | case1 q paths ih =>
    rw [dropRepeats, if_pos rfl]
    exact ih (List.forall_mem_cons.1 normal).2 sorted.of_cons
  | case2 q r paths other ih =>
    rw [dropRepeats, if_neg other, List.pairwise_cons]
    rw [List.forall_mem_cons] at normal
    refine ⟨?_, ih normal.2 sorted.of_cons⟩
    have next : q.components < r.components := by
      apply lt_of_le_of_ne (List.rel_of_pairwise_cons sorted List.mem_cons_self)
      intro same
      exact other (Path.components_injective normal.1 (normal.2 r List.mem_cons_self) same)
    intro p member
    rcases List.mem_cons.1 (mem_dropRepeats.1 member) with rfl | member
    · exact next
    · exact next.trans_le (List.rel_of_pairwise_cons sorted.of_cons member)
  | case3 paths short =>
    cases paths with
    | nil => exact List.Pairwise.nil
    | cons p paths =>
      cases paths with
      | nil => exact List.pairwise_singleton _ _
      | cons q paths => exact (short p q paths rfl).elim

theorem mem_inOrder {p : Path} {paths : List Path} : p ∈ inOrder paths ↔ p ∈ paths := by
  rw [inOrder, mem_dropRepeats, List.mem_mergeSort]

theorem pairwise_inOrder {paths : List Path} (normal : ∀ p ∈ paths, p.Normal) :
    (inOrder paths).Pairwise fun p q => p.components < q.components := by
  apply pairwise_dropRepeats
  · intro p member
    exact normal p (List.mem_mergeSort.1 member)
  · have sorted : (paths.mergeSort Path.le).Pairwise fun p q => Path.le p q = true := by
      apply List.pairwise_mergeSort
      · intro p q r
        rw [Path.le_iff, Path.le_iff, Path.le_iff]
        exact le_trans
      · intro p q
        rw [Bool.or_eq_true, Path.le_iff, Path.le_iff]
        exact le_total p.components q.components
    exact sorted.imp Path.le_iff.1

theorem nodup_of_sorted {paths : List Path}
    (sorted : paths.Pairwise fun p q => p.components < q.components) : paths.Nodup := by
  apply sorted.imp
  rintro p _ below rfl
  exact lt_irrefl _ below

theorem dropRepeats_eq_self {paths : List Path} (distinct : paths.Nodup) :
    dropRepeats paths = paths := by
  induction paths using dropRepeats.induct with
  | case1 p paths ih => exact absurd List.mem_cons_self (List.nodup_cons.1 distinct).1
  | case2 p q paths other ih => rw [dropRepeats, if_neg other, ih (List.nodup_cons.1 distinct).2]
  | case3 paths short =>
    rw [dropRepeats]
    exact short

theorem inOrder_eq_self {paths : List Path}
    (sorted : paths.Pairwise fun p q => p.components < q.components) : inOrder paths = paths := by
  rw [inOrder, List.mergeSort_of_pairwise, dropRepeats_eq_self (nodup_of_sorted sorted)]
  apply sorted.imp
  intro p q below
  exact Path.le_iff.2 below.le

variable {settings : Settings} {host : Host}

theorem acceptAll_sublist {paths accepted : List Path}
    (h : (acceptAll settings host paths).result = .ok accepted) : accepted.Sublist paths := by
  induction paths generalizing accepted with
  | nil =>
    cases h
    exact List.Sublist.refl _
  | cons p paths ih =>
    rw [acceptAll] at h
    obtain ⟨own, -, h⟩ := Journal.result_bind_eq_ok_iff.1 h
    obtain ⟨others, found, h⟩ := Journal.result_bind_eq_ok_iff.1 h
    cases h
    cases own with
    | false => exact (ih found).cons p
    | true => exact (ih found).cons_cons p

theorem candidates_normal (legal : host.files.Legal) {p : Path} (normal : p.Normal) :
    ∀ q ∈ candidates settings host p, q.Normal := by
  rw [candidates]
  split
  · exact List.forall_mem_nil _
  · split
    · rename_i entries found
      exact legal.walk _ normal (legal.descend found)
    · exact List.forall_mem_singleton.2 normal

theorem findAll_normal (legal : host.files.Legal) {paths : List Path}
    (normal : ∀ p ∈ paths, p.Normal) {found : List Path}
    (h : (findAll settings host paths).result = .ok found) : ∀ p ∈ found, p.Normal := by
  induction paths generalizing found with
  | nil =>
    cases h
    exact List.forall_mem_nil _
  | cons p paths ih =>
    rw [List.forall_mem_cons] at normal
    rw [findAll] at h
    obtain ⟨present, -, h⟩ := Journal.result_bind_eq_ok_iff.1 h
    cases present with
    | false => cases h
    | true =>
      obtain ⟨-, -, h⟩ := Journal.result_bind_eq_ok_iff.1 h
      obtain ⟨accepted, own, h⟩ := Journal.result_bind_eq_ok_iff.1 h
      obtain ⟨others, below, h⟩ := Journal.result_bind_eq_ok_iff.1 h
      cases h
      rw [List.forall_mem_append]
      constructor
      · intro q member
        exact candidates_normal legal normal.1 q ((acceptAll_sublist own).subset member)
      · exact ih normal.2 below

theorem limit_sublist {files kept : List Path}
    (h : (limit settings files).result = .ok kept) : kept.Sublist files := by
  rw [limit] at h
  obtain ⟨exceeded, -, h⟩ := Journal.result_bind_eq_ok_iff.1 h
  cases exceeded with
  | false =>
    cases h
    exact List.Sublist.refl _
  | true =>
    obtain ⟨-, -, h⟩ := Journal.result_bind_eq_ok_iff.1 h
    split at h
    · cases h
      exact List.take_sublist _ _
    · cases h

theorem find_sorted (legal : host.files.Legal) {given : List Path}
    (normal : ∀ p ∈ given, p.Normal) {files : List Path}
    (h : (find settings host given).result = .ok files) :
    (∀ p ∈ files, p.Normal) ∧ files.Pairwise fun p q => p.components < q.components := by
  rw [find] at h
  obtain ⟨found, all, h⟩ := Journal.result_bind_eq_ok_iff.1 h
  have kept := limit_sublist h
  have each := findAll_normal legal normal all
  constructor
  · intro p member
    exact each p (mem_inOrder.1 (kept.subset member))
  · exact (pairwise_inOrder each).sublist kept

theorem nodup_shown (legal : host.files.Legal) {given : List Path}
    (normal : ∀ p ∈ given, p.Normal) {files : List Path}
    (h : (find settings host given).result = .ok files) : (files.map Path.shown).Nodup := by
  obtain ⟨each, sorted⟩ := find_sorted legal normal h
  apply List.Nodup.map_on
  · intro p hp q hq same
    exact Path.shown_injective (each p hp) (each q hq) same
  · exact nodup_of_sorted sorted

def settingsRead : List Setting :=
  [.excludePatterns, .maxFileSize, .maxFiles, .languages, .allowHiddenFiles, .followLinks]

section Settings

variable {settings' : Settings}

theorem choice_congr (same : ∀ s ∈ settingsRead, settings'.value s = settings.value s) :
    choice settings' = choice settings := by
  have hidden := same .allowHiddenFiles (by decide)
  have links := same .followLinks (by decide)
  funext start
  rw [choice, choice, hidden, links]

theorem accepts_congr (same : ∀ s ∈ settingsRead, settings'.value s = settings.value s) :
    accepts settings' host = accepts settings host := by
  have patterns := same .excludePatterns (by decide)
  have size := same .maxFileSize (by decide)
  have languages := same .languages (by decide)
  have links := same .followLinks (by decide)
  have wanted : isWanted settings' = isWanted settings := by
    funext language
    rw [isWanted, isWanted, languages]
  have excluded : isExcluded settings' = isExcluded settings := by
    funext p
    rw [isExcluded, isExcluded, patterns]
  have unwanted : isUnwantedLink settings' host = isUnwantedLink settings host := by
    funext p
    rw [isUnwantedLink, isUnwantedLink, links]
  have allowed : hasAllowedSize settings' host = hasAllowedSize settings host := by
    funext p
    rw [hasAllowedSize, hasAllowedSize, Settings.byteLimit, Settings.byteLimit, size]
  funext p
  rw [accepts, accepts, wanted, excluded, unwanted, allowed]

theorem acceptAll_congr (same : ∀ s ∈ settingsRead, settings'.value s = settings.value s)
    (paths : List Path) : acceptAll settings' host paths = acceptAll settings host paths := by
  induction paths with
  | nil => rfl
  | cons p paths ih => rw [acceptAll, acceptAll, accepts_congr same, ih]

theorem findAll_congr (same : ∀ s ∈ settingsRead, settings'.value s = settings.value s)
    (paths : List Path) : findAll settings' host paths = findAll settings host paths := by
  induction paths with
  | nil => rfl
  | cons p paths ih =>
    rw [findAll, findAll, candidates, candidates, choice_congr same, acceptAll_congr same, ih]

theorem limit_congr (same : ∀ s ∈ settingsRead, settings'.value s = settings.value s)
    (files : List Path) : limit settings' files = limit settings files := by
  rw [limit, limit, same .maxFiles (by decide)]

theorem find_congr (same : ∀ s ∈ settingsRead, settings'.value s = settings.value s)
    (given : List Path) : find settings' host given = find settings host given := by
  rw [find, find, findAll_congr same]
  congr 1
  funext files
  exact limit_congr same (inOrder files)

end Settings

end ScopeComplexity.Sources
