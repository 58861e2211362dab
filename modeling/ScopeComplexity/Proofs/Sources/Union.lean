import Mathlib
import ScopeComplexity.Proofs.FileTree.Directories
import ScopeComplexity.Proofs.Path.Size
import ScopeComplexity.Proofs.Sources

namespace ScopeComplexity

theorem Host.exists?_missing {host : Host} {name : String} {entries : List (String × FileTree)}
    (root : host.files.descend [] = some (.directory entries)) (ordinary : FileTree.OrdinaryName name)
    (clean : '\x00' ∉ name.toList) (short : Path.size ⟨.slash, [name]⟩ < FileTree.pathLimit)
    (unlisted : entries.lookup name = none) : host.exists? ⟨.slash, [name]⟩ = .ok false := by
  have hasNull : Path.hasNull ⟨.slash, [name]⟩ = false := Path.hasNull_of_parts (by simpa using clean)
  have entry : host.entry ⟨.slash, [name]⟩ = .error .missing := by
    rw [Host.entry, FileTree.entry, FileTree.locate, if_neg (Nat.not_le.2 short), if_neg Path.Root.noConfusion,
      FileTree.follow_cons ordinary root, unlisted]
    rfl
  rw [Host.exists?, hasNull, entry]
  rfl

theorem Host.exists?_longName {host : Host} {name : String} {entries : List (String × FileTree)}
    (work : host.files.descend host.work.parts = some (.directory entries))
    (long : FileTree.nameLimit < name.utf8ByteSize) (clean : '\x00' ∉ name.toList) :
    host.exists? ⟨.none, [name]⟩ = .error .nameTooLong := by
  have hasNull : Path.hasNull ⟨.none, [name]⟩ = false := by
    rw [Path.hasNull, Path.shown_name]
    simpa using clean
  have entry : host.entry ⟨.none, [name]⟩ = .error .nameTooLong := by
    rw [Host.entry, FileTree.entry, FileTree.locate, if_pos rfl, FileTree.follow_longName work long]
    split <;> rfl
  rw [Host.exists?, hasNull, entry]
  rfl

namespace Sources

def limited (settings : Settings) (most : Value) : Settings where
  value
    | .maxFiles => most
    | s => settings.value s

def isAccepted (settings : Settings) (host : Host) (p : Path) : Bool :=
  (accepts settings host p).result.toOption.getD false

def Decided (settings : Settings) (host : Host) (p : Path) : Prop :=
  ∀ q ∈ candidates settings host p, ∃ accepted, (accepts settings host q).result = .ok accepted

def found (settings : Settings) (host : Host) (p : Path) : List Path :=
  (candidates settings host p).filter (isAccepted settings host)

variable {settings : Settings} {host : Host}

theorem result_acceptAll {paths : List Path}
    (decided : ∀ p ∈ paths, ∃ accepted, (accepts settings host p).result = .ok accepted) :
    (acceptAll settings host paths).result = .ok (paths.filter (isAccepted settings host)) := by
  induction paths with
  | nil => rfl
  | cons p paths ih =>
    obtain ⟨⟨accepted, own⟩, others⟩ := List.forall_mem_cons.1 decided
    have same : isAccepted settings host p = accepted := by rw [isAccepted, own]; rfl
    rw [acceptAll, Journal.result_bind_of_ok own, Journal.result_bind_of_ok (ih others), List.filter_cons,
      same]
    cases accepted <;> rfl

theorem result_answered {p : Path} {b : Bool} (h : host.exists? p = .ok b) :
    (answered p (host.exists? p)).result = .ok b := by
  rw [h]
  rfl

section Existing

variable {p : Path} {paths : List Path}

theorem result_findAll_cons (there : host.exists? p = .ok true) (decided : Decided settings host p) :
    (findAll settings host (p :: paths)).result =
      (findAll settings host paths).result.map (found settings host p ++ ·) := by
  rw [findAll, Journal.result_bind_of_ok (result_answered there)]
  change (acceptAll settings host (candidates settings host p) >>= fun accepted =>
    findAll settings host paths >>= fun others => pure (accepted ++ others)).result = _
  rw [Journal.result_bind_of_ok (result_acceptAll decided), Journal.result_bind]
  cases (findAll settings host paths).result <;> rfl

theorem result_findAll_append {before : List Path} (there : ∀ p ∈ before, host.exists? p = .ok true)
    (decided : ∀ p ∈ before, Decided settings host p) (after : List Path) :
    (findAll settings host (before ++ after)).result =
      (findAll settings host after).result.map (before.flatMap (found settings host) ++ ·) := by
  induction before with
  | nil =>
    rw [List.nil_append]
    cases (findAll settings host after).result <;> rfl
  | cons p before ih =>
    rw [List.forall_mem_cons] at there decided
    rw [List.cons_append, result_findAll_cons there.1 decided.1, ih there.2 decided.2, List.flatMap_cons]
    cases (findAll settings host after).result with
    | error e => rfl
    | ok files => exact congrArg Except.ok (List.append_assoc _ _ _).symm

end Existing

theorem result_limit {m : Int} (most : (settings.value .maxFiles).number? = some (.whole m))
    (positive : 0 ≤ m) (files : List Path) :
    (limit settings files).result = .ok (files.take m.toNat) := by
  have exceeded : (Journal.ofExcept (Settings.sound
      ((settings.value .maxFiles).exceededBy files.length))).result = .ok (decide (m < files.length)) := by
    rw [Value.exceededBy, Value.less, Value.compare, most]
    rfl
  rw [limit]
  refine (Journal.result_bind_of_ok exceeded _).trans ?_
  by_cases more : m < files.length
  · rw [decide_eq_true more, if_pos rfl]
    refine (Journal.result_bind _ _).trans ?_
    rw [most]
    rfl
  · have all : files.length ≤ m.toNat := by omega
    rw [decide_eq_false more, if_neg Bool.false_ne_true, List.take_of_length_le all]
    rfl

theorem result_find {m : Int} (most : (settings.value .maxFiles).number? = some (.whole m))
    (positive : 0 ≤ m) {given : List Path} (there : ∀ p ∈ given, host.exists? p = .ok true)
    (decided : ∀ p ∈ given, Decided settings host p) :
    (find settings host given).result =
      .ok ((inOrder (given.flatMap (found settings host))).take m.toNat) := by
  have all := result_findAll_append there decided []
  rw [List.append_nil] at all
  have all' : (findAll settings host given).result = .ok (given.flatMap (found settings host)) := by
    rw [all]
    simp [findAll, Except.map]
  rw [find, Journal.result_bind_of_ok all', result_limit most positive]

theorem length_le_of_find {m : Int} (most : (settings.value .maxFiles).number? = some (.whole m)) (positive : 0 ≤ m)
    {given files : List Path} (h : (find settings host given).result = .ok files) : files.length ≤ m.toNat := by
  rw [find] at h
  obtain ⟨all, -, h⟩ := Journal.result_bind_eq_ok_iff.1 h
  rw [result_limit most positive] at h
  cases h
  exact List.length_take_le _ _

theorem inOrder_congr {paths paths' : List Path} (normal : ∀ p ∈ paths, p.Normal)
    (same : ∀ p, p ∈ paths ↔ p ∈ paths') : inOrder paths = inOrder paths' := by
  have sorted := pairwise_inOrder normal
  have sorted' := pairwise_inOrder fun p member => normal p ((same p).2 member)
  apply List.Perm.eq_of_pairwise _ sorted sorted'
  · rw [List.perm_ext_iff_of_nodup (nodup_of_sorted sorted) (nodup_of_sorted sorted')]
    intro p
    rw [mem_inOrder, mem_inOrder, same]
  · intro p q _ _ below above
    exact (lt_asymm below above).elim

theorem found_normal (legal : host.files.Legal) {p : Path} (normal : p.Normal) :
    ∀ q ∈ found settings host p, q.Normal := fun q member =>
  candidates_normal legal normal q (List.mem_filter.1 member).1

section Missing

variable {before : List Path}

theorem result_find_missing (there : ∀ q ∈ before, host.exists? q = .ok true)
    (decided : ∀ q ∈ before, Decided settings host q) {p : Path} {e : Failure}
    (after : List Path) (ends : (findAll settings host (p :: after)).result = .error e) :
    (find settings host (before ++ p :: after)).result = .error e := by
  rw [find, Journal.result_bind, result_findAll_append there decided, ends]
  rfl

theorem result_findAll_missing {p : Path} (missing : host.exists? p = .ok false) (after : List Path) :
    (findAll settings host (p :: after)).result =
      .error (.fault (.invalidPath (.path p) "does not exist")) := by
  rw [findAll, Journal.result_bind_of_ok (result_answered missing)]
  rfl

theorem result_findAll_unanswered {p : Path} {o : Obstacle} (unanswered : host.exists? p = .error o)
    (after : List Path) :
    (findAll settings host (p :: after)).result = .error (.defect (.unopened o p.shown)) := by
  rw [findAll, Journal.result_bind, unanswered]
  rfl

theorem result_findAll_undecided {p : Path} {e : Failure} (there : host.exists? p = .ok true)
    (ends : (acceptAll settings host (candidates settings host p)).result = .error e) (after : List Path) :
    (findAll settings host (p :: after)).result = .error e := by
  rw [findAll, Journal.result_bind_of_ok (result_answered there)]
  change (acceptAll settings host (candidates settings host p) >>= fun accepted =>
    findAll settings host after >>= fun others => pure (accepted ++ others)).result = _
  rw [Journal.result_bind, ends]
  rfl

end Missing

section Union

variable {given : List Path} {most : Value} {m : Int}

/-- A given path that is there, and of whose files it can be told which are accepted. -/
structure Settled (settings : Settings) (host : Host) (p : Path) : Prop where
  normal : p.Normal
  there : host.exists? p = .ok true
  decided : Decided settings host p

def foundFrom (settings : Settings) (host : Host) (given : List Path) : List Path :=
  inOrder (given.flatMap (found settings host))

theorem result_find_limited (settled : ∀ p ∈ given, Settled settings host p)
    (whole : most.number? = some (.whole m)) (positive : 0 ≤ m) :
    (find (limited settings most) host given).result =
      .ok ((foundFrom settings host given).take m.toNat) :=
  result_find whole positive (fun p member => (settled p member).there)
    fun p member => (settled p member).decided

theorem foundFrom_normal (legal : host.files.Legal) (settled : ∀ p ∈ given, Settled settings host p) :
    ∀ q ∈ given.flatMap (found settings host), q.Normal := by
  rw [List.forall_mem_flatMap]
  exact fun p member => found_normal legal (settled p member).normal

theorem length_foundFrom_le (legal : host.files.Legal) {part : List Path}
    (settled : ∀ p ∈ given, Settled settings host p) (within : part ⊆ given) :
    (foundFrom settings host part).length ≤ (foundFrom settings host given).length := by
  have sorted := pairwise_inOrder (foundFrom_normal legal fun p member => settled p (within member))
  apply (List.subperm_of_subset (nodup_of_sorted sorted) _).length_le
  intro q member
  rw [foundFrom, mem_inOrder, List.mem_flatMap] at *
  obtain ⟨p, member, own⟩ := member
  exact ⟨p, within member, own⟩

/-- Searching from several paths finds what searching from each of them finds, together and in order, cut to the number
of files that is allowed. The first path that leads nowhere ends the search. -/
theorem find_union (settings : Settings) (legal : host.files.Legal) :
    (∀ ps qs : List Path, (∀ p ∈ ps ++ qs, Settled settings host p) →
      ∃ files filesP filesQ : List Path,
        (files.Pairwise fun p q => p.components < q.components) ∧
        (∀ q, q ∈ files ↔ q ∈ filesP ∨ q ∈ filesQ) ∧
        (∀ (most : Value) (m : Int), most.number? = some (.whole m) → files.length ≤ m →
          (find (limited settings most) host ps).result = .ok filesP ∧
          (find (limited settings most) host qs).result = .ok filesQ ∧
          (find (limited settings most) host (ps ++ qs)).result = .ok files) ∧
        ∀ given : List Path, (∀ p, p ∈ given ↔ p ∈ ps ++ qs) →
          ∀ (most : Value) (m : Int), most.number? = some (.whole m) → 1 ≤ m →
            (find (limited settings most) host given).result = .ok (files.take m.toNat)) ∧
    ∀ (before : List Path) (p : Path) (after : List Path) (most : Value),
      (∀ q ∈ before, Settled settings host q) →
        (host.exists? p = .ok false →
          (find (limited settings most) host (before ++ p :: after)).result =
            .error (.fault (.invalidPath (.path p) "does not exist"))) ∧
        ∀ o, host.exists? p = .error o →
          (find (limited settings most) host (before ++ p :: after)).result =
            .error (.defect (.unopened o p.shown)) := by
  constructor
  · intro ps qs settled
    have settledP : ∀ p ∈ ps, Settled settings host p :=
      fun p member => settled p (List.mem_append_left _ member)
    have settledQ : ∀ p ∈ qs, Settled settings host p :=
      fun p member => settled p (List.mem_append_right _ member)
    refine ⟨foundFrom settings host (ps ++ qs), foundFrom settings host ps,
      foundFrom settings host qs, pairwise_inOrder (foundFrom_normal legal settled), ?_, ?_, ?_⟩
    · intro q
      rw [foundFrom, foundFrom, foundFrom, mem_inOrder, mem_inOrder, mem_inOrder, List.flatMap_append,
        List.mem_append]
    · intro most m whole enough
      have positive : 0 ≤ m := by omega
      have lengthP := length_foundFrom_le legal settled (List.subset_append_left ps qs)
      have lengthQ := length_foundFrom_le legal settled (List.subset_append_right ps qs)
      rw [result_find_limited settledP whole positive, result_find_limited settledQ whole positive,
        result_find_limited settled whole positive, List.take_of_length_le (by omega),
        List.take_of_length_le (by omega), List.take_of_length_le (by omega)]
      exact ⟨rfl, rfl, rfl⟩
    · intro given same most m whole positive
      have settledG : ∀ p ∈ given, Settled settings host p :=
        fun p member => settled p ((same p).1 member)
      have order : foundFrom settings host given = foundFrom settings host (ps ++ qs) := by
        apply inOrder_congr (foundFrom_normal legal settledG)
        intro q
        rw [List.mem_flatMap, List.mem_flatMap]
        exact exists_congr fun p => and_congr_left' (same p)
      rw [result_find_limited settledG whole (by omega), order]
  · intro before p after most settled
    have there : ∀ q ∈ before, host.exists? q = .ok true := fun q member => (settled q member).there
    have decided : ∀ q ∈ before, Decided (limited settings most) host q :=
      fun q member => (settled q member).decided
    constructor
    · intro missing
      exact result_find_missing there decided after (result_findAll_missing missing after)
    · intro o unanswered
      exact result_find_missing there decided after (result_findAll_unanswered unanswered after)

def twoScripts : Host where
  files := .directory [("a", .directory [("x.py", .file .empty), ("y.py", .file .empty)])]
  home := .ofText "/"
  work := .ofText "/"

def unpatterned : Settings where
  value
    | .maxFileSize => .whole 1
    | .excludePatterns => .list []
    | s => s.standard

theorem settled_twoScripts :
    ∀ p ∈ [⟨.slash, ["a"]⟩] ++ [⟨.slash, ["a", "x.py"]⟩], Settled unpatterned twoScripts p := by
  have x : (accepts unpatterned twoScripts ⟨.slash, ["a", "x.py"]⟩).result = .ok true := by cbv
  have y : (accepts unpatterned twoScripts ⟨.slash, ["a", "y.py"]⟩).result = .ok true := by cbv
  have directory : candidates unpatterned twoScripts ⟨.slash, ["a"]⟩ =
      [⟨.slash, ["a", "x.py"]⟩, ⟨.slash, ["a", "y.py"]⟩] := by cbv
  have file : candidates unpatterned twoScripts ⟨.slash, ["a", "x.py"]⟩ =
      [⟨.slash, ["a", "x.py"]⟩] := by cbv
  rw [List.singleton_append, List.forall_mem_cons, List.forall_mem_singleton]
  constructor
  · refine ⟨Path.normal_ofText "/a", by cbv, ?_⟩
    rw [Decided, directory, List.forall_mem_cons, List.forall_mem_singleton]
    exact ⟨⟨true, x⟩, ⟨true, y⟩⟩
  · refine ⟨Path.normal_ofText "/a/x.py", by cbv, ?_⟩
    rw [Decided, file, List.forall_mem_singleton]
    exact ⟨true, x⟩

theorem wellFormed_twoScripts : twoScripts.files.WellFormed := by
  have scripts : (FileTree.directory [("x.py", .file .empty), ("y.py", .file .empty)]).WellFormed := by
    apply FileTree.WellFormed.directory
    · decide
    · decide
    · simp [FileTree.WellFormed.file]
  apply FileTree.WellFormed.directory
  · decide
  · decide
  · rw [List.forall_mem_singleton]
    exact scripts

theorem find_union_of_twoScripts :
    (∃ files filesP filesQ : List Path,
      (files.Pairwise fun p q => p.components < q.components) ∧
      (∀ q, q ∈ files ↔ q ∈ filesP ∨ q ∈ filesQ) ∧
      (find (limited unpatterned (.whole files.length)) twoScripts
        ([⟨.slash, ["a"]⟩] ++ [⟨.slash, ["a", "x.py"]⟩])).result = .ok files) ∧
    (find (limited unpatterned (.whole 1)) twoScripts
      ([⟨.slash, ["a"]⟩] ++ ⟨.slash, ["b"]⟩ :: [⟨.slash, ["a"]⟩])).result =
        .error (.fault (.invalidPath (.path ⟨.slash, ["b"]⟩) "does not exist")) := by
  obtain ⟨union, missing⟩ := find_union unpatterned wellFormed_twoScripts.legal
  obtain ⟨files, filesP, filesQ, sorted, members, unlimited, -⟩ := union _ _ settled_twoScripts
  constructor
  · exact ⟨files, filesP, filesQ, sorted, members, (unlimited (.whole files.length) _ rfl le_rfl).2.2⟩
  · apply (missing _ _ _ _ _).1
    · cbv
    · exact (List.forall_mem_append.1 settled_twoScripts).1

def longName : String := String.ofList (List.replicate 256 'n')

theorem exists?_longName : twoScripts.exists? ⟨.none, [longName]⟩ = .error .nameTooLong := by
  apply Host.exists?_longName rfl
  · have large : longName.utf8ByteSize = 256 := Path.utf8ByteSize_replicate 'n' 256
    rw [large]
    decide
  · intro member
    have letters : longName.toList = List.replicate 256 'n' := String.toList_ofList
    exact absurd (List.eq_of_mem_replicate (letters ▸ member)) (by decide)

/-- A path with too long a name in it leads nowhere, but is not said to be missing. -/
theorem find_longName :
    (find Settings.standard twoScripts [⟨.none, [longName]⟩]).result =
      .error (.defect (.unopened .nameTooLong longName)) := by
  rw [find, Journal.result_bind, result_findAll_unanswered exists?_longName, Path.shown_name]
  rfl

end Union

end Sources

end ScopeComplexity
