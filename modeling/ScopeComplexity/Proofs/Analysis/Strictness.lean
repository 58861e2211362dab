import ScopeComplexity.Proofs.Analysis.Stalling
import ScopeComplexity.Proofs.Sources.Found
import ScopeComplexity.Proofs.Sources.Union

namespace ScopeComplexity.Analysis

open Syntax

variable {settings lenient strict : Settings} {frontEnd : FrontEnd} {host : Host} {p : Path}
  {files given : List Path}

def Breaks (frontEnd : FrontEnd) (host : Host) (p : Path) (language : Language) : Prop :=
  ∃ reading, reading? frontEnd host p = some (language, reading) ∧ reading.hasErrors = true

/-- A file of which something comes: a tree that is not too large, or a fault. -/
structure Workable (frontEnd : FrontEnd) (host : Host) (p : Path) : Prop where
  clean : p.hasNull = false
  normal : p.Normal
  countable : nodes frontEnd host p < Decimal.Binary64.wholeLimit

structure Moves (frontEnd : FrontEnd) (host : Host) (files : List Path) (lenient strict : Report Float) :
    Prop where
  distinct : (files.map Path.shown).Nodup
  lenientKeys : (lenient.files.keys ++ lenient.errors.keys).Perm (files.map Path.shown)
  strictKeys : (strict.files.keys ++ strict.errors.keys).Perm (files.map Path.shown)
  scopes : ∀ key scope, strict.files.get? key = some scope → lenient.files.get? key = some scope
  errors : ∀ key reason, lenient.errors.get? key = some reason → strict.errors.get? key = some reason
  moved : ∀ key, lenient.files.get? key ≠ none ∧ strict.errors.get? key ≠ none ↔
    ∃ p ∈ files, p.shown = key ∧ ∃ language, Breaks frontEnd host p language
  reason : ∀ p ∈ files, ∀ language, Breaks frontEnd host p language →
    strict.errors.get? p.shown = some ("Failed to parse " ++ language.name ++ " file: " ++ p.shown ++ " (filepath=" ++
      p.shown ++ ", language=" ++ language.name ++ ", reason=syntax tree contains errors)")
  unread : ∀ p ∈ files, ∀ obstacle, host.read p = .error obstacle → ∀ report ∈ [lenient, strict],
    report.errors.get? p.shown = some ("Cannot access file: " ++ p.shown ++ " (filepath=" ++ p.shown ++ ", reason=" ++
      obstacle.message p.shown ++ ")")

section File

variable (workable : Workable frontEnd host p)

include workable

theorem result_file {language : Language} {reading : Reading}
    (found : reading? frontEnd host p = some (language, reading)) :
    (file settings frontEnd host p none).result =
      if reading.hasErrors && (settings.value .strictParsing).isTrue then .error (.fault (broken p language))
      else .ok (Scope.ofNode language.rules (.root reading.root) (some p.shown)) := by
  have small : (Site.root reading.root).node.places.length < Decimal.Binary64.wholeLimit :=
    nodes_of_reading found ▸ workable.countable
  rw [result_file_of_reading workable.clean workable.normal found,
    result_unit (Scope.hasMean_ofNode small _ (Scope.mem_walk_self _))]

theorem settled_file (settings : Settings) : Settled (file settings frontEnd host p none).result := by
  cases found : reading? frontEnd host p with
  | none =>
    obtain ⟨f, family, fails⟩ := result_file_of_unread workable.clean found
    rw [fails]
    exact family
  | some read =>
    rw [result_file workable found]
    split
    · rfl
    · trivial

theorem result_file_of_not_breaks (sound : ∀ language, ¬Breaks frontEnd host p language)
    (settings settings' : Settings) :
    (file settings' frontEnd host p none).result = (file settings frontEnd host p none).result := by
  cases found : reading? frontEnd host p with
  | none =>
    obtain ⟨f, -, fails⟩ := result_file_of_unread workable.clean found
    rw [fails, fails]
  | some read =>
    have errors : read.2.hasErrors = false :=
      Bool.eq_false_iff.2 fun errors => sound read.1 ⟨read.2, found, errors⟩
    rw [result_file workable found, result_file workable found, errors]
    rfl

section Breaks

variable {language : Language} (breaks : Breaks frontEnd host p language)

include breaks

theorem exists_scope_of_breaks (off : (lenient.value .strictParsing).isTrue = false) :
    ∃ scope, (file lenient frontEnd host p none).result = .ok scope := by
  obtain ⟨reading, found, -⟩ := breaks
  rw [result_file workable found, off, Bool.and_false, if_neg Bool.false_ne_true]
  exact ⟨_, rfl⟩

theorem result_file_of_breaks (on : (strict.value .strictParsing).isTrue = true) :
    (file strict frontEnd host p none).result = .error (.fault (broken p language)) := by
  obtain ⟨reading, found, errors⟩ := breaks
  rw [result_file workable found, errors, on]
  rfl

end Breaks

end File

theorem result_file_of_error (clean : p.hasNull = false) {obstacle : Obstacle}
    (unread : host.read p = .error obstacle) :
    (file settings frontEnd host p none).result =
      .error (.fault (.fileAccess (.path p) (obstacle.message p.shown))) := by
  rw [file, clean, if_neg Bool.false_ne_true, unread]
  rfl

theorem moves_of_lists {r r' : Report Float} (distinct : (files.map Path.shown).Nodup)
    (workable : ∀ p ∈ files, Workable frontEnd host p)
    (off : (lenient.value .strictParsing).isTrue = false) (on : (strict.value .strictParsing).isTrue = true)
    (lists : Lists r files fun p => (file lenient frontEnd host p none).result)
    (lists' : Lists r' files fun p => (file strict frontEnd host p none).result) :
    Moves frontEnd host files r r' := by
  have moved {p : Path} (member : p ∈ files) {language : Language} (breaks : Breaks frontEnd host p language) :
      r.files.get? p.shown ≠ none ∧ r.errors.get? p.shown = none ∧ r'.files.get? p.shown = none ∧
        r'.errors.get? p.shown = some (broken p language).shown := by
    obtain ⟨scope, fine⟩ := exists_scope_of_breaks (workable p member) breaks off
    have fails := result_file_of_breaks (workable p member) breaks on
    rw [lists.scope p member, lists.error p member, lists'.scope p member, lists'.error p member, fine, fails]
    exact ⟨nofun, rfl, rfl, rfl⟩
  have kept {key : String} (other : ¬∃ p ∈ files, p.shown = key ∧ ∃ language, Breaks frontEnd host p language) :
      r'.files.get? key = r.files.get? key ∧ r'.errors.get? key = r.errors.get? key := by
    by_cases known : key ∈ files.map Path.shown
    · obtain ⟨p, member, rfl⟩ := List.mem_map.1 known
      have sound : ∀ language, ¬Breaks frontEnd host p language := fun language breaks =>
        other ⟨p, member, rfl, language, breaks⟩
      have same := result_file_of_not_breaks (workable p member) sound lenient strict
      rw [lists.scope p member, lists.error p member, lists'.scope p member, lists'.error p member, same]
      exact ⟨rfl, rfl⟩
    · rw [(lists.absent known).1, (lists.absent known).2, (lists'.absent known).1, (lists'.absent known).2]
      exact ⟨rfl, rfl⟩
  refine ⟨distinct, lists.keys, lists'.keys, ?_, ?_, ?_, ?_, ?_⟩
  · intro key scope entry
    by_cases breaks : ∃ p ∈ files, p.shown = key ∧ ∃ language, Breaks frontEnd host p language
    · obtain ⟨p, member, rfl, language, breaks⟩ := breaks
      cases (moved member breaks).2.2.1.symm.trans entry
    · exact (kept breaks).1.symm.trans entry
  · intro key reason entry
    by_cases breaks : ∃ p ∈ files, p.shown = key ∧ ∃ language, Breaks frontEnd host p language
    · obtain ⟨p, member, rfl, language, breaks⟩ := breaks
      cases (moved member breaks).2.1.symm.trans entry
    · exact (kept breaks).2.trans entry
  · intro key
    constructor
    · rintro ⟨present, failed⟩
      by_contra other
      obtain ⟨p, member, rfl⟩ : ∃ p ∈ files, p.shown = key := by
        by_contra known
        exact present (lists.absent (mt List.mem_map.1 known)).1
      rw [lists.scope p member] at present
      rw [(kept other).2, lists.error p member] at failed
      cases outcome : (file lenient frontEnd host p none).result with
      | ok scope => exact failed (by rw [outcome]; rfl)
      | error failure => exact present (by rw [outcome]; rfl)
    · rintro ⟨p, member, rfl, language, breaks⟩
      obtain ⟨present, -, -, failed⟩ := moved member breaks
      exact ⟨present, by simp [failed]⟩
  · intro p member language breaks
    rw [(moved member breaks).2.2.2, shown_broken]
  · intro p member obstacle unread
    have fails (settings : Settings) : (file settings frontEnd host p none).result = _ :=
      result_file_of_error (workable p member).clean unread
    rw [List.forall_mem_cons, List.forall_mem_singleton, lists.error p member, lists'.error p member, fails, fails,
      reason?, Failure.message, Fault.shown_fileAccess]
    exact ⟨rfl, rfl⟩

/-- Strict parsing takes the files whose trees have errors out of a report, and says so of each. It takes out no
others and touches nothing else, however the two runs are scheduled. All that is asked of the trees is that a
double can hold the number of their nodes. Only with a number of workers that is no number there are no reports. -/
theorem strict_moves_to_errors (same : ∀ s, s ≠ .strictParsing → strict.value s = lenient.value s)
    (off : (lenient.value .strictParsing).isTrue = false) (on : (strict.value .strictParsing).isTrue = true)
    (checked : lenient.check = .ok ()) (checked' : strict.check = .ok ())
    (processors : ∀ n ∈ host.processors, 0 ≤ n) (legal : host.files.Legal) (nullFree : host.files.NullFree)
    (normal : ∀ p ∈ given, p.Normal) (found : (Sources.find lenient host given).result = .ok files)
    (countable : ∀ p ∈ files, nodes frontEnd host p < Decimal.Binary64.wholeLimit)
    (schedule schedule' : Schedule) :
    (Stalls lenient files →
      (paths schedule lenient frontEnd host given).result = .error (.defect .stalled) ∧
      (paths schedule' strict frontEnd host given).result = .error (.defect .stalled)) ∧
    (¬Stalls lenient files → ∃ r r', (paths schedule lenient frontEnd host given).result = .ok r ∧
      (paths schedule' strict frontEnd host given).result = .ok r' ∧ Moves frontEnd host files r r') := by
  have sameStalls : Stalls strict files ↔ Stalls lenient files := by
    have workers := same .workers (by decide)
    exact ⟨fun ⟨set, many⟩ => ⟨workers ▸ set, many⟩, fun ⟨set, many⟩ => ⟨workers.symm ▸ set, many⟩⟩
  have found' : (Sources.find strict host given).result = .ok files := by
    rw [Sources.find_congr, found]
    intro s read
    apply same
    rintro rfl
    revert read
    decide
  have distinct := Sources.nodup_shown legal normal found
  have workable : ∀ p ∈ files, Workable frontEnd host p := by
    intro p member
    obtain ⟨-, t, -, entry⟩ := Sources.entry_of_accepts (Sources.accepted_of_find found p member)
    exact ⟨Host.hasNull_of_entry nullFree entry, (Sources.find_sorted legal normal found).1 p member,
      countable p member⟩
  have settled (settings : Settings) : ∀ p ∈ files, Settled (file settings frontEnd host p none).result :=
    fun p member => settled_file (workable p member) settings
  constructor
  · intro stalls
    exact ⟨stalls.result_paths found schedule, (sameStalls.2 stalls).result_paths found' schedule'⟩
  · intro going
    obtain ⟨r, run, lists⟩ :=
      paths_lists found distinct (settled lenient) (staffed_of_check checked processors going) schedule
    obtain ⟨r', run', lists'⟩ := paths_lists found' distinct (settled strict)
      (staffed_of_check checked' processors (mt sameStalls.1 going)) schedule'
    exact ⟨r, r', run, run', moves_of_lists distinct workable off on lists lists'⟩

def mixedHost : Host where
  files := .directory
    [("a.py", .file ⟨#[40]⟩), ("b.js", .file .empty), ("c.py", .file .empty), ("e.py", .file ⟨#[40]⟩)]
  readable names := names != ["e.py"]
  home := .ofText "/"
  work := .ofText "/"

def mixedFiles : List Path := [⟨.none, ["a.py"]⟩, ⟨.none, ["b.js"]⟩, ⟨.none, ["c.py"]⟩, ⟨.none, ["e.py"]⟩]

def wary : FrontEnd where
  grammars := ["python"]
  read _ code := ⟨.node { kind := "module" } [], code.size != 0⟩

def strictly : Settings where
  value
    | .strictParsing => .flag true
    | s => Sources.unpatterned.value s

theorem find_mixedFiles : (Sources.find Sources.unpatterned mixedHost mixedFiles).result = .ok mixedFiles := by
  have all : (Sources.findAll Sources.unpatterned mixedHost mixedFiles).result = .ok mixedFiles := by cbv
  have order : Sources.inOrder mixedFiles = mixedFiles := by
    apply Sources.inOrder_eq_self
    decide
  rw [Sources.find, Journal.result_bind_of_ok all, order]
  cbv

theorem nodes_wary_le (host : Host) (p : Path) : nodes wary host p ≤ 1 := by
  cases found : reading? wary host p with
  | none => simp [nodes, found]
  | some read =>
    obtain ⟨content, -, -, -, made⟩ := reading?_eq_some_iff.1 found
    rw [nodes_of_reading found, ← made]
    rfl

theorem strict_moves_to_errors_of_mixed :
    ∃ r r', (paths .inOrder Sources.unpatterned wary mixedHost mixedFiles).result = .ok r ∧
      (paths .inOrder strictly wary mixedHost mixedFiles).result = .ok r' ∧
      Moves wary mixedHost mixedFiles r r' ∧ r.files.get? "a.py" ≠ none ∧
      r'.errors.get? "a.py" = some ("Failed to parse python file: a.py " ++
        "(filepath=a.py, language=python, reason=syntax tree contains errors)") ∧
      r'.errors.get? "e.py" = some ("Cannot access file: e.py " ++
        "(filepath=e.py, reason=[Errno 13] Permission denied: 'e.py')") := by
  have same : ∀ s, s ≠ .strictParsing → strictly.value s = Sources.unpatterned.value s := by
    intro s other
    cases s <;> first | rfl | contradiction
  have legal : mixedHost.files.Legal := by
    apply FileTree.Legal.directory
    · simp [Path.IsName, Path.isPart]
    · simp [FileTree.Legal.file]
  have nullFree : mixedHost.files.NullFree := by
    apply FileTree.NullFree.directory
    · simp
    · simp [FileTree.NullFree.file]
  have normal : ∀ p ∈ mixedFiles, p.Normal := by
    simp [mixedFiles, Path.Normal, Path.IsName, Path.isPart]
  have countable : ∀ p ∈ mixedFiles, nodes wary mixedHost p < Decimal.Binary64.wholeLimit :=
    fun p _ => (nodes_wary_le mixedHost p).trans_lt (Decimal.lt_twoTo (by decide))
  have going : ¬Stalls Sources.unpatterned mixedFiles := fun stalls => absurd stalls.many (by decide)
  obtain ⟨r, r', run, run', moves⟩ := (strict_moves_to_errors same rfl rfl (by rfl) (by rfl)
    (by simp [mixedHost]) legal nullFree normal find_mixedFiles countable .inOrder .inOrder).2 going
  have breaks : Breaks wary mixedHost ⟨.none, ["a.py"]⟩ .python :=
    ⟨⟨.node { kind := "module" } [], true⟩, by cbv, rfl⟩
  have shown : Path.shown ⟨.none, ["a.py"]⟩ = "a.py" := Path.shown_name _
  have shown' : Path.shown ⟨.none, ["e.py"]⟩ = "e.py" := Path.shown_name _
  have forbidden : mixedHost.read ⟨.none, ["e.py"]⟩ = .error .forbidden := by cbv
  refine ⟨r, r', run, run', moves, ?_, ?_, ?_⟩
  · exact ((moves.moved "a.py").2 ⟨_, List.mem_cons_self, shown, .python, breaks⟩).1
  · have reason := moves.reason _ List.mem_cons_self .python breaks
    rw [shown] at reason
    exact reason.trans (congrArg some (by decide))
  · have reason := moves.unread _ (by simp [mixedFiles]) .forbidden forbidden r' (by simp)
    have message : Obstacle.forbidden.message "e.py" = "[Errno 13] Permission denied: 'e.py'" := by cbv
    rw [shown', message] at reason
    exact reason.trans (congrArg some (by decide))

end ScopeComplexity.Analysis
