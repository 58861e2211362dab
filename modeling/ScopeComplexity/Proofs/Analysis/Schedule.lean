import Mathlib
import ScopeComplexity.Proofs.Analysis.Gathering
import ScopeComplexity.Proofs.Keyed
import ScopeComplexity.Proofs.Sources

namespace ScopeComplexity

/-- Reports that no look-up and no printing tells apart. -/
structure Report.Alike {α : Type} [Measure α] (r r' : Report α) : Prop where
  files : ∀ path, r.files.get? path = r'.files.get? path
  errors : ∀ path, r.errors.get? path = r'.errors.get? path
  summary : r.summary = r'.summary
  record : ∀ withScopes, r.record withScopes = r'.record withScopes

theorem Report.alike_of_get?_eq {α : Type} [Measure α] {r r' : Report α}
    (distinct : (r.files.keys ++ r.errors.keys).Nodup)
    (distinct' : (r'.files.keys ++ r'.errors.keys).Nodup)
    (files : ∀ path, r.files.get? path = r'.files.get? path)
    (errors : ∀ path, r.errors.get? path = r'.errors.get? path) : r.Alike r' := by
  have sameFiles : r.files.sorted = r'.files.sorted :=
    Keyed.sorted_congr distinct.of_append_left
      (Keyed.perm_of_get?_eq distinct.of_append_left distinct'.of_append_left files)
  have sameErrors : r.errors.sorted = r'.errors.sorted :=
    Keyed.sorted_congr distinct.of_append_right
      (Keyed.perm_of_get?_eq distinct.of_append_right distinct'.of_append_right errors)
  have summary : r.summary = r'.summary := by rw [Report.summary, Report.summary, sameFiles]
  refine ⟨files, errors, summary, ?_⟩
  intro withScopes
  rw [record, record, sameFiles, sameErrors, summary]

namespace Analysis

open Syntax

def Settled : Except Failure (Scope Float) → Prop
  | .ok _ => True
  | .error (.fault f) => f.family = .analysis
  | .error (.defect _) => False

def reason? : Except Failure (Scope Float) → Option String
  | .ok _ => none
  | .error failure => some failure.message

/-- Each of some files has one entry in a report, the outcome for it, and there are no others. -/
structure Lists (r : Report Float) (files : List Path)
    (outcome : Path → Except Failure (Scope Float)) : Prop where
  keys : (r.files.keys ++ r.errors.keys).Perm (files.map Path.shown)
  distinct : (r.files.keys ++ r.errors.keys).Nodup
  scope : ∀ p ∈ files, r.files.get? p.shown = (outcome p).toOption
  error : ∀ p ∈ files, r.errors.get? p.shown = reason? (outcome p)

variable {r r' : Report Float} {files order : List Path}
  {outcome : Path → Except Failure (Scope Float)}

theorem Lists.absent (h : Lists r files outcome) {key : String}
    (other : key ∉ files.map Path.shown) :
    r.files.get? key = none ∧ r.errors.get? key = none := by
  rw [← h.keys.mem_iff, List.mem_append, not_or] at other
  exact ⟨Keyed.get?_eq_none_iff.2 other.1, Keyed.get?_eq_none_iff.2 other.2⟩

theorem Lists.alike (h : Lists r files outcome) (h' : Lists r' files outcome) : r.Alike r' := by
  apply Report.alike_of_get?_eq h.distinct h'.distinct
  · intro key
    by_cases known : key ∈ files.map Path.shown
    · obtain ⟨p, member, rfl⟩ := List.mem_map.1 known
      rw [h.scope p member, h'.scope p member]
    · rw [(h.absent known).1, (h'.absent known).1]
  · intro key
    by_cases known : key ∈ files.map Path.shown
    · obtain ⟨p, member, rfl⟩ := List.mem_map.1 known
      rw [h.error p member, h'.error p member]
    · rw [(h.absent known).2, (h'.absent known).2]

theorem Lists.perm (h : Lists r order outcome) (perm : order.Perm files) :
    Lists r files outcome where
  keys := h.keys.trans (perm.map Path.shown)
  distinct := h.distinct
  scope := fun p member => h.scope p (perm.mem_iff.2 member)
  error := fun p member => h.error p (perm.mem_iff.2 member)

def entered (r : Report Float) (p : Path) : Except Failure (Scope Float) → Report Float
  | .ok scope => r.addFile p.shown scope
  | .error failure => r.addError p.shown failure.message

theorem result_collect (r : Report Float) (p : Path) {outcome : Except Failure (Scope Float)}
    (settled : Settled outcome) : (collect r p outcome).result = .ok (entered r p outcome) := by
  cases outcome with
  | ok scope => rfl
  | error failure =>
    cases failure with
    | defect d => exact settled.elim
    | fault f =>
      have family : f.family = .analysis := settled
      rw [collect, if_pos family]
      rfl

theorem result_gather {analyze : Path → Journal Failure (Scope Float)}
    (settled : ∀ p ∈ order, Settled (analyze p).result) (r : Report Float) :
    (gather analyze r order).result
      = .ok (order.foldl (fun r p => entered r p (analyze p).result) r) := by
  induction order generalizing r with
  | nil => rfl
  | cons p order ih =>
    rw [List.forall_mem_cons] at settled
    rw [gather, Journal.result_bind_of_ok (Journal.result_attempt _),
      Journal.result_bind_of_ok (result_collect r p settled.1), ih settled.2, List.foldl_cons]

section Entered

variable {p : Path} (outcome : Except Failure (Scope Float))

theorem keys_entered (newFile : p.shown ∉ r.files.keys) (newError : p.shown ∉ r.errors.keys) :
    ((entered r p outcome).files.keys ++ (entered r p outcome).errors.keys).Perm
      (p.shown :: (r.files.keys ++ r.errors.keys)) := by
  cases outcome with
  | ok scope =>
    rw [entered, Report.addFile, Keyed.put_of_not_mem newFile, Keyed.keys, List.map_append,
      List.append_assoc]
    exact List.perm_middle
  | error failure =>
    rw [entered, Report.addError, Keyed.put_of_not_mem newError, Keyed.keys, Keyed.keys,
      List.map_append, ← List.append_assoc]
    exact List.perm_append_singleton _ _

theorem files_entered (newFile : p.shown ∉ r.files.keys) (key : String) :
    (entered r p outcome).files.get? key
      = if key = p.shown then outcome.toOption else r.files.get? key := by
  cases outcome with
  | ok scope => exact Keyed.get?_put _ _ _ _
  | error failure =>
    by_cases same : key = p.shown
    · rw [if_pos same, same]
      exact Keyed.get?_eq_none_iff.2 newFile
    · rw [if_neg same]
      rfl

theorem errors_entered (newError : p.shown ∉ r.errors.keys) (key : String) :
    (entered r p outcome).errors.get? key
      = if key = p.shown then reason? outcome else r.errors.get? key := by
  cases outcome with
  | ok scope =>
    by_cases same : key = p.shown
    · rw [if_pos same, same]
      exact Keyed.get?_eq_none_iff.2 newError
    · rw [if_neg same]
      rfl
  | error failure => exact Keyed.get?_put _ _ _ _

end Entered

theorem entered_lists (h : Lists r files outcome) {p : Path}
    (fresh : p.shown ∉ files.map Path.shown) :
    Lists (entered r p (outcome p)) (p :: files) outcome := by
  have other : ∀ q ∈ files, q.shown ≠ p.shown := by
    intro q member same
    exact fresh (same ▸ List.mem_map_of_mem member)
  rw [← h.keys.mem_iff] at fresh
  obtain ⟨newFile, newError⟩ := not_or.1 (mt List.mem_append.2 fresh)
  have keys := keys_entered (outcome p) newFile newError
  constructor
  · exact keys.trans (h.keys.cons p.shown)
  · exact keys.nodup_iff.2 (List.nodup_cons.2 ⟨fresh, h.distinct⟩)
  · rw [List.forall_mem_cons]
    constructor
    · rw [files_entered _ newFile, if_pos rfl]
    · intro q member
      rw [files_entered _ newFile, if_neg (other q member)]
      exact h.scope q member
  · rw [List.forall_mem_cons]
    constructor
    · rw [errors_entered _ newError, if_pos rfl]
    · intro q member
      rw [errors_entered _ newError, if_neg (other q member)]
      exact h.error q member

theorem foldl_entered_lists {done : List Path} (h : Lists r done outcome)
    (distinct : ((order ++ done).map Path.shown).Nodup) :
    Lists (order.foldl (fun r p => entered r p (outcome p)) r) (order ++ done) outcome := by
  induction order generalizing r done with
  | nil => exact h
  | cons p order ih =>
    have shift : (order ++ p :: done).Perm (p :: order ++ done) := List.perm_middle
    have distinct' := ((shift.map Path.shown).nodup_iff).2 distinct
    rw [List.map_append, List.map_cons] at distinct'
    have fresh := (List.nodup_cons.1 distinct'.of_append_right).1
    rw [← List.map_cons, ← List.map_append] at distinct'
    exact (ih (entered_lists h fresh) distinct').perm shift

theorem lists_empty (outcome : Path → Except Failure (Scope Float)) : Lists {} [] outcome where
  keys := List.Perm.refl _
  distinct := List.nodup_nil
  scope := List.forall_mem_nil _
  error := List.forall_mem_nil _

theorem gather_lists {analyze : Path → Journal Failure (Scope Float)}
    (perm : order.Perm files) (distinct : (files.map Path.shown).Nodup)
    (settled : ∀ p ∈ files, Settled (analyze p).result) :
    ∃ r, (gather analyze {} order).result = .ok r ∧ Lists r files fun p => (analyze p).result := by
  have distinct' : ((order ++ []).map Path.shown).Nodup := by
    rw [List.append_nil, (perm.map Path.shown).nodup_iff]
    exact distinct
  have lists := foldl_entered_lists (lists_empty fun p => (analyze p).result) distinct'
  rw [List.append_nil] at lists
  exact ⟨_, result_gather (fun p member => settled p (perm.mem_iff.1 member)) {}, lists.perm perm⟩

/-- Where several workers share the files, there is at least one. -/
def Staffed (settings : Settings) (host : Host) (files : List Path) : Prop :=
  inParallel settings host files = true → checkWorkers settings host = .ok ()

theorem checkWorkers_of_more {settings : Settings} {host : Host} {workers : Value}
    (effective : settings.effectiveWorkers host.processors = workers)
    (notFew : workers.lessOrEqual 0 = .ok false) {more : Bool} (compared : workers.more 0 = .ok more) :
    checkWorkers settings host = if more then .ok () else .error (.defect .stalled) := by
  rw [checkWorkers, effective]
  dsimp only
  rw [notFew, compared]
  cases more <;> rfl

theorem staffed_of_whole {settings : Settings} {host : Host} {n : Int}
    (workers : settings.effectiveWorkers host.processors = .whole n) (positive : 1 ≤ n)
    (files : List Path) : Staffed settings host files := by
  intro _
  have notFew : (Value.whole n).lessOrEqual 0 = .ok false :=
    congrArg Except.ok (decide_eq_false (not_le.2 (zero_lt_one.trans_le positive)))
  have more : (Value.whole n).more 0 = .ok true :=
    congrArg Except.ok (decide_eq_true (zero_lt_one.trans_le positive))
  exact checkWorkers_of_more workers notFew more

theorem paths_lists {settings : Settings} {frontEnd : FrontEnd} {host : Host} {given files : List Path}
    (found : (Sources.find settings host given).result = .ok files)
    (distinct : (files.map Path.shown).Nodup)
    (settled : ∀ p ∈ files, Settled (file settings frontEnd host p none).result)
    (staffed : Staffed settings host files) (schedule : Schedule) :
    ∃ r, (paths schedule settings frontEnd host given).result = .ok r ∧
      Lists r files fun p => (file settings frontEnd host p none).result := by
  obtain ⟨r, gathered, lists⟩ := gather_lists (queue_perm schedule settings host files) distinct settled
  refine ⟨r, ?_, lists⟩
  rw [result_paths found, ite_eq_right_iff.2 staffed]
  exact gathered

/-- Neither the number of workers nor the order in which they finish shows in a report. Each file that
is found has its own entry, with what the analysis of this file alone yields, and nothing else has
one. -/
theorem report_independent_of_schedule {settings settings' : Settings} {frontEnd : FrontEnd}
    {host : Host} {given files : List Path}
    (same : ∀ s, s ≠ .workers → settings'.value s = settings.value s) (legal : host.files.Legal)
    (normal : ∀ p ∈ given, p.Normal)
    (found : (Sources.find settings host given).result = .ok files)
    (settled : ∀ p ∈ files, Settled (file settings frontEnd host p none).result)
    (staffed : Staffed settings host files) (staffed' : Staffed settings' host files)
    (schedule schedule' : Schedule) :
    ∃ r r', (paths schedule settings frontEnd host given).result = .ok r ∧
      (paths schedule' settings' frontEnd host given).result = .ok r' ∧ r.Alike r' ∧
      Lists r files (fun p => (file settings frontEnd host p none).result) ∧
      Lists r' files fun p => (file settings frontEnd host p none).result := by
  have distinct := Sources.nodup_shown legal normal found
  have found' : (Sources.find settings' host given).result = .ok files := by
    rw [Sources.find_congr, found]
    intro s read
    apply same
    rintro rfl
    revert read
    decide
  have sameFile : file settings' frontEnd host = file settings frontEnd host :=
    file_congr (same .strictParsing (by decide)) frontEnd host
  obtain ⟨r, run, lists⟩ := paths_lists found distinct settled staffed schedule
  rw [← sameFile] at settled
  obtain ⟨r', run', lists'⟩ := paths_lists found' distinct settled staffed' schedule'
  rw [sameFile] at lists'
  exact ⟨r, r', run, run', lists.alike lists', lists, lists'⟩

def tenNames : List String :=
  ["0.py", "1.py", "2.py", "3.py", "4.py", "5.js", "6.js", "7.js", "8.js", "9.js"]

def tenFiles : List Path := tenNames.map Path.ofText

def tenHost : Host where
  files := .directory (tenNames.map fun name => (name, .file .empty))
  home := .ofText "/"
  work := .ofText "/"

def scriptsOnly : FrontEnd where
  grammars := ["javascript"]
  read _ _ := ⟨.node { kind := "program" } [], false⟩

def withWorkers (n : Int) : Settings where
  value
    | .workers => .whole n
    | .maxFileSize => .whole 1
    | .excludePatterns => .list []
    | s => s.standard

theorem isName_of_mem_tenNames : ∀ name ∈ tenNames, Path.IsName name := by
  simp [tenNames, Path.IsName, Path.isPart]

theorem legal_tenHost : tenHost.files.Legal := by
  apply FileTree.Legal.directory
  · exact List.forall_mem_map.2 isName_of_mem_tenNames
  · exact List.forall_mem_map.2 fun name _ => .file .empty

theorem normal_tenFiles : ∀ p ∈ tenFiles, p.Normal :=
  List.forall_mem_map.2 fun name _ => Path.normal_ofText name

theorem find_tenFiles : (Sources.find (withWorkers 1) tenHost tenFiles).result = .ok tenFiles := by
  have all : (Sources.findAll (withWorkers 1) tenHost tenFiles).result = .ok tenFiles := by cbv
  have order : Sources.inOrder tenFiles = tenFiles := by
    apply Sources.inOrder_eq_self
    decide
  rw [Sources.find, Journal.result_bind_of_ok all, order]
  cbv

theorem settled_script {p : Path} (readable : tenHost.read p = .ok .empty) (clean : p.hasNull = false)
    (language : languageFor p none = "javascript") :
    Settled (file (withWorkers 1) scriptsOnly tenHost p none).result := by
  let program : Node := .node { kind := "program" } []
  rw [file, clean, if_neg Bool.false_ne_true, readable]
  simp only [language]
  rw [source, Journal.result_bind_of_ok (a := Language.javascript) rfl,
    Journal.result_bind_of_ok (a := some ⟨program, false⟩) rfl]
  change Settled (unit Language.javascript.rules (.root program) _).result
  have count (name : Option String) :
      (Scope.ofNode (α := Float) Language.javascript.rules (.root program) name).metrics.count = 1 := rfl
  rw [result_unit]
  · trivial
  · apply Summary.hasMean_of_count
    · rw [count]
      decide
    · rw [count]
      exact Int.ofNat_lt.2 (Decimal.lt_twoTo (n := 1) (by decide))

theorem settled_tenFiles :
    ∀ p ∈ tenFiles, Settled (file (withWorkers 1) scriptsOnly tenHost p none).result := by
  rw [tenFiles, List.forall_mem_map]
  simp only [tenNames, List.forall_mem_cons]
  refine ⟨by cbv, by cbv, by cbv, by cbv, by cbv, ?_, ?_, ?_, ?_, ?_, List.forall_mem_nil _⟩
  all_goals exact settled_script (by cbv) (by cbv) (by cbv)

theorem report_independent_of_schedule_of_ten :
    inParallel (withWorkers 1) tenHost tenFiles = false ∧
    inParallel (withWorkers 2) tenHost tenFiles = true ∧
    ∃ r r', (paths .inOrder (withWorkers 1) scriptsOnly tenHost tenFiles).result = .ok r ∧
      (paths ⟨List.reverse, List.reverse_perm⟩ (withWorkers 2) scriptsOnly tenHost tenFiles).result
        = .ok r' ∧ r.Alike r' ∧
      Lists r tenFiles (fun p => (file (withWorkers 1) scriptsOnly tenHost p none).result) ∧
      Lists r' tenFiles fun p => (file (withWorkers 1) scriptsOnly tenHost p none).result := by
  refine ⟨by cbv, by cbv, ?_⟩
  apply report_independent_of_schedule
  · intro s other
    cases s <;> first | rfl | contradiction
  · exact legal_tenHost
  · exact normal_tenFiles
  · exact find_tenFiles
  · exact settled_tenFiles
  · exact staffed_of_whole rfl (by decide) tenFiles
  · exact staffed_of_whole rfl (by decide) tenFiles

end Analysis

end ScopeComplexity
