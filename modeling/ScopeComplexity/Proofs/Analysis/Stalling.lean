import ScopeComplexity.Proofs.Analysis.Schedule
import ScopeComplexity.Proofs.Settings.Check
import ScopeComplexity.Proofs.Settings.Defects

namespace ScopeComplexity

abbrev Returns {α : Type} (x : Except Failure α) : Prop := Limited (· ≠ .stalled) x

namespace Returns

variable {α β : Type}

theorem bind {x : Journal Failure α} {f : α → Journal Failure β} (h : Returns x.result)
    (next : ∀ a, Returns (f a).result) : Returns (x >>= f).result := by
  rw [Journal.result_bind]
  exact Limited.bind h fun a _ => next a

theorem mapError_defect {x : Except Defect α} (h : ∀ d, x = .error d → d ≠ .stalled) :
    Returns (x.mapError .defect) := by
  cases x with
  | ok a => exact .ok a
  | error d => exact .defect (h d rfl)

theorem sound (x : Except Value.Misuse α) : Returns (Settings.sound x) := by
  cases x with
  | ok a => exact .ok a
  | error misuse => exact .defect (by rintro ⟨⟩)

end Returns

namespace Sources

variable {settings : Settings} {host : Host}

theorem matchesPattern_ne_stalled (p : Path) (pattern : Value) : matchesPattern p pattern ≠ .error .stalled := by
  rw [matchesPattern.eq_def]
  split
  · split <;> nofun
  · split <;> nofun

theorem matchesAny_ne_stalled {p : Path} {patterns : List Value} {d : Defect}
    (failed : matchesAny p patterns = .error d) : d ≠ .stalled := by
  induction patterns with
  | nil => cases failed
  | cons pattern patterns ih =>
    rw [matchesAny] at failed
    cases matched : matchesPattern p pattern with
    | ok found =>
      rw [matched] at failed
      cases found with
      | true => cases failed
      | false => exact ih failed
    | error d' =>
      rw [matched] at failed
      cases failed
      rintro rfl
      exact matchesPattern_ne_stalled p pattern matched

theorem returns_isExcluded (p : Path) : Returns (isExcluded settings p) :=
  Limited.bind (Returns.sound _) fun _ _ => Returns.mapError_defect fun _ => matchesAny_ne_stalled

theorem returns_isWanted (language : String) : Returns (isWanted settings language) := by
  rw [isWanted]
  split
  · exact .ok true
  · exact .sound _

theorem returns_answered {α : Type} (p : Path) (answer : Except Obstacle α) : Returns (answered p answer).result := by
  cases answer with
  | ok a => exact .ok a
  | error obstacle => exact .defect (by rintro ⟨⟩)

theorem returns_byteLimit : Returns settings.byteLimit := by
  rw [Settings.byteLimit]
  split
  · exact .ok _
  · cases (Decimal.Binary64.ofFloat _).wholePart with
    | ok limit => exact .ok limit
    | error cause => exact .defect (by rintro ⟨⟩)
  · exact .defect (by rintro ⟨⟩)

theorem returns_hasAllowedSize (p : Path) : Returns (hasAllowedSize settings host p).result := by
  rw [hasAllowedSize]
  split
  · exact .ok false
  · refine .bind returns_byteLimit fun limit => ?_
    split <;> exact .ok _
  · exact .ok true

theorem returns_accepts (p : Path) : Returns (accepts settings host p).result := by
  rw [accepts]
  split
  · exact .ok false
  · refine .bind (returns_isWanted _) fun wanted => ?_
    split
    · exact .ok false
    · refine .bind (returns_isExcluded p) fun excluded => ?_
      split
      · exact .ok false
      · refine .bind ?_ fun linked => ?_
        · rw [isUnwantedLink]
          split
          · exact .ok false
          · exact returns_answered p _
        · split
          · exact .ok false
          · exact returns_hasAllowedSize p

theorem returns_acceptAll (paths : List Path) : Returns (acceptAll settings host paths).result := by
  induction paths with
  | nil => exact .ok []
  | cons p paths ih => exact .bind (returns_accepts p) fun _ => .bind ih fun _ => .ok _

theorem returns_findAll (given : List Path) : Returns (findAll settings host given).result := by
  induction given with
  | nil => exact .ok []
  | cons p given ih =>
    rw [findAll]
    refine .bind (returns_answered p _) fun there => ?_
    split
    · exact .fault _
    · exact .bind (returns_acceptAll _) fun _ => .bind ih fun _ => .ok _

theorem returns_find (given : List Path) : Returns (find settings host given).result := by
  refine .bind (returns_findAll given) fun files => ?_
  rw [limit]
  refine .bind (.sound _) fun more => ?_
  split
  · refine .bind (.ok ()) fun _ => ?_
    split
    · exact .ok _
    · exact .defect (by rintro ⟨⟩)
  · exact .ok _

end Sources

namespace Analysis

variable {settings : Settings} {frontEnd : FrontEnd} {host : Host} {p : Path} {files given : List Path}
  {schedule : Schedule}

theorem returns_unit (rules : Rules) (root : Syntax.Site) (name : Option String) :
    Returns (unit rules root name).result := by
  refine .bind ?_ fun scope => .bind ?_ fun text => .bind (.ok ()) fun _ => .ok _
  · cases Scope.ofSite (α := Float) rules root name with
    | ok scope => exact .ok scope
    | error e => exact .fault _
  · cases scope.metrics.describe with
    | ok text => exact .ok text
    | error e => exact .defect (by rintro ⟨⟩)

theorem returns_source (code : Code) (language : String) (name : Option String) :
    Returns (source settings frontEnd code language name).result := by
  rw [source]
  refine .bind ?_ fun found => .bind (.ok _) fun reading => ?_
  · rw [findLanguage]
    split
    · exact .ok _
    · exact .fault _
  · split
    · exact .fault _
    · split
      · split
        · exact .fault _
        · exact .bind (.ok ()) fun _ => returns_unit _ _ name
      · exact returns_unit _ _ name

theorem returns_file (named : Option String) : Returns (file settings frontEnd host p named).result := by
  rw [file]
  split
  · exact .defect (by rintro ⟨⟩)
  · split
    · exact .fault _
    · exact returns_source _ _ _

theorem returns_collect (report : Report Float) {outcome : Except Failure (Scope Float)} (h : Returns outcome) :
    Returns (collect report p outcome).result := by
  rw [collect.eq_def]
  split
  · exact .ok _
  · split
    · exact .bind (.ok ()) fun _ => .ok _
    · exact .fault _
  · intro d same
    cases same
    exact h d rfl

theorem returns_gather (report : Report Float) (order : List Path) :
    Returns (gather (fun p => file settings frontEnd host p none) report order).result := by
  induction order generalizing report with
  | nil => exact .ok report
  | cons p order ih =>
    rw [gather, Journal.result_bind_of_ok (Journal.result_attempt _)]
    exact .bind (returns_collect report (returns_file none)) fun report => ih report

/-- So many files that workers share them, and for the number of workers a double that is no number: the files wait
for ever. -/
structure Stalls (settings : Settings) (files : List Path) : Prop where
  notANumber : ∃ x : Float, settings.value .workers = .double x ∧ x.isNaN = true
  many : 10 ≤ files.length

theorem effectiveWorkers_eq (set : settings.value .workers ≠ .null) (processors : Option Int) :
    settings.effectiveWorkers processors = settings.value .workers := by
  rw [Settings.effectiveWorkers]
  split
  next unset => exact (set unset).elim
  next => rfl

theorem inParallel_iff : inParallel settings host files = true ↔
    (settings.effectiveWorkers host.processors).equals 1 = false ∧ 10 ≤ files.length := by
  simp only [inParallel, Bool.not_eq_true', Bool.or_eq_false_iff, decide_eq_false_iff_not, not_lt]
  rfl

theorem Stalls.result_paths (stalls : Stalls settings files)
    (found : (Sources.find settings host given).result = .ok files) (schedule : Schedule) :
    (paths schedule settings frontEnd host given).result = .error (.defect .stalled) := by
  obtain ⟨x, set, none⟩ := stalls.notANumber
  have workers : settings.effectiveWorkers host.processors = .double x := by
    rw [effectiveWorkers_eq (by simp [set]), set]
  have parallel : inParallel settings host files = true :=
    inParallel_iff.2 ⟨workers ▸ Value.equals_of_isNaN none 1, stalls.many⟩
  rw [Analysis.result_paths found, if_pos parallel,
    checkWorkers_of_more workers (Value.lessOrEqual_of_isNaN none 0) (Value.more_of_isNaN none 0)]
  rfl

/-- Only a double that is no number passes the check without being more than zero. -/
theorem workers_of_check (checked : settings.check = .ok ())
    (numbers : ∀ x : Float, settings.value .workers = .double x → x.isNaN = false) :
    settings.value .workers = .null ∨ settings.value .workers ≠ .null ∧
      (settings.value .workers).lessOrEqual 0 = .ok false ∧ (settings.value .workers).more 0 = .ok true := by
  rcases (Settings.check_eq_ok_iff.1 checked).1 with null | enough
  · exact .inl (Settings.eq_null_of_isNull null)
  · refine .inr ⟨?_, Value.lessOrEqual_of_less enough, Value.more_of_less enough numbers⟩
    intro unset
    rw [unset] at enough
    cases enough

theorem one_le_usual {processors : Option Int} (known : ∀ n ∈ processors, 0 ≤ n) :
    1 ≤ (processors.filter (· != 0)).getD Settings.usualProcessors := by
  cases processors with
  | none => decide
  | some n =>
    have positive := known n rfl
    by_cases zero : n = 0
    · subst zero
      decide
    · simp only [Option.filter, bne_iff_ne, ne_eq, zero, not_false_eq_true, if_true, Option.getD_some]
      omega

theorem staffed_of_check (checked : settings.check = .ok ()) (processors : ∀ n ∈ host.processors, 0 ≤ n)
    (going : ¬Stalls settings files) : Staffed settings host files := by
  intro parallel
  have numbers (x : Float) (number : settings.value .workers = .double x) : x.isNaN = false :=
    Bool.eq_false_iff.2 fun none => going ⟨⟨x, number, none⟩, (inParallel_iff.1 parallel).2⟩
  rcases workers_of_check checked numbers with unset | ⟨set, notFew, more⟩
  · refine staffed_of_whole (n := min ((host.processors.filter (· != 0)).getD Settings.usualProcessors)
      Settings.workerLimit) ?_ (le_min (one_le_usual processors) (by decide)) files parallel
    rw [Settings.effectiveWorkers, unset]
  · exact checkWorkers_of_more (effectiveWorkers_eq set _) notFew more

theorem more_of_checkWorkers (h : checkWorkers settings host = .error (.defect .stalled)) :
    (settings.effectiveWorkers host.processors).lessOrEqual 0 = .ok false ∧
      (settings.effectiveWorkers host.processors).more 0 = .ok false := by
  rw [checkWorkers] at h
  dsimp only at h
  cases few : (settings.effectiveWorkers host.processors).lessOrEqual 0 with
  | error misuse =>
    rw [few] at h
    cases h
  | ok notFew =>
    rw [few] at h
    cases notFew with
    | true => cases h
    | false =>
      cases more : (settings.effectiveWorkers host.processors).more 0 with
      | error misuse =>
        rw [more] at h
        cases h
      | ok some =>
        rw [more] at h
        cases some with
        | true => cases h
        | false => exact ⟨rfl, rfl⟩

theorem notANumber_of_checkWorkers (checked : settings.check = .ok ())
    (h : checkWorkers settings host = .error (.defect .stalled)) :
    ∃ x : Float, settings.value .workers = .double x ∧ x.isNaN = true := by
  obtain ⟨notFew, notMore⟩ := more_of_checkWorkers h
  by_contra number
  have numbers (x : Float) (same : settings.value .workers = .double x) : x.isNaN = false :=
    Bool.eq_false_iff.2 fun none => number ⟨x, same, none⟩
  rcases workers_of_check checked numbers with unset | ⟨set, -, more⟩
  · rw [Settings.effectiveWorkers, unset] at notFew notMore
    simp only [Value.lessOrEqual, Value.more, Value.compare, Value.number?, Except.ok.injEq,
      decide_eq_false_iff_not] at notFew notMore
    omega
  · rw [effectiveWorkers_eq set] at notMore
    cases more.symm.trans notMore

theorem result_paths_eq_stalled_iff (checked : settings.check = .ok ()) :
    (paths schedule settings frontEnd host given).result = .error (.defect .stalled) ↔
      ∃ files, (Sources.find settings host given).result = .ok files ∧ Stalls settings files := by
  constructor
  · intro stalled
    cases found : (Sources.find settings host given).result with
    | error e =>
      rw [paths, Journal.result_bind, found] at stalled
      cases stalled
      exact (Sources.returns_find given _ found rfl).elim
    | ok files =>
      refine ⟨files, rfl, ?_⟩
      rw [result_paths found] at stalled
      cases parallel : inParallel settings host files with
      | false =>
        rw [parallel] at stalled
        exact (returns_gather _ _ _ stalled rfl).elim
      | true =>
        rw [parallel, if_pos rfl] at stalled
        cases workers : checkWorkers settings host with
        | ok _ =>
          rw [workers] at stalled
          exact (returns_gather _ _ _ stalled rfl).elim
        | error e =>
          rw [workers] at stalled
          cases stalled
          exact ⟨notANumber_of_checkWorkers checked workers, (inParallel_iff.1 parallel).2⟩
  · rintro ⟨files, found, stalls⟩
    exact stalls.result_paths found schedule

end Analysis

end ScopeComplexity
