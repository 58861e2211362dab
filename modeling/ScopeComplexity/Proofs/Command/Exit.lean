import ScopeComplexity.Command
import ScopeComplexity.Proofs.Analysis.Gathering
import ScopeComplexity.Proofs.Analysis.Strictness
import ScopeComplexity.Proofs.Settings.Defects
import ScopeComplexity.Proofs.Sources.Completion

namespace ScopeComplexity.Command

variable {schedule : Schedule} {frontEnd : FrontEnd} {host : Host} {o : Options}

namespace Options

def overrides (o : Options) : Keyed Value :=
  [("verbose", .flag o.verbose), ("quiet", .flag o.quiet)]
    ++ (o.workers.map fun v => (Setting.workers.key, v)).toList
    ++ (o.language.map fun name => (Setting.languages.key, .list [.text name])).toList

theorem settings_of_anyLanguage (any : o.language = none) (host : Host) :
    o.settings host = Settings.load host o.config o.overrides := by
  rw [settings, overrides, any]
  rfl

theorem settings_eq (o : Options) (host : Host) :
    (∃ f : Fault, o.settings host = .error (.fault f)) ∨
      o.settings host = Settings.load host o.config o.overrides := by
  cases asked : o.language with
  | none => exact .inr (settings_of_anyLanguage asked host)
  | some name =>
    rw [settings, overrides, asked]
    dsimp only
    rw [Analysis.findLanguage]
    cases Language.ofName? name with
    | none => exact .inl ⟨_, rfl⟩
    | some language => exact .inr rfl

theorem explicitKey_notMem (o : Options) : Settings.explicitKey ∉ o.overrides.keys := by
  obtain ⟨paths, format, withScopes, language, workers, config, verbose, quiet⟩ := o
  cases language <;> cases workers <;> simp [overrides, Keyed.keys, Settings.explicitKey, Setting.key]

theorem limited_settings (o : Options) (host : Host) :
    Limited (Settings.Defective host o.config o.overrides) (o.settings host) := by
  rcases o.settings_eq host with ⟨f, failed⟩ | loaded
  · rw [failed]
    exact .fault f
  · exact loaded ▸ Settings.defective_of_load

theorem check_settings {settings : Settings} (loaded : o.settings host = .ok settings) :
    settings.check = .ok () := by
  rcases o.settings_eq host with ⟨f, failed⟩ | same
  · cases failed.symm.trans loaded
  · exact Settings.check_of_load (same ▸ loaded)

def Known (o : Options) : Prop := o.format = "rich" ∨ o.format = "json"

theorem known_iff : o.Known ↔ o.format ∈ formats := by simp [Known, formats]

/-- What is asked of a run: the system says where the home and the working directory are, and of each file with
settings whether it is there; every value that is refused has a text; there are workers for many files; and a double
can hold the number of all nodes. -/
structure Workable (o : Options) (frontEnd : FrontEnd) (host : Host) : Prop where
  home : ∃ directory, host.homeDirectory = .ok directory
  work : ∃ directory, host.workingDirectory = .ok directory
  answered : ∀ p, Settings.LooksAt host o.config p → ∃ there, host.exists? p = .ok there
  texts : ∀ layers, Settings.layers host o.config o.overrides = .ok layers →
    ∀ setting, (Settings.fill (Settings.merge layers)).Refuses setting →
      ((Settings.fill (Settings.merge layers)).value setting).hasText = true
  going : ∀ settings files, o.settings host = .ok settings →
    (Sources.find settings host o.paths).result = .ok files → ¬Analysis.Stalls settings files
  countable : ∀ settings files, o.settings host = .ok settings →
    (Sources.find settings host o.paths).result = .ok files →
      (files.map (Analysis.nodes frontEnd host)).sum < Decimal.Binary64.wholeLimit

theorem Workable.settings_ne (h : o.Workable frontEnd host) (d : Defect) :
    o.settings host ≠ .error (.defect d) := by
  intro failed
  cases o.limited_settings host d failed with
  | taken given => exact o.explicitKey_notMem given
  | home lost =>
    obtain ⟨directory, told⟩ := h.home
    cases lost.symm.trans told
  | work lost =>
    obtain ⟨directory, told⟩ := h.work
    cases lost.symm.trans told
  | unopened looked closed =>
    obtain ⟨there, answer⟩ := h.answered _ looked
    cases closed.symm.trans answer
  | noText read refused long => exact Bool.false_ne_true (long.symm.trans (h.texts _ read _ refused))

theorem Workable.paths_ne_stalled (h : o.Workable frontEnd host) {settings : Settings}
    (loaded : o.settings host = .ok settings) (schedule : Schedule) :
    (Analysis.paths schedule settings frontEnd host o.paths).result ≠ .error (.defect .stalled) := by
  rw [ne_eq, Analysis.result_paths_eq_stalled_iff (o.check_settings loaded)]
  rintro ⟨files, found, stalls⟩
  exact h.going settings files loaded found stalls

def Reports (o : Options) (schedule : Schedule) (frontEnd : FrontEnd) (host : Host) (report : Report Float) : Prop :=
  ∃ settings, o.settings host = .ok settings ∧
    (Analysis.paths schedule settings frontEnd host o.paths).result = .ok report

def Fails (o : Options) (schedule : Schedule) (frontEnd : FrontEnd) (host : Host) : Prop :=
  (∃ failure, o.settings host = .error failure) ∨
    ∃ settings failure, o.settings host = .ok settings ∧
      (Analysis.paths schedule settings frontEnd host o.paths).result = .error failure

variable {report report' : Report Float}

theorem Reports.unique (h : o.Reports schedule frontEnd host report) (h' : o.Reports schedule frontEnd host report') :
    report' = report := by
  obtain ⟨settings, loaded, found⟩ := h
  obtain ⟨settings', loaded', found'⟩ := h'
  cases loaded.symm.trans loaded'
  cases found.symm.trans found'
  rfl

theorem Reports.not_fails (h : o.Reports schedule frontEnd host report) : ¬o.Fails schedule frontEnd host := by
  obtain ⟨settings, loaded, found⟩ := h
  rintro (⟨failure, failed⟩ | ⟨settings', failure, loaded', failed⟩)
  · cases loaded.symm.trans failed
  · cases loaded.symm.trans loaded'
    cases found.symm.trans failed

end Options

structure Ends (schedule : Schedule) (frontEnd : FrontEnd) (host : Host) (o : Options) (outcome : Outcome) : Prop where
  two : outcome.exit = 2 ↔ o.format ≠ "rich" ∧ o.format ≠ "json"
  one : outcome.exit = 1 ↔ o.Known ∧
    (o.Fails schedule frontEnd host ∨ ∃ report, o.Reports schedule frontEnd host report ∧ report.files = [])
  zero : outcome.exit = 0 ↔ o.Known ∧
    ∃ report, o.Reports schedule frontEnd host report ∧ report.files ≠ []
  written : outcome.written ≠ "" ↔ o.format = "json" ∧ ∃ report, o.Reports schedule frontEnd host report
  document : o.format = "json" → ∀ report, o.Reports schedule frontEnd host report →
    ∃ document, report.record o.withScopes = .ok document ∧ outcome.written = document.write Json.indented ++ "\n"

section Outcomes

variable {outcome : Outcome} {report : Report Float}

theorem not_known_iff : ¬o.Known ↔ o.format ≠ "rich" ∧ o.format ≠ "json" := not_or

theorem ends_of_unknown (unknown : ¬o.Known) (exit : outcome.exit = 2) (written : outcome.written = "") :
    Ends schedule frontEnd host o outcome where
  two := iff_of_true exit (not_known_iff.1 unknown)
  one := by simp [exit, unknown]
  zero := by simp [exit, unknown]
  written := by
    have other : o.format ≠ "json" := (not_known_iff.1 unknown).2
    simp [written, other]
  document json := absurd (.inr json) unknown

theorem ends_of_failure (known : o.Known) (fails : o.Fails schedule frontEnd host)
    (exit : outcome.exit = 1) (written : outcome.written = "") : Ends schedule frontEnd host o outcome where
  two := by simp [exit, ← not_known_iff, known]
  one := by simp [exit, known, fails]
  zero := by
    have none : ∀ report, ¬o.Reports schedule frontEnd host report := fun _ reports => reports.not_fails fails
    simp [exit, none]
  written := by
    have none : ∀ report, ¬o.Reports schedule frontEnd host report := fun _ reports => reports.not_fails fails
    simp [written, none]
  document _ _ reports := (reports.not_fails fails).elim

theorem ends_of_report (known : o.Known) (reports : o.Reports schedule frontEnd host report)
    (exit : outcome.exit = if report.files.isEmpty then 1 else 0)
    (written : o.format = "json" → ∃ document, report.record o.withScopes = .ok document ∧
      outcome.written = document.write Json.indented ++ "\n")
    (other : o.format ≠ "json" → outcome.written = "") : Ends schedule frontEnd host o outcome := by
  have only (P : Report Float → Prop) : (∃ r, o.Reports schedule frontEnd host r ∧ P r) ↔ P report := by
    constructor
    · rintro ⟨r, found, holds⟩
      exact reports.unique found ▸ holds
    · exact fun holds => ⟨report, reports, holds⟩
  have some : ∃ r, o.Reports schedule frontEnd host r := ⟨report, reports⟩
  constructor
  · rw [exit]
    split <;> simp [← not_known_iff, known]
  · rw [exit, only]
    cases files : report.files <;> simp [known, reports.not_fails]
  · rw [exit, only]
    cases files : report.files <;> simp [known]
  · by_cases json : o.format = "json"
    · obtain ⟨document, -, text⟩ := written json
      simp [text, json, some]
    · simp [other json, json]
  · intro json r found
    exact reports.unique found ▸ written json

theorem exists_present {limit : Nat} (sized : report.Sized limit) (small : limit < Decimal.Binary64.wholeLimit)
    (o : Options) (threshold : Severity) :
    ∃ outcome, present report o threshold = .ok outcome ∧
      outcome.exit = (if report.files.isEmpty then 1 else 0) ∧
      (o.format = "json" → ∃ document, report.record o.withScopes = .ok document ∧
        outcome.written = document.write Json.indented ++ "\n") ∧
      (o.format ≠ "json" → outcome.written = "") := by
  rw [present]
  by_cases json : o.format = "json"
  · obtain ⟨document, recorded⟩ := sized.exists_record small o.withScopes
    rw [if_pos (beq_iff_eq.2 json), recorded]
    exact ⟨_, rfl, rfl, fun _ => ⟨document, rfl, rfl⟩, fun other => (other json).elim⟩
  · obtain ⟨shown, rendered⟩ := sized.exists_shown small o.withScopes
    rw [if_neg (mt beq_iff_eq.1 json), rendered]
    exact ⟨_, rfl, rfl, fun same => (json same).elim, fun _ => rfl⟩

end Outcomes

theorem analyze_of_unknown (unknown : ¬o.Known) (schedule : Schedule) (frontEnd : FrontEnd) (host : Host) :
    analyze schedule frontEnd host o =
      .ok { exit := 2, shown := [error ("unknown format '" ++ o.format ++ "' (use rich or json)")] } := by
  rw [analyze, if_pos (by simpa using mt Options.known_iff.2 unknown)]

theorem analyze_of_known (known : o.Known) : analyze schedule frontEnd host o =
    match o.settings host with
    | .error (.defect d) => .error d
    | .error (.fault f) => .ok { exit := 1, shown := [error f.shown] }
    | .ok settings =>
      let threshold := Log.threshold (isVerbosity settings "verbose") (isVerbosity settings "quiet")
      match (Analysis.paths schedule settings frontEnd host o.paths).result with
      | .error (.defect .stalled) => .error (.defect .stalled)
      | .error failure => .ok { exit := 1, shown := [failureLine failure], threshold }
      | .ok report => (present report o threshold).mapError fun e => .defect (.noMean e) := by
  rw [analyze]
  exact if_neg (by simpa using Options.known_iff.1 known)

/-- The command ends with one exit status. A format that is not known is refused before anything is looked at,
so that nothing else matters. -/
theorem analyze_ends (schedule : Schedule) (frontEnd : FrontEnd) (host : Host) (o : Options)
    (workable : o.Known → o.Workable frontEnd host) :
    ∃ outcome, analyze schedule frontEnd host o = .ok outcome ∧ Ends schedule frontEnd host o outcome ∧
      (¬o.Known → ∀ schedule frontEnd host, analyze schedule frontEnd host o = .ok outcome) := by
  by_cases known : o.Known
  · have sound := workable known
    have ends : ∃ outcome, analyze schedule frontEnd host o = .ok outcome ∧
        Ends schedule frontEnd host o outcome := by
      rw [analyze_of_known known]
      cases loaded : o.settings host with
      | error failure =>
        cases failure with
        | defect d => exact (sound.settings_ne d loaded).elim
        | fault f => exact ⟨_, rfl, ends_of_failure known (.inl ⟨_, loaded⟩) rfl rfl⟩
      | ok settings =>
        dsimp only
        cases run : (Analysis.paths schedule settings frontEnd host o.paths).result with
        | error failure =>
          have returns : failure ≠ .defect .stalled := by
            rintro rfl
            exact sound.paths_ne_stalled loaded schedule run
          split
          next stalled =>
            cases stalled
            exact (returns rfl).elim
          next failure' _ same =>
            cases same
            exact ⟨_, rfl, ends_of_failure known (.inr ⟨settings, _, loaded, run⟩) rfl rfl⟩
          next same => cases same
        | ok report =>
          obtain ⟨files, found, -⟩ := Analysis.exists_gather_of_paths run
          have sized := Analysis.sized_paths found run
          obtain ⟨outcome, presented, exit, written, other⟩ :=
            exists_present sized (sound.countable settings files loaded found) o
              (Log.threshold (isVerbosity settings "verbose") (isVerbosity settings "quiet"))
          refine ⟨outcome, ?_, ends_of_report known ⟨settings, loaded, run⟩ exit written other⟩
          exact congrArg (Except.mapError _) presented
    obtain ⟨outcome, run, ends⟩ := ends
    exact ⟨outcome, run, ends, fun unknown => (unknown known).elim⟩
  · exact ⟨_, analyze_of_unknown known _ _ _, ends_of_unknown known rfl rfl, fun _ => analyze_of_unknown known⟩

def listed : Options where
  paths := [⟨.slash, ["a"]⟩]
  format := "json"

theorem absent_twoScripts (p : Path) (looked : Settings.LooksAt Sources.twoScripts none p) :
    Sources.twoScripts.exists? p = .ok false := by
  cases looked with
  | home told =>
    cases told
    exact Host.exists?_missing rfl (by decide) (by decide) (by decide) rfl
  | project told =>
    cases told
    exact Host.exists?_missing rfl (by decide) (by decide) (by decide) rfl
  | named given => cases given

theorem settings_listed : listed.settings Sources.twoScripts = .ok (Settings.fill []) := by
  rw [Options.settings_of_anyLanguage rfl, Settings.load]
  simp only [listed, Settings.layers_of_absent rfl rfl absent_twoScripts rfl]
  rfl

theorem workable_listed : listed.Workable Analysis.wary Sources.twoScripts where
  home := ⟨_, rfl⟩
  work := ⟨_, rfl⟩
  answered p looked := ⟨false, absent_twoScripts p looked⟩
  texts := by
    intro layers read setting _
    cases (Settings.layers_of_absent rfl rfl absent_twoScripts rfl).symm.trans read
    exact setting.hasText_standard
  going := by
    intro settings files loaded _ stalls
    cases settings_listed.symm.trans loaded
    obtain ⟨x, set, -⟩ := stalls.notANumber
    cases set
  countable := by
    intro settings files loaded found
    cases settings_listed.symm.trans loaded
    have most : files.length ≤ 10000 := Sources.length_le_of_find (m := 10000) rfl (by decide) found
    have each : ∀ n ∈ files.map (Analysis.nodes Analysis.wary Sources.twoScripts), n ≤ 1 :=
      List.forall_mem_map.2 fun p _ => Analysis.nodes_wary_le _ p
    have total := List.sum_le_card_nsmul _ _ each
    have room : 10000 < Decimal.Binary64.wholeLimit :=
      (show 10000 < Decimal.twoTo 14 by decide).trans_le (Decimal.twoTo_le_twoTo (by decide))
    rw [List.length_map, nsmul_one] at total
    exact (total.trans most).trans_lt room

theorem analyze_ends_of_twoScripts :
    ∃ outcome, analyze .inOrder Analysis.wary Sources.twoScripts listed = .ok outcome ∧
      Ends .inOrder Analysis.wary Sources.twoScripts listed outcome ∧ outcome.exit ≠ 2 := by
  obtain ⟨outcome, run, ends, -⟩ :=
    analyze_ends .inOrder Analysis.wary Sources.twoScripts listed fun _ => workable_listed
  exact ⟨outcome, run, ends, fun two => (ends.two.1 two).2 rfl⟩

theorem analyze_of_defect (known : o.Known) {d : Defect} (failed : o.settings host = .error (.defect d)) :
    analyze schedule frontEnd host o = .error (.defect d) := by
  rw [analyze_of_known known, failed]

theorem analyze_of_stalls (known : o.Known) {settings : Settings} {files : List Path}
    (loaded : o.settings host = .ok settings) (found : (Sources.find settings host o.paths).result = .ok files)
    (stalls : Analysis.Stalls settings files) : analyze schedule frontEnd host o = .error (.defect .stalled) := by
  rw [analyze_of_known known, loaded]
  simp only [stalls.result_paths found]

theorem settings_of_homeless (homeless : host.homeDirectory = .error .noHome) (free : o.language = none) :
    o.settings host = .error (.defect .noHome) := by
  have lost : Settings.homeFile host = .error (.defect .noHome) := Settings.fileIn_eq_error_iff.2 ⟨_, homeless, rfl⟩
  rw [Options.settings_of_anyLanguage free, Settings.load, Keyed.get?_eq_none_iff.2 o.explicitKey_notMem,
    Settings.layers, lost]
  rfl

section Unanswered

variable {home work : Path} (homeTold : host.homeDirectory = .ok home) (workTold : host.workingDirectory = .ok work)
  (absent : ∀ p, Settings.LooksAt host none p → host.exists? p = .ok false) (paths : List Path)

include homeTold workTold absent

theorem settings_of_unanswered {p : Path} {obstacle : Obstacle} (closed : host.exists? p = .error obstacle) :
    ({ paths, config := some p } : Options).settings host = .error (.defect (.unopened obstacle p.shown)) := by
  have nothing {q : Path} (looked : Settings.LooksAt host none q) (title : String) :
      Settings.optionalLayer host title q = .ok [] := by
    rw [Settings.optionalLayer, Settings.layerOrElse, absent q looked]
    rfl
  have explicit : Settings.explicitLayer host (some p) = .error (.defect (.unopened obstacle p.shown)) := by
    rw [Settings.explicitLayer, Settings.layerOrElse, closed]
  have refused : Settings.layers host (some p) ({ paths, config := some p } : Options).overrides =
      .error (.defect (.unopened obstacle p.shown)) := by
    simp only [Settings.layers, Settings.homeFile_eq_ok_iff.2 ⟨home, homeTold, rfl⟩,
      Settings.projectFile_eq_ok_iff.2 ⟨work, workTold, rfl⟩, bind, Except.bind, nothing (.home homeTold),
      nothing (.project workTold), explicit]
  rw [Options.settings_of_anyLanguage rfl, Settings.load]
  simp only [refused]
  rfl

theorem settings_of_few (silent : host.environment = []) {n : Int} (few : n < 1)
    (long : (Value.whole n).hasText = false) :
    ({ paths, workers := some (.whole n) } : Options).settings host = .error (.defect .noText) := by
  have checked : (Settings.fill [("workers", .whole n)]).check = .error (.defect .noText) :=
    Settings.check_of_few rfl few long
  rw [Options.settings_of_anyLanguage rfl, Settings.load]
  simp only [Settings.layers_of_absent homeTold workTold absent silent]
  change (Settings.ofLayer [("workers", .whole n)]).mapError Settings.asFault = _
  rw [Settings.ofLayer]
  simp only [checked]
  rfl

end Unanswered

/-- A file of settings with too long a name, so few workers that they cannot be shown, and a home directory with a
tilde in front. -/
theorem analyze_unanswered :
    analyze .inOrder Analysis.wary Sources.twoScripts
      { paths := [Sources.script], config := some ⟨.none, [Sources.longName]⟩ } =
        .error (.defect (.unopened .nameTooLong Sources.longName)) ∧
    analyze .inOrder Analysis.wary Sources.twoScripts
      { paths := [Sources.script], workers := some (.whole (-10 ^ 4300)) } = .error (.defect .noText) ∧
    analyze .inOrder Analysis.wary { Sources.twoScripts with environment := [("HOME", "~")] }
      { paths := [Sources.script] } = .error (.defect .noHome) := by
  refine ⟨?_, ?_, ?_⟩
  · apply analyze_of_defect (.inl rfl)
    rw [settings_of_unanswered rfl rfl absent_twoScripts _ Sources.exists?_longName, Path.shown_name]
  · apply analyze_of_defect (.inl rfl)
    exact settings_of_few rfl rfl absent_twoScripts _ rfl (by decide +kernel) (by decide +kernel)
  · apply analyze_of_defect (.inl rfl)
    exact settings_of_homeless (by cbv) rfl

end ScopeComplexity.Command
