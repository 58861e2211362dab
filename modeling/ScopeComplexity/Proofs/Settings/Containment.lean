import ScopeComplexity.Proofs.Settings.Environment
import ScopeComplexity.Proofs.Settings.Misses
import ScopeComplexity.Proofs.Sources.Union

namespace ScopeComplexity.Settings

variable {host : Host} {named : Option Path} {overrides layer : Keyed Value} {title : String} {p : Path}
  {e : Failure}

/-- The places that settings come from, the directories where they are looked for, and the values that all of them
give together. -/
inductive Origin where
  | homeDirectory
  | home
  | workingDirectory
  | project
  | named
  | environment (s : Setting)
  | values

def Origin.all : List Origin :=
  .homeDirectory :: .home :: .workingDirectory :: .project :: .named :: (Setting.all.map .environment ++ [.values])

theorem Origin.mem_all (origin : Origin) : origin ∈ all := by
  cases origin with
  | environment s => simp [all, s.mem_all]
  | _ => simp [all]

/-- No home directory is told: the environment gives one with a tilde in front, or gives none and the account has
none. -/
inductive Homeless (host : Host) : Prop where
  | tilde {text : String} (set : host.environment.get? "HOME" = some text) (tilde : text.startsWith "~" = true) :
      Homeless host
  | account (unset : host.environment.get? "HOME" = none) (none : host.homeless = true) : Homeless host

inductive FileFails (host : Host) (title : String) (p : Path) : Failure → Prop where
  | unopened {obstacle : Obstacle} (closed : host.exists? p = .error obstacle) :
      FileFails host title p (.defect (.unopened obstacle p.shown))
  | unread {cause : Unusable} (found : host.exists? p = .ok true) (unread : readTable host p = .error cause) :
      FileFails host title p (.fault (unusable title p cause.text))
  | noTable {entries : Toml.Entries} {v : Value} (found : host.exists? p = .ok true)
      (read : readTable host p = .ok entries) (own : (.text tableName, v) ∈ entries)
      (other : ∀ inner, v ≠ .table inner) :
      FileFails host title p (.fault (unusable title p ("[" ++ tableName ++ "] must be a table")))

inductive NamedFails (host : Host) : Option Path → Failure → Prop where
  | missing {p : Path} (absent : host.exists? p = .ok false) :
      NamedFails host (some p) (.fault (.general ("Config file not found: " ++ p.shown)))
  | file {p : Path} {e : Failure} (fails : FileFails host "config file" p e) : NamedFails host (some p) e

inductive LayerFails (layer : Keyed Value) : Failure → Prop where
  | unknown {name : String} {others : List String} (first : unknownKeys layer = name :: others) :
      LayerFails layer (.fault (unknownFault name))
  | value {e : Failure} (known : unknownKeys layer = []) (first : FirstFails (fill layer).Misses checked e) :
      LayerFails layer e

/-- How loading fails at one of the origins, taken by itself. The values only fail where all layers are read. -/
inductive Fails (host : Host) (named : Option Path) (overrides : Keyed Value) : Origin → Failure → Prop where
  | homeDirectory (lost : Homeless host) : Fails host named overrides .homeDirectory (.defect .noHome)
  | home {directory : Path} {e : Failure} (told : host.homeDirectory = .ok directory)
      (fails : FileFails host "global config" (directory.child ".cyclospace.toml") e) :
      Fails host named overrides .home e
  | workingDirectory {obstacle : Obstacle} (lost : host.workLost = some obstacle) :
      Fails host named overrides .workingDirectory (.defect (.workLost obstacle))
  | project {directory : Path} {e : Failure} (told : host.workingDirectory = .ok directory)
      (fails : FileFails host "project config" (directory.child "cyclospace.toml") e) :
      Fails host named overrides .project e
  | named {e : Failure} (fails : NamedFails host named e) : Fails host named overrides .named e
  | environment {s : Setting} {fault : Fault} (unread : Unread host s fault) :
      Fails host named overrides (.environment s) (.fault fault)
  | values {l : Layers} {e : Failure} (read : l.Read host named overrides) (fails : LayerFails (overlay l.all) e) :
      Fails host named overrides .values e

section File

theorem section?_of_other {entries : Toml.Entries} {v : Value} (own : Toml.Entries.get? entries tableName = some v)
    (other : ∀ inner, v ≠ .table inner) : section? entries = none := by
  rw [section?, own]
  cases v with
  | table inner => exact (other inner rfl).elim
  | _ => rfl

theorem FileFails.layerOrElse_eq (h : FileFails host title p e) (otherwise : Except Fault (Keyed Value)) :
    layerOrElse host title p otherwise = .error e := by
  cases h with
  | unopened closed => rw [layerOrElse, closed]
  | unread found unread =>
    rw [layerOrElse, found]
    simp only [if_true, fileLayer, unread]
    rfl
  | noTable found read own other =>
    obtain ⟨distinct, -⟩ := Value.distinct_table_iff.1 (distinct_of_readTable read)
    have nothing := section?_of_other (Toml.Entries.get?_of_mem distinct own) other
    rw [layerOrElse, found]
    simp only [if_true, fileLayer, read, nothing]
    rfl

theorem fileSets_or_fails (title : String) (found : host.exists? p = .ok true) :
    (∃ layer, FileSets host p layer) ∨ ∃ e, FileFails host title p e := by
  cases read : readTable host p with
  | error cause => exact .inr ⟨_, .unread found read⟩
  | ok entries =>
    cases own : Toml.Entries.get? entries tableName with
    | none =>
      exact .inl ⟨_, .topLevel found read fun v member =>
        Toml.Entries.not_mem_of_get? own (List.mem_map_of_mem member)⟩
    | some v =>
      have member := Toml.Entries.mem_of_get? own
      by_cases table : ∃ inner, v = .table inner
      · obtain ⟨inner, rfl⟩ := table
        exact .inl ⟨_, .ownTable found read member⟩
      · exact .inr ⟨_, .noTable found read member (not_exists.1 table)⟩

theorem layerOrElse_cases (host : Host) (title : String) (p : Path) (otherwise : Except Fault (Keyed Value)) :
    (∃ layer, FileSets host p layer ∧ layerOrElse host title p otherwise = .ok layer) ∨
    (∃ e, FileFails host title p e ∧ layerOrElse host title p otherwise = .error e) ∨
    host.exists? p = .ok false ∧ layerOrElse host title p otherwise = otherwise.mapError .fault := by
  cases found : host.exists? p with
  | error obstacle =>
    have fails : FileFails host title p _ := .unopened found
    exact .inr (.inl ⟨_, fails, fails.layerOrElse_eq _⟩)
  | ok there =>
    cases there with
    | false =>
      refine .inr (.inr ⟨rfl, ?_⟩)
      rw [layerOrElse, found]
      rfl
    | true =>
      rcases fileSets_or_fails title found with ⟨layer, sets⟩ | ⟨e, fails⟩
      · exact .inl ⟨layer, sets, sets.layerOrElse_eq title _⟩
      · exact .inr (.inl ⟨e, fails, fails.layerOrElse_eq _⟩)

theorem optionalLayer_eq_error_iff : optionalLayer host title p = .error e ↔ FileFails host title p e := by
  refine ⟨fun failed => ?_, fun fails => fails.layerOrElse_eq _⟩
  rcases layerOrElse_cases host title p (.ok []) with ⟨layer, -, loaded⟩ | ⟨e', fails, failed'⟩ | ⟨-, absent⟩
  · cases loaded.symm.trans failed
  · cases failed'.symm.trans failed
    exact fails
  · cases absent.symm.trans failed

theorem optionalFileSets_of_ok (loaded : optionalLayer host title p = .ok layer) : OptionalFileSets host p layer := by
  rcases layerOrElse_cases host title p (.ok []) with ⟨layer', sets, loaded'⟩ | ⟨e, -, failed⟩ | ⟨none, absent⟩
  · cases loaded'.symm.trans loaded
    exact .present sets
  · cases failed.symm.trans loaded
  · cases absent.symm.trans loaded
    exact .absent none

theorem explicitLayer_eq_error_iff : explicitLayer host named = .error e ↔ NamedFails host named e := by
  constructor
  · intro failed
    cases named with
    | none => cases failed
    | some p =>
      rcases layerOrElse_cases host "config file" p (.error (.general ("Config file not found: " ++ p.shown)))
        with ⟨layer, -, loaded⟩ | ⟨e', fails, failed'⟩ | ⟨none, absent⟩
      · cases loaded.symm.trans failed
      · cases failed'.symm.trans failed
        exact .file fails
      · cases absent.symm.trans failed
        exact .missing none
  · intro fails
    cases fails with
    | missing absent =>
      rw [explicitLayer, layerOrElse, absent]
      rfl
    | file fails => exact fails.layerOrElse_eq _

theorem namedFileSets_of_ok (loaded : explicitLayer host named = .ok layer) : NamedFileSets host named layer := by
  cases named with
  | none =>
    cases loaded
    exact .absent
  | some p =>
    rcases layerOrElse_cases host "config file" p (.error (.general ("Config file not found: " ++ p.shown)))
      with ⟨layer', sets, loaded'⟩ | ⟨e, -, failed⟩ | ⟨-, absent⟩
    · cases loaded'.symm.trans loaded
      exact .present sets
    · cases failed.symm.trans loaded
    · cases absent.symm.trans loaded

end File

theorem ofLayer_eq_error_iff : (ofLayer layer).mapError asFault = .error e ↔ LayerFails layer e := by
  cases unknown : unknownKeys layer with
  | nil =>
    have moved : ((fill layer).check >>= fun _ => pure (fill layer)).mapError asFault =
        ((fill layer).check.mapError asFault >>= fun _ => pure (fill layer)) := by
      cases (fill layer).check <;> rfl
    rw [ofLayer, checkKeys_eq, unknown]
    change ((fill layer).check >>= fun _ => pure (fill layer)).mapError asFault = .error e ↔ _
    rw [moved, (reports_check (fill layer)).bind_pure (fun _ => fill layer) e]
    constructor
    · exact .value unknown
    · rintro (first | ⟨-, first⟩)
      · cases unknown.symm.trans first
      · exact first
  | cons name others =>
    rw [ofLayer_of_unknown unknown, Except.mapError, asFault, isOfType_unknownDefect, if_pos rfl]
    constructor
    · rintro ⟨⟩
      exact .unknown unknown
    · rintro (first | ⟨known, -⟩)
      · cases unknown.symm.trans first
        rfl
      · cases unknown.symm.trans known

section Directories

theorem homeDirectory_eq_error_iff {d : Defect} : host.homeDirectory = .error d ↔ d = .noHome ∧ Homeless host := by
  rw [Host.homeDirectory, Host.homeVariable]
  constructor
  · intro lost
    cases home : host.environment.get? "HOME" with
    | some text =>
      simp only [home, Host.homeOf] at lost
      split at lost
      next tilde =>
        cases lost
        exact ⟨rfl, .tilde home tilde⟩
      next => cases lost
    | none =>
      simp only [home] at lost
      split at lost
      next none =>
        cases lost
        exact ⟨rfl, .account home none⟩
      next => cases lost
  · rintro ⟨rfl, home | ⟨home, none⟩⟩
    · simp_all [Host.homeOf]
    · simp only [home, none, if_true]

theorem workingDirectory_eq_error_iff {d : Defect} :
    host.workingDirectory = .error d ↔ ∃ obstacle, host.workLost = some obstacle ∧ d = .workLost obstacle := by
  rw [Host.workingDirectory]
  cases host.workLost with
  | none => simp
  | some obstacle => simp [eq_comm]

theorem homeFile_eq_error_iff :
    homeFile host = .error e ↔ Fails host named overrides .homeDirectory e := by
  rw [homeFile, fileIn_eq_error_iff]
  constructor
  · rintro ⟨d, lost, rfl⟩
    obtain ⟨rfl, homeless⟩ := homeDirectory_eq_error_iff.1 lost
    exact .homeDirectory homeless
  · rintro ⟨homeless⟩
    exact ⟨_, homeDirectory_eq_error_iff.2 ⟨rfl, homeless⟩, rfl⟩

theorem projectFile_eq_error_iff :
    projectFile host = .error e ↔ Fails host named overrides .workingDirectory e := by
  rw [projectFile, fileIn_eq_error_iff]
  constructor
  · rintro ⟨d, lost, rfl⟩
    obtain ⟨obstacle, lost', rfl⟩ := workingDirectory_eq_error_iff.1 lost
    exact .workingDirectory lost'
  · intro fails
    cases fails with
    | workingDirectory lost => exact ⟨_, workingDirectory_eq_error_iff.2 ⟨_, lost, rfl⟩, rfl⟩

end Directories

theorem stopsAtFirst_variables : StopsAtFirst (Fails host named overrides) (Setting.all.map .environment)
    ((environmentLayer host).mapError .fault) := by
  intro e
  rw [FirstFails.map_iff, (stopsAtFirst_environmentLayer host).map_error Failure.fault e]
  refine FirstFails.congr fun s e => ⟨?_, fun | .environment unread => ⟨_, unread, rfl⟩⟩
  rintro ⟨fault, unread, rfl⟩
  exact .environment unread

section Load

variable (free : explicitKey ∉ overrides.keys)

include free

theorem load_eq_bind : load host named overrides =
    (homeFile host >>= fun homeFile =>
      optionalLayer host "global config" homeFile >>= fun home =>
      projectFile host >>= fun projectFile =>
      optionalLayer host "project config" projectFile >>= fun project =>
      explicitLayer host named >>= fun explicit =>
      (environmentLayer host).mapError .fault >>= fun environment =>
      (ofLayer (merge [home, project, explicit, environment, overrideLayer overrides])).mapError asFault) := by
  rw [load, Keyed.get?_eq_none_iff.2 free, layers]
  simp only [bind_assoc, pure_bind, Option.isSome_none, Bool.false_eq_true, if_false]

variable (distinct : overrides.keys.Nodup)

include distinct

theorem stopsAtFirst_values {homeDirectory workingDirectory : Path} {home project explicit environment : Keyed Value}
    (homeTold : host.homeDirectory = .ok homeDirectory)
    (homeLoaded : optionalLayer host "global config" (homeDirectory.child ".cyclospace.toml") = .ok home)
    (workTold : host.workingDirectory = .ok workingDirectory)
    (projectLoaded : optionalLayer host "project config" (workingDirectory.child "cyclospace.toml") = .ok project)
    (explicitLoaded : explicitLayer host named = .ok explicit)
    (environmentLoaded : (environmentLayer host).mapError Failure.fault = .ok environment) :
    StopsAtFirst (Fails host named overrides) [.values]
      ((ofLayer (merge [home, project, explicit, environment, overrideLayer overrides])).mapError asFault) := by
  have loaded : environmentLayer host = .ok environment := by
    cases result : environmentLayer host with
    | error fault =>
      rw [result] at environmentLoaded
      cases environmentLoaded
    | ok found =>
      rw [result] at environmentLoaded
      cases environmentLoaded
      rfl
  have read : Layers.Read ⟨home, project, explicit, environment, overriding overrides⟩ host named overrides :=
    ⟨⟨_, homeTold, optionalFileSets_of_ok homeLoaded⟩, ⟨_, workTold, optionalFileSets_of_ok projectLoaded⟩,
      namedFileSets_of_ok explicitLoaded, exists_environmentSets loaded, rfl, distinct, free⟩
  rw [← read.load_eq_merge]
  refine .single fun e => ⟨fun failed => .values read (ofLayer_eq_error_iff.1 (read.load_eq ▸ failed)), ?_⟩
  rintro (_ | _ | _ | _ | _ | _ | ⟨read', fails⟩)
  exact read'.load_eq.trans (ofLayer_eq_error_iff.2 fails)

theorem stopsAtFirst_load : StopsAtFirst (Fails host named overrides) Origin.all (load host named overrides) := by
  rw [load_eq_bind free]
  refine .bind (l := [Origin.homeDirectory]) (.single fun e => homeFile_eq_error_iff) fun _ homeFile => ?_
  obtain ⟨homeDirectory, homeTold, rfl⟩ := homeFile_eq_ok_iff.1 homeFile
  refine .bind (l := [Origin.home]) (.single fun e => ?_) fun home homeLoaded => ?_
  · rw [optionalLayer_eq_error_iff]
    refine ⟨.home homeTold, fun | .home told fails => ?_⟩
    cases homeTold.symm.trans told
    exact fails
  refine .bind (l := [Origin.workingDirectory]) (.single fun e => projectFile_eq_error_iff) fun _ projectFile => ?_
  obtain ⟨workingDirectory, workTold, rfl⟩ := projectFile_eq_ok_iff.1 projectFile
  refine .bind (l := [Origin.project]) (.single fun e => ?_) fun project projectLoaded => ?_
  · rw [optionalLayer_eq_error_iff]
    refine ⟨.project workTold, fun | .project told fails => ?_⟩
    cases workTold.symm.trans told
    exact fails
  refine .bind (l := [Origin.named]) (.single fun e => ?_) fun explicit explicitLoaded =>
    stopsAtFirst_variables.bind fun environment environmentLoaded =>
    stopsAtFirst_values free distinct homeTold homeLoaded workTold projectLoaded explicitLoaded environmentLoaded
  · rw [explicitLayer_eq_error_iff]
    exact ⟨.named, fun | .named fails => fails⟩

/-- What loading can fail for: a fault, or that the system does not say where the home or the working directory is
or whether a file is there, or that a value that is refused has no text. -/
inductive Contained (host : Host) (named : Option Path) (overrides : Keyed Value) : Failure → Prop where
  | general (message : String) : Contained host named overrides (.fault (.general message))
  | invalidSetting (key : String) (v : Value) (reason : String) :
      Contained host named overrides (.fault (.invalidSetting key v reason))
  | noHome (lost : Homeless host) : Contained host named overrides (.defect .noHome)
  | workLost {obstacle : Obstacle} (lost : host.workLost = some obstacle) :
      Contained host named overrides (.defect (.workLost obstacle))
  | unopened {p : Path} {obstacle : Obstacle} (looked : LooksAt host named p)
      (closed : host.exists? p = .error obstacle) :
      Contained host named overrides (.defect (.unopened obstacle p.shown))
  | noText {l : Layers} {setting : Setting} (read : l.Read host named overrides)
      (refuses : (fill (overlay l.all)).Refuses setting)
      (long : ((fill (overlay l.all)).value setting).hasText = false) :
      Contained host named overrides (.defect .noText)

omit free distinct in
theorem FileFails.contained (looked : LooksAt host named p) (h : FileFails host title p e) :
    Contained host named overrides e := by
  cases h with
  | unopened closed => exact .unopened looked closed
  | unread => exact .general _
  | noTable => exact .general _

omit free distinct in
theorem Fails.contained {origin : Origin} (h : Fails host named overrides origin e) :
    Contained host named overrides e := by
  cases h with
  | homeDirectory lost => exact .noHome lost
  | home told fails => exact fails.contained (.home told)
  | workingDirectory lost => exact .workLost lost
  | project told fails => exact fails.contained (.project told)
  | named fails =>
    cases fails with
    | missing => exact .general _
    | file fails => exact fails.contained (.named rfl)
  | environment unread =>
    obtain ⟨text, refusal, -, -, rfl⟩ := unread
    exact .general _
  | values read fails =>
    cases fails with
    | unknown => exact .general _
    | value known first =>
      obtain ⟨setting, -, misses⟩ := first.exists_mem
      cases misses with
      | mistyped => exact .general _
      | refused => exact .invalidSetting _ _ _
      | noText refuses long => exact .noText read refuses long

/-- Settings are loaded if nothing is wrong anywhere. Else loading fails for what is wrong at the first of the places
that settings come from, and what it says is contained. -/
theorem load_fails_first :
    (∀ e, load host named overrides = .error e ↔ FirstFails (Fails host named overrides) Origin.all e) ∧
    ((∃ s, load host named overrides = .ok s) ↔ ∀ origin e, ¬Fails host named overrides origin e) ∧
    ∀ e, load host named overrides = .error e → Contained host named overrides e := by
  have stops : StopsAtFirst (Fails host named overrides) Origin.all (load host named overrides) :=
    stopsAtFirst_load free distinct
  refine ⟨stops, ⟨?_, ?_⟩, ?_⟩
  · rintro ⟨s, loaded⟩ origin
    exact stops.fine_of_ok loaded origin origin.mem_all
  · intro fine
    cases result : load host named overrides with
    | ok s => exact ⟨s, rfl⟩
    | error e =>
      obtain ⟨origin, -, fails⟩ := ((stops e).1 result).exists_mem
      exact (fine origin e fails).elim
  · intro e failed
    obtain ⟨origin, -, fails⟩ := ((stops e).1 failed).exists_mem
    exact fails.contained

end Load

section Absent

theorem FileFails.of_absent (absent : host.exists? p = .ok false) : ¬FileFails host title p e := by
  rintro (closed | found | found)
  · cases absent.symm.trans closed
  · cases absent.symm.trans found
  · cases absent.symm.trans found

variable {home work : Path} (homeTold : host.homeDirectory = .ok home)
  (noHomeFile : host.exists? (home.child ".cyclospace.toml") = .ok false)

include homeTold noHomeFile

theorem firstFails_of_noHomeFile {origins : List Origin}
    (first : FirstFails (Fails host named overrides) origins e) :
    FirstFails (Fails host named overrides) (.homeDirectory :: .home :: origins) e := by
  refine .there (fun e' fails => ?_) (.there (fun e' fails => ?_) first)
  · obtain ⟨lost⟩ := fails
    cases homeTold.symm.trans (homeDirectory_eq_error_iff.2 ⟨rfl, lost⟩)
  · cases fails with
    | home told fails =>
      cases homeTold.symm.trans told
      exact fails.of_absent noHomeFile

theorem firstFails_of_noFiles (workTold : host.workingDirectory = .ok work)
    (noProjectFile : host.exists? (work.child "cyclospace.toml") = .ok false)
    (first : FirstFails (Fails host named overrides) (.named :: (Setting.all.map .environment ++ [.values])) e) :
    FirstFails (Fails host named overrides) Origin.all e := by
  refine firstFails_of_noHomeFile homeTold noHomeFile (.there (fun e' fails => ?_) (.there (fun e' fails => ?_) first))
  · obtain ⟨obstacle, lost, -⟩ := projectFile_eq_error_iff.2 fails |> fileIn_eq_error_iff.1
    cases workTold.symm.trans lost
  · cases fails with
    | project told fails =>
      cases workTold.symm.trans told
      exact fails.of_absent noProjectFile

end Absent

theorem exists?_home_twoScripts : Sources.twoScripts.exists? ⟨.slash, [".cyclospace.toml"]⟩ = .ok false :=
  Host.exists?_missing rfl (by decide) (by decide) (by decide) rfl

theorem exists?_project_twoScripts : Sources.twoScripts.exists? ⟨.slash, ["cyclospace.toml"]⟩ = .ok false :=
  Host.exists?_missing rfl (by decide) (by decide) (by decide) rfl

def noFile : Path := ⟨.slash, ["x"]⟩

def noNumber : Host := { Sources.twoScripts with environment := [("CYCLOSPACE_WORKERS", "x")] }

def noWorkers : Keyed Value := [("workers", .whole 0)]

theorem load_fails_first_of_noNumber :
    load noNumber (some noFile) noWorkers = .error (.fault (.general ("Config file not found: " ++ noFile.shown))) ∧
    load noNumber none noWorkers = .error (.fault (unreadFault .workers (.notWhole "x"))) ∧
    load { noNumber with environment := [("HOME", "~")] } (some noFile) noWorkers = .error (.defect .noHome) ∧
    load { noNumber with workLost := some .missing } (some noFile) noWorkers =
      .error (.defect (.workLost .missing)) := by
  have free : explicitKey ∉ noWorkers.keys := by decide
  have distinct : noWorkers.keys.Nodup := by decide
  have missing : noNumber.exists? noFile = .ok false :=
    Host.exists?_missing rfl (by decide) (by decide) (by decide) rfl
  have given : noNumber.environment.get? Setting.workers.variableName = some "x" := by
    rw [Setting.variableName_eq]
    rfl
  have unread : Unread noNumber .workers (unreadFault .workers (.notWhole "x")) :=
    ⟨"x", .notWhole "x", given, by cbv, rfl⟩
  have homeTold : noNumber.homeDirectory = .ok (.ofText "/") := by cbv
  have nothingNamed (e : Failure) : ¬Fails noNumber none noWorkers .named e := by
    rintro (_ | _ | _ | _ | ⟨⟨⟩⟩)
  refine ⟨?_, ?_, ?_, ?_⟩
  · apply ((load_fails_first free distinct).1 _).2
    exact firstFails_of_noFiles homeTold exists?_home_twoScripts rfl exists?_project_twoScripts
      (.here _ (.named (.missing missing)))
  · apply ((load_fails_first free distinct).1 _).2
    exact firstFails_of_noFiles homeTold exists?_home_twoScripts rfl exists?_project_twoScripts
      (.there nothingNamed (.here _ (.environment unread)))
  · apply ((load_fails_first free distinct).1 _).2
    have told : Keyed.get? [("HOME", "~")] Host.homeVariable = some "~" := by decide
    exact .here _ (.homeDirectory (.tilde told (by cbv)))
  · apply ((load_fails_first free distinct).1 _).2
    have homeTold' : { noNumber with workLost := some .missing }.homeDirectory = .ok (.ofText "/") := homeTold
    exact firstFails_of_noHomeFile homeTold' exists?_home_twoScripts (.here _ (.workingDirectory rfl))

theorem load_longName :
    load Sources.twoScripts (some ⟨.none, [Sources.longName]⟩) [] =
      .error (.defect (.unopened .nameTooLong Sources.longName)) := by
  have closed : FileFails Sources.twoScripts "config file" ⟨.none, [Sources.longName]⟩ _ :=
    .unopened Sources.exists?_longName
  rw [Path.shown_name] at closed
  apply (stopsAtFirst_load (by decide) (by decide) _).2
  exact firstFails_of_noFiles rfl exists?_home_twoScripts rfl exists?_project_twoScripts
    (.here _ (.named (.file closed)))

end ScopeComplexity.Settings
