import ScopeComplexity.Proofs.Keyed
import ScopeComplexity.Proofs.Settings.Check
import ScopeComplexity.Proofs.Settings.Precedence

namespace ScopeComplexity

/-- If a result is a defect, it is one of the given kind. -/
def Limited {α : Type} (kind : Defect → Prop) (x : Except Failure α) : Prop :=
  ∀ d, x = .error (.defect d) → kind d

namespace Limited

variable {α β : Type} {kind : Defect → Prop}

theorem ok (a : α) : Limited kind (.ok a) := nofun

theorem fault (f : Fault) : Limited kind (.error (.fault f) : Except Failure α) := nofun

theorem defect {d : Defect} (h : kind d) : Limited kind (.error (.defect d) : Except Failure α) := by
  intro d' same
  cases same
  exact h

theorem mapError_fault (x : Except Fault α) : Limited kind (x.mapError .fault) := by
  cases x with
  | ok a => exact ok a
  | error f => exact fault f

theorem bind {x : Except Failure α} {f : α → Except Failure β} (h : Limited kind x)
    (next : ∀ a, x = .ok a → Limited kind (f a)) : Limited kind (x >>= f) := by
  cases x with
  | error e =>
    intro d same
    cases same
    exact h d rfl
  | ok a => exact next a rfl

end Limited

theorem Setting.hasText_standard (s : Setting) : s.standard.hasText = true := by
  cases s <;> decide +kernel

namespace Settings

section Check

variable {s : Settings}

inductive Refuses (s : Settings) : Setting → Prop where
  | workers (few : (s.value .workers).less 1 = .ok true) : Refuses s .workers
  | maxFileSize (small : (s.value .maxFileSize).lessOrEqual 0 = .ok true) : Refuses s .maxFileSize
  | maxFiles (few : (s.value .maxFiles).less 1 = .ok true) : Refuses s .maxFiles
  | verbosity (other : (!verbosities.any fun word => (s.value .verbosity).isText word) = true) : Refuses s .verbosity
  | languages (empty : (!isNull (s.value .languages) && !(s.value .languages).isTrue) = true) : Refuses s .languages

inductive Misfit (s : Settings) : Defect → Prop where
  | ofType {d : Defect} (type : d.isOfType = true) : Misfit s d
  | noText {setting : Setting} (refused : s.Refuses setting) (long : (s.value setting).hasText = false) :
      Misfit s .noText

theorem isOfType_of_compare {operator : String} {wholes : Int → Int → Bool} {doubles : Float → Float → Bool}
    {v : Value} {bound : Int} {cause : Value.Misuse} (h : v.compare operator wholes doubles bound = .error cause) :
    cause.isOfType = true := by
  rw [Value.compare] at h
  split at h
  · cases h
  · cases h
  · cases h
    rfl

theorem limited_refuse {α : Type} {setting : Setting} (refused : s.Refuses setting) (reason : String) :
    Limited s.Misfit (s.refuse setting reason : Except Failure α) := by
  rw [refuse]
  cases text : (s.value setting).hasText with
  | true => exact .fault _
  | false => exact .defect (.noText refused text)

theorem limited_refuse_if {setting : Setting} {reason : String} {bad : Bool} {rest : Except Failure Unit}
    (refused : bad = true → s.Refuses setting) (h : Limited s.Misfit rest) : Limited s.Misfit (do
      if bad then s.refuse setting reason
      rest) := by
  cases bad with
  | false => exact h
  | true => exact (limited_refuse (refused rfl) reason).bind fun _ _ => h

theorem limited_compare {setting : Setting} {reason operator : String} {wholes : Int → Int → Bool}
    {doubles : Float → Float → Bool} {v : Value} {bound : Int} {rest : Except Failure Unit}
    (refused : v.compare operator wholes doubles bound = .ok true → s.Refuses setting)
    (h : Limited s.Misfit rest) : Limited s.Misfit (do
      if ← sound (v.compare operator wholes doubles bound) then s.refuse setting reason
      rest) := by
  cases compared : v.compare operator wholes doubles bound with
  | error cause => exact .defect (.ofType (isOfType_of_compare compared))
  | ok bad => exact limited_refuse_if (fun same => refused (same ▸ compared)) h

theorem limited_check (s : Settings) : Limited s.Misfit s.check := by
  have languages : Limited s.Misfit (if (!isNull (s.value .languages) && !(s.value .languages).isTrue) = true then
      s.refuse .languages "must not be empty" else pure ()) := by
    split
    next empty => exact limited_refuse (.languages empty) _
    next => exact .ok ()
  rw [check]
  cases null : isNull (s.value .workers) with
  | true =>
    simp only [Bool.not_true, Bool.false_eq_true, if_false]
    exact limited_compare .maxFileSize (limited_compare .maxFiles (limited_refuse_if .verbosity languages))
  | false =>
    simp only [Bool.not_false, if_true]
    exact limited_compare .workers (limited_compare .maxFileSize
      (limited_compare .maxFiles (limited_refuse_if .verbosity languages)))

theorem limited_ofLayer (layer : Keyed Value) : Limited (fill layer).Misfit (ofLayer layer) := by
  cases unknown : unknownKeys layer with
  | nil =>
    rw [ofLayer, checkKeys_eq, unknown]
    exact (limited_check _).bind fun _ _ => .ok _
  | cons name others =>
    rw [ofLayer_of_unknown unknown]
    exact .defect (.ofType (isOfType_unknownDefect name))

theorem limited_asFault {α : Type} {x : Except Failure α} (h : Limited s.Misfit x) :
    Limited (fun d => d = .noText ∧ ∃ setting, s.Refuses setting ∧ (s.value setting).hasText = false)
      (x.mapError asFault) := by
  cases x with
  | ok a => exact .ok a
  | error failure =>
    cases failure with
    | fault f => exact .fault f
    | defect d =>
      cases h d rfl with
      | ofType type =>
        rw [Except.mapError, asFault, if_pos type]
        exact .fault _
      | noText refused long => exact .defect ⟨rfl, _, refused, long⟩

end Check

section Load

variable {host : Host} {named : Option Path} {overrides : Keyed Value}

inductive LooksAt (host : Host) (named : Option Path) : Path → Prop where
  | home {directory : Path} (told : host.homeDirectory = .ok directory) :
      LooksAt host named (directory.child ".cyclospace.toml")
  | project {directory : Path} (told : host.workingDirectory = .ok directory) :
      LooksAt host named (directory.child "cyclospace.toml")
  | named {p : Path} (given : named = some p) : LooksAt host named p

theorem LooksAt.of_homeFile {p : Path} (h : homeFile host = .ok p) : LooksAt host named p := by
  obtain ⟨directory, told, rfl⟩ := homeFile_eq_ok_iff.1 h
  exact .home told

theorem LooksAt.of_projectFile {p : Path} (h : projectFile host = .ok p) : LooksAt host named p := by
  obtain ⟨directory, told, rfl⟩ := projectFile_eq_ok_iff.1 h
  exact .project told

/-- The defects that loading can end with: an override under a name that is taken, a directory that is not told, a
file of which the system does not say whether it is there, and a value that is refused and has no text. -/
inductive Defective (host : Host) (named : Option Path) (overrides : Keyed Value) : Defect → Prop where
  | taken (given : explicitKey ∈ overrides.keys) : Defective host named overrides (.takenOverride explicitKey)
  | home {d : Defect} (lost : host.homeDirectory = .error d) : Defective host named overrides d
  | work {d : Defect} (lost : host.workingDirectory = .error d) : Defective host named overrides d
  | unopened {p : Path} {obstacle : Obstacle} (looked : LooksAt host named p)
      (closed : host.exists? p = .error obstacle) : Defective host named overrides (.unopened obstacle p.shown)
  | noText {found : List (Keyed Value)} {setting : Setting} (read : layers host named overrides = .ok found)
      (refused : (fill (merge found)).Refuses setting)
      (long : ((fill (merge found)).value setting).hasText = false) : Defective host named overrides .noText

theorem limited_fileIn {kind : Defect → Prop} {directory : Except Defect Path} {name : String}
    (lost : ∀ d, directory = .error d → kind d) : Limited kind (fileIn directory name) := by
  intro d failed
  obtain ⟨d', same, ⟨⟩⟩ := fileIn_eq_error_iff.1 failed
  exact lost d same

theorem limited_layerOrElse {p : Path} (looked : LooksAt host named p) (title : String)
    (otherwise : Except Fault (Keyed Value)) :
    Limited (Defective host named overrides) (layerOrElse host title p otherwise) := by
  rw [layerOrElse]
  cases there : host.exists? p with
  | error obstacle => exact .defect (.unopened looked there)
  | ok found => exact .mapError_fault _

theorem limited_layers : Limited (Defective host named overrides) (layers host named overrides) := by
  have explicit : Limited (Defective host named overrides) (explicitLayer host named) := by
    cases named with
    | none => exact .ok []
    | some p => exact limited_layerOrElse (.named rfl) _ _
  rw [layers]
  refine (limited_fileIn fun _ => .home).bind fun home told => ?_
  refine (limited_layerOrElse (.of_homeFile told) _ _).bind fun _ _ => ?_
  refine (limited_fileIn fun _ => .work).bind fun project told' => ?_
  refine (limited_layerOrElse (.of_projectFile told') _ _).bind fun _ _ => ?_
  exact explicit.bind fun _ _ => (Limited.mapError_fault _).bind fun _ _ => .ok _

theorem defective_of_load : Limited (Defective host named overrides) (load host named overrides) := by
  rw [load]
  cases given : overrides.get? explicitKey with
  | some v => exact .defect (.taken (List.mem_map_of_mem (Keyed.mem_of_get?_eq_some given)))
  | none =>
    refine limited_layers.bind fun found read => ?_
    intro d failed
    obtain ⟨rfl, setting, refused, long⟩ := limited_asFault (limited_ofLayer _) d failed
    exact .noText read refused long

theorem check_of_load {s : Settings} (h : load host named overrides = .ok s) : s.check = .ok () := by
  rw [load] at h
  cases given : overrides.get? explicitKey with
  | some v => simp [given, bind, Except.bind, throw, throwThe, MonadExceptOf.throw] at h
  | none =>
    rw [given] at h
    cases read : layers host named overrides with
    | error e =>
      rw [read] at h
      cases h
    | ok found =>
      rw [read] at h
      cases made : ofLayer (merge found) with
      | error e => simp [made, bind, Except.bind, Except.mapError] at h
      | ok own =>
        simp [made, bind, Except.bind, Except.mapError] at h
        exact h ▸ (ofLayer_eq_ok made).2

theorem layers_of_absent {home work : Path} (homeTold : host.homeDirectory = .ok home)
    (workTold : host.workingDirectory = .ok work) (absent : ∀ p, LooksAt host none p → host.exists? p = .ok false)
    (silent : host.environment = []) : layers host none overrides = .ok [[], [], [], [], overrideLayer overrides] := by
  have unset : variableEntry host = fun _ => pure none := by
    funext s
    rw [variableEntry, silent]
    rfl
  have environment : environmentLayer host = .ok [] := by
    rw [environmentLayer, unset, List.mapM_pure]
    rfl
  have nothing {p : Path} (looked : LooksAt host none p) (title : String) :
      optionalLayer host title p = .ok [] := by
    rw [optionalLayer, layerOrElse, absent p looked]
    rfl
  simp only [layers, homeFile_eq_ok_iff.2 ⟨home, homeTold, rfl⟩, projectFile_eq_ok_iff.2 ⟨work, workTold, rfl⟩, bind,
    Except.bind, nothing (.home homeTold), nothing (.project workTold), environment]
  rfl

end Load

theorem check_of_few {s : Settings} {n : Int} (workers : s.value .workers = .whole n) (few : n < 1)
    (long : (Value.whole n).hasText = false) : s.check = .error (.defect .noText) := by
  have less : (Value.whole n).less 1 = .ok true := congrArg Except.ok (decide_eq_true few)
  have refused : s.refuse (α := Unit) .workers "must be at least 1" = .error (.defect .noText) := by
    rw [refuse, workers, long]
    rfl
  rw [check, workers, less]
  exact congrArg (· >>= _) refused

end Settings

end ScopeComplexity
