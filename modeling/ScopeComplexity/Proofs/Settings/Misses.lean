import ScopeComplexity.Proofs.First
import ScopeComplexity.Proofs.Settings.Defects

namespace ScopeComplexity.Settings

def checked : List Setting := [.workers, .maxFileSize, .maxFiles, .verbosity, .languages]

inductive Asked : Setting → String → Prop where
  | workers : Asked .workers "must be at least 1"
  | maxFileSize : Asked .maxFileSize "must be positive"
  | maxFiles : Asked .maxFiles "must be at least 1"
  | verbosity : Asked .verbosity ("must be one of " ++ ", ".intercalate verbosities)
  | languages : Asked .languages "must not be empty"

variable {s : Settings} {setting : Setting} {operator operator' reason reason' : String} {e e' : Failure}
  {l : List Setting} {x : Except Failure Unit}

inductive Compares (s : Settings) : Setting → String → Prop where
  | workers (set : isNull (s.value .workers) = false) : Compares s .workers "<"
  | maxFileSize : Compares s .maxFileSize "<="
  | maxFiles : Compares s .maxFiles "<"

/-- What is said of the value of a setting: that it is no number where one is needed, or that it is not what is
asked. The latter cannot be said where the value has no text. -/
inductive Misses (s : Settings) : Setting → Failure → Prop where
  | mistyped {setting : Setting} {operator : String} (compares : s.Compares setting operator)
      (other : (s.value setting).number? = none) :
      Misses s setting (.fault (.general ("Invalid configuration: "
        ++ (Value.Misuse.compared operator (s.value setting).typeName "int").message)))
  | refused {setting : Setting} {reason : String} (asked : Asked setting reason) (refuses : s.Refuses setting)
      (text : (s.value setting).hasText = true) :
      Misses s setting (.fault (.invalidSetting setting.key (s.value setting) reason))
  | noText {setting : Setting} (refuses : s.Refuses setting) (long : (s.value setting).hasText = false) :
      Misses s setting (.defect .noText)

theorem Asked.unique (h : Asked setting reason) (h' : Asked setting reason') : reason = reason' := by
  cases h <;> cases h' <;> rfl

theorem Compares.unique (h : s.Compares setting operator) (h' : s.Compares setting operator') :
    operator = operator' := by
  cases h <;> cases h' <;> rfl

theorem Compares.number_of_refuses (h : s.Compares setting operator) (refuses : s.Refuses setting) :
    (s.value setting).number? ≠ none := by
  intro other
  cases h with
  | workers =>
    cases refuses with
    | workers few => simp [Value.less, Value.compare, other] at few
  | maxFileSize =>
    cases refuses with
    | maxFileSize small => simp [Value.lessOrEqual, Value.compare, other] at small
  | maxFiles =>
    cases refuses with
    | maxFiles few => simp [Value.less, Value.compare, other] at few

theorem Misses.unique (h : s.Misses setting e) (h' : s.Misses setting e') : e = e' := by
  cases h with
  | mistyped compares other =>
    cases h' with
    | mistyped compares' => rw [compares.unique compares']
    | refused asked refuses => exact (compares.number_of_refuses refuses other).elim
    | noText refuses => exact (compares.number_of_refuses refuses other).elim
  | refused asked refuses text =>
    cases h' with
    | mistyped compares other => exact (compares.number_of_refuses refuses other).elim
    | refused asked' => rw [asked.unique asked']
    | noText refuses long => cases text.symm.trans long
  | noText refuses long =>
    cases h' with
    | mistyped compares other => exact (compares.number_of_refuses refuses other).elim
    | refused asked refuses text => cases text.symm.trans long
    | noText => rfl

theorem not_misses (numbered : ∀ operator, s.Compares setting operator → (s.value setting).number? ≠ none)
    (kept : ¬s.Refuses setting) : ¬s.Misses setting e := by
  intro h
  cases h with
  | mistyped compares other => exact numbered _ compares other
  | refused _ refuses => exact kept refuses
  | noText refuses => exact kept refuses

def Reports (s : Settings) (l : List Setting) (x : Except Failure Unit) : Prop :=
  StopsAtFirst s.Misses l (x.mapError asFault)

namespace Reports

theorem stop (failed : x.mapError asFault = .error e) (own : s.Misses setting e) : s.Reports (setting :: l) x := by
  intro e'
  rw [failed, FirstFails.cons_iff]
  constructor
  · rintro ⟨⟩
    exact .inl own
  · rintro (own' | ⟨fine, -⟩)
    · rw [own.unique own']
    · exact (fine e own).elim

section Asked

variable (asked : Asked setting reason) {rest : Except Failure Unit}

include asked

theorem refuse (refuses : s.Refuses setting) :
    s.Reports (setting :: l) (s.refuse setting reason >>= fun (_ : Unit) => rest) := by
  rw [Settings.refuse]
  cases text : (s.value setting).hasText with
  | true => exact stop rfl (.refused asked refuses text)
  | false => exact stop rfl (.noText refuses text)

variable (h : s.Reports l rest)

include h

theorem refuse_if {bad : Bool} (refuses : bad = true ↔ s.Refuses setting)
    (numbered : ∀ operator, s.Compares setting operator → (s.value setting).number? ≠ none) :
    s.Reports (setting :: l) (do
      if bad then s.refuse setting reason
      rest) := by
  cases bad with
  | false => exact StopsAtFirst.skip (fun e => not_misses numbered (mt refuses.2 Bool.false_ne_true)) h
  | true => exact refuse asked (refuses.1 rfl)

theorem compare {wholes : Int → Int → Bool} {doubles : Float → Float → Bool} {bound : Int}
    (compares : s.Compares setting operator)
    (refuses : (s.value setting).compare operator wholes doubles bound = .ok true ↔ s.Refuses setting) :
    s.Reports (setting :: l) (do
      if ← sound ((s.value setting).compare operator wholes doubles bound) then s.refuse setting reason
      rest) := by
  cases number : (s.value setting).number? with
  | none =>
    have compared : (s.value setting).compare operator wholes doubles bound =
        .error (.compared operator (s.value setting).typeName "int") := by
      rw [Value.compare, number]
    rw [compared]
    exact stop rfl (.mistyped compares number)
  | some n =>
    obtain ⟨bad, compared⟩ : ∃ bad, (s.value setting).compare operator wholes doubles bound = .ok bad := by
      rw [Value.compare, number]
      cases n with
      | whole n => exact ⟨_, rfl⟩
      | double x => exact ⟨_, rfl⟩
    rw [compared] at refuses ⊢
    refine refuse_if asked h ?_ fun _ _ => by simp [number]
    rw [← refuses, Except.ok.injEq]

end Asked

end Reports

theorem reports_check (s : Settings) : s.Reports checked s.check := by
  have languages : s.Reports [.languages] (if (!isNull (s.value .languages) && !(s.value .languages).isTrue) = true
      then s.refuse .languages "must not be empty" else pure ()) := by
    split
    next empty =>
      have stops : s.Reports [.languages]
          (s.refuse .languages "must not be empty" >>= fun (_ : Unit) => pure ()) :=
        .refuse .languages (.languages empty)
      rwa [bind_pure_unit] at stops
    next kept => exact (StopsAtFirst.ok s.Misses ()).skip fun e => not_misses nofun fun | .languages empty => kept empty
  have verbosity := Reports.refuse_if .verbosity languages ⟨.verbosity, fun | .verbosity other => other⟩ nofun
  have maxFiles := Reports.compare .maxFiles verbosity .maxFiles ⟨.maxFiles, fun | .maxFiles few => few⟩
  have maxFileSize := Reports.compare .maxFileSize maxFiles .maxFileSize
    ⟨.maxFileSize, fun | .maxFileSize small => small⟩
  have workers : (s.value .workers).less 1 = .ok true ↔ s.Refuses .workers := ⟨.workers, fun | .workers few => few⟩
  rw [check]
  cases null : isNull (s.value .workers) with
  | true =>
    have unset : s.value .workers = .null := eq_null_of_isNull null
    simp only [Bool.not_true, Bool.false_eq_true, if_false]
    refine StopsAtFirst.skip (fun e => not_misses ?_ ?_) maxFileSize
    · rintro operator (set | _ | _)
      cases null.symm.trans set
    · rintro (few | _ | _ | _ | _)
      rw [unset] at few
      cases few
  | false =>
    simp only [Bool.not_false, if_true]
    exact Reports.compare .workers maxFileSize (.workers null) workers

end ScopeComplexity.Settings
