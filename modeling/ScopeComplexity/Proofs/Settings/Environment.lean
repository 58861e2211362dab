import ScopeComplexity.Proofs.First
import ScopeComplexity.Proofs.Settings.Load
import ScopeComplexity.Proofs.Settings.Names

namespace ScopeComplexity

/-- The values of a kind. Of a choice any word is one, and a list is one of texts. -/
def Hint.Types : Hint → Value → Prop
  | .optional inner, v => inner.Types v
  | .list, v => ∃ names : List String, v = .list (names.map .text)
  | .whole, v => ∃ n, v = .whole n
  | .double, v => ∃ x, v = .double x
  | .flag, v => ∃ b, v = .flag b
  | .text, v | .choice, v => ∃ text, v = .text text
  | .table, _ | .nothing, _ => False

theorem Hint.types_of_read {hint : Hint} {field given : String} {v : Value}
    (h : hint.read field given = .ok (some v)) : hint.Types v := by
  induction hint with
  | optional inner ih => exact ih h
  | list =>
    rw [read] at h
    split at h
    · split at h
      · cases h
      · cases h
        exact ⟨_, rfl⟩
    · cases h
  | whole =>
    rw [read] at h
    split at h
    · cases h
      exact ⟨_, rfl⟩
    · cases h
    · cases h
  | double =>
    rw [read] at h
    split at h
    · cases h
      exact ⟨_, rfl⟩
    · cases h
  | flag =>
    rw [read] at h
    cases word : readFlag given with
    | error refusal =>
      rw [word] at h
      cases h
    | ok b =>
      rw [word] at h
      cases h
      exact ⟨b, rfl⟩
  | text =>
    cases h
    exact ⟨given, rfl⟩
  | choice =>
    cases h
    exact ⟨given, rfl⟩
  | table => cases h
  | nothing => cases h

/-- A text is one of some words, whether in small letters or in capitals. -/
def Hint.Spells (words : List String) (given : String) : Prop :=
  String.ofList (given.toList.map Char.toLower) ∈ words

instance (words : List String) (given : String) : Decidable (Hint.Spells words given) :=
  inferInstanceAs (Decidable (_ ∈ words))

theorem Hint.readFlag_eq (given : String) :
    readFlag given = if Spells trueWords given then .ok true
      else if Spells falseWords given then .ok false else .error (.notFlag given) := by
  simp only [readFlag, Spells, List.contains_iff_mem]
  rfl

theorem Hint.readFlag_eq_true_iff {given : String} : readFlag given = .ok true ↔ Spells trueWords given := by
  rw [readFlag_eq]
  grind

theorem Hint.readFlag_eq_false_iff {given : String} : readFlag given = .ok false ↔ Spells falseWords given := by
  have apart : ∀ word ∈ falseWords, word ∉ trueWords := by decide
  have one (off : Spells falseWords given) : ¬Spells trueWords given := apart _ off
  rw [readFlag_eq]
  grind

theorem Hint.readFlag_eq_error_iff {given : String} {refusal : Refusal} :
    readFlag given = .error refusal ↔
      refusal = .notFlag given ∧ ¬Spells trueWords given ∧ ¬Spells falseWords given := by
  rw [readFlag_eq]
  grind

namespace Setting

theorem mem_all (s : Setting) : s ∈ all := by cases s <;> decide

theorem key_injective {s t : Setting} (same : s.key = t.key) : s = t := by
  have distinct : (all.map key).Nodup := by decide
  exact List.inj_on_of_nodup_map distinct s.mem_all t.mem_all same

end Setting

namespace Settings

variable {host : Host} {layer : Keyed Value} {s : Setting} {fault : Fault}

def unreadFault (s : Setting) (refusal : Hint.Refusal) : Fault :=
  .general ("Invalid " ++ s.variableName ++ ": " ++ refusal.message)

/-- The text of a variable cannot be read as a value of its setting. -/
def Unread (host : Host) (s : Setting) (fault : Fault) : Prop :=
  ∃ text refusal, host.environment.get? s.variableName = some text ∧ s.hint.read s.key text = .error refusal ∧
    fault = unreadFault s refusal

theorem variableEntry_eq_error_iff : variableEntry host s = .error fault ↔ Unread host s fault := by
  rw [variableEntry, Unread]
  cases text : host.environment.get? s.variableName with
  | none =>
    constructor
    · rintro ⟨⟩
    · rintro ⟨given, refusal, ⟨⟩, -⟩
  | some given =>
    dsimp only
    cases result : s.hint.read s.key given with
    | ok found =>
      constructor
      · rintro ⟨⟩
      · rintro ⟨other, refusal, ⟨⟩, unread, -⟩
        cases result.symm.trans unread
    | error refusal =>
      constructor
      · rintro ⟨⟩
        exact ⟨given, refusal, rfl, result, rfl⟩
      · rintro ⟨other, refusal', ⟨⟩, unread, rfl⟩
        cases result.symm.trans unread
        rfl

theorem stopsAtFirst_environmentLayer (host : Host) :
    StopsAtFirst (Unread host) Setting.all (environmentLayer host) := by
  have entries := StopsAtFirst.mapM (variableEntry host) Setting.all
  simp only [variableEntry_eq_error_iff] at entries
  rw [environmentLayer]
  exact entries.bind_pure fun entries => entries.filterMap id

def saidBy (host : Host) (s : Setting) : Option Value :=
  (host.environment.get? s.variableName).bind fun text => (s.hint.read s.key text).toOption.join

theorem exists_environmentSets (loaded : environmentLayer host = .ok layer) :
    ∃ said, EnvironmentSets host layer said := by
  have readable := (stopsAtFirst_environmentLayer host).fine_of_ok loaded
  have sets : EnvironmentSets host (Setting.all.filterMap fun s => (saidBy host s).map (s.key, ·)) (saidBy host) := by
    refine ⟨fun s unset => ?_, fun s text set => ?_, rfl⟩
    · rw [saidBy, unset]
      rfl
    · rw [saidBy, set]
      cases result : s.hint.read s.key text with
      | error refusal => exact (readable s s.mem_all _ ⟨text, refusal, set, result, rfl⟩).elim
      | ok found =>
        rw [Option.bind_some, result]
        rfl
  cases sets.environmentLayer_eq.symm.trans loaded
  exact ⟨_, sets⟩

namespace EnvironmentSets

variable {said : Setting → Option Value} (sets : EnvironmentSets host layer said)

include sets

theorem mem_iff {key : String} {v : Value} : (key, v) ∈ layer ↔ ∃ s : Setting, s.key = key ∧ said s = some v := by
  rw [sets.layer_eq, List.mem_filterMap]
  constructor
  · rintro ⟨s, -, entry⟩
    obtain ⟨w, found, same⟩ := Option.map_eq_some_iff.1 entry
    cases same
    exact ⟨s, rfl, found⟩
  · rintro ⟨s, rfl, found⟩
    exact ⟨s, s.mem_all, Option.map_eq_some_iff.2 ⟨v, found, rfl⟩⟩

theorem get?_eq (s : Setting) : layer.get? s.key = said s := by
  ext v
  rw [Keyed.get?_eq_some_iff sets.nodup_keys, sets.mem_iff]
  constructor
  · rintro ⟨t, same, found⟩
    exact Setting.key_injective same ▸ found
  · exact fun found => ⟨s, rfl, found⟩

theorem exists_text {v : Value} (found : said s = some v) :
    ∃ text, host.environment.get? s.variableName = some text ∧ s.hint.read s.key text = .ok (some v) := by
  cases set : host.environment.get? s.variableName with
  | none => cases (sets.unset s set).symm.trans found
  | some text => exact ⟨text, rfl, found ▸ sets.reads s text set⟩

end EnvironmentSets

structure Typed (host : Host) (layer : Keyed Value) : Prop where
  distinct : layer.keys.Nodup
  entry : ∀ key v, (key, v) ∈ layer → ∃ s : Setting, s.key = key ∧ s ≠ .excludePatterns ∧ s.hint.Types v ∧
    ∃ text, host.environment.get? s.variableName = some text ∧ s.hint.read s.key text = .ok (some v)
  reading : ∀ (s : Setting) (text : String), host.environment.get? s.variableName = some text →
    s.hint.read s.key text = .ok (layer.get? s.key)
  unset : ∀ s : Setting, host.environment.get? s.variableName = none → layer.get? s.key = none
  verbosity : ∀ text, host.environment.get? Setting.verbosity.variableName = some text →
    layer.get? Setting.verbosity.key = some (.text text)

theorem EnvironmentSets.typed {said : Setting → Option Value} (sets : EnvironmentSets host layer said) :
    Typed host layer := by
  have reading (s : Setting) (text : String) (set : host.environment.get? s.variableName = some text) :
      s.hint.read s.key text = .ok (layer.get? s.key) := by
    rw [sets.get?_eq]
    exact sets.reads s text set
  refine ⟨sets.nodup_keys, ?_, reading, ?_, ?_⟩
  · intro key v member
    obtain ⟨s, same, found⟩ := sets.mem_iff.1 member
    obtain ⟨text, set, read⟩ := sets.exists_text found
    refine ⟨s, same, ?_, Hint.types_of_read read, text, set, read⟩
    rintro rfl
    cases read
  · intro s unset
    rw [sets.get?_eq]
    exact sets.unset s unset
  · exact fun text set => (Except.ok.inj (reading .verbosity text set)).symm

def readLanguages (given : String) : Except Hint.Refusal (Option Value) :=
  Setting.languages.hint.read Setting.languages.key given

theorem readLanguages_eq {given : String} {names : List String} (lists : Hint.Lists given names) :
    readLanguages given = .ok (if names = [] then none else some (.list (names.map .text))) := by
  rw [readLanguages, Setting.hint, Hint.read, Hint.read, if_pos (by rfl), Hint.lists_iff.1 lists]
  cases names with
  | nil => rfl
  | cons name names => rfl

/-- Which texts turn a setting on and off. All others are refused. -/
structure Switched (s : Setting) (given : String) : Prop where
  on : s.hint.read s.key given = .ok (some (.flag true)) ↔ Hint.Spells ["true", "1", "yes", "on"] given
  off : s.hint.read s.key given = .ok (some (.flag false)) ↔ Hint.Spells ["false", "0", "no", "off"] given
  refused : ∀ refusal, s.hint.read s.key given = .error refusal ↔
    refusal = .notFlag given ∧ ¬Hint.Spells ["true", "1", "yes", "on"] given ∧
      ¬Hint.Spells ["false", "0", "no", "off"] given

theorem switched_of_flag (flag : s.hint = .flag) (given : String) : Switched s given := by
  have read : s.hint.read s.key given = (Hint.readFlag given).map fun b => some (.flag b) := by
    rw [flag, Hint.read]
  have means (b : Bool) : s.hint.read s.key given = .ok (some (.flag b)) ↔ Hint.readFlag given = .ok b := by
    rw [read]
    cases Hint.readFlag given <;> simp [Except.map]
  have stops (refusal : Hint.Refusal) :
      s.hint.read s.key given = .error refusal ↔ Hint.readFlag given = .error refusal := by
    rw [read]
    cases Hint.readFlag given <;> simp [Except.map]
  exact ⟨(means true).trans Hint.readFlag_eq_true_iff, (means false).trans Hint.readFlag_eq_false_iff,
    fun refusal => (stops refusal).trans Hint.readFlag_eq_error_iff⟩

/-- The environment is refused for the first of the settings whose text cannot be read, or each variable gives a
value of the type of its setting. A list of languages is never empty, and is read again from its names put
together. The flags are read from eight words. -/
theorem environmentLayer_typed (host : Host) :
    (∀ fault, environmentLayer host = .error fault ↔ FirstFails (Unread host) Setting.all fault) ∧
    (∀ layer, environmentLayer host = .ok layer → Typed host layer) ∧
    (∀ given, ∃ names, Hint.Lists given names ∧ (∀ name ∈ names, Hint.IsListed name) ∧
      readLanguages given = .ok (if names = [] then none else some (.list (names.map .text))) ∧
      (names = [] ↔ ∀ segment ∈ given.toList.splitOn ',', ∀ c ∈ segment, Text.isBlank c = true) ∧
      (names ≠ [] → readLanguages (",".intercalate names) = readLanguages given)) ∧
    (∀ names, names ≠ [] → (∀ name ∈ names, Hint.IsListed name) →
      readLanguages (",".intercalate names) = .ok (some (.list (names.map .text)))) ∧
    ∀ s ∈ [Setting.allowHiddenFiles, .followLinks, .strictParsing], ∀ given, Switched s given := by
  have whole {names : List String} (nonempty : names ≠ []) (listed : ∀ name ∈ names, Hint.IsListed name) :
      readLanguages (",".intercalate names) = .ok (some (.list (names.map .text))) := by
    rw [readLanguages_eq (Hint.lists_intercalate nonempty listed), if_neg nonempty]
  refine ⟨stopsAtFirst_environmentLayer host, fun layer loaded => ?_, fun given => ?_, fun names => whole,
    fun s member => switched_of_flag ?_⟩
  · obtain ⟨said, sets⟩ := exists_environmentSets loaded
    exact sets.typed
  · have lists := Hint.lists_pieces given
    refine ⟨_, lists, lists.isListed, readLanguages_eq lists, lists.eq_nil_iff, fun nonempty => ?_⟩
    rw [whole nonempty lists.isListed, readLanguages_eq lists, if_neg nonempty]
  · simp only [List.mem_cons, List.not_mem_nil, or_false] at member
    rcases member with rfl | rfl | rfl <;> rfl

def surrounded (environment : Keyed String) : Host where
  files := .directory []
  home := .ofText "/"
  work := .ofText "/"
  environment

def twoNames : Host := surrounded [("CYCLOSPACE_LANGUAGES", " rust,, c ")]

def twoRefusals : Host := surrounded [("CYCLOSPACE_MAX_FILES", "many"), ("CYCLOSPACE_MAX_FILE_SIZE_MB", "big")]

theorem environmentSets_twoNames :
    EnvironmentSets twoNames [("languages", .list [.text "rust", .text "c"])] fun s =>
      if s = .languages then some (.list [.text "rust", .text "c"]) else none := by
  have given : twoNames.environment = [(Setting.languages.variableName, " rust,, c ")] := by
    rw [Setting.variableName_eq]
    rfl
  exact environmentSets_singleton given (by cbv)

theorem firstFails_twoRefusals :
    FirstFails (Unread twoRefusals) Setting.all (unreadFault .maxFileSize (.notDouble "big")) := by
  have fine {s : Setting} (unset : twoRefusals.environment.get? s.variableName = none) (fault : Fault) :
      ¬Unread twoRefusals s fault := by
    rintro ⟨text, refusal, set, -⟩
    cases unset.symm.trans set
  have set : twoRefusals.environment.get? Setting.maxFileSize.variableName = some "big" := by
    rw [Setting.variableName_eq]
    rfl
  have workers : twoRefusals.environment.get? Setting.workers.variableName = none := by
    rw [Setting.variableName_eq]
    rfl
  have patterns : twoRefusals.environment.get? Setting.excludePatterns.variableName = none := by
    rw [Setting.variableName_eq]
    rfl
  refine .there (fine workers) (.there (fine patterns) (.here _ ?_))
  exact ⟨"big", .notDouble "big", set, by rfl, rfl⟩

theorem environmentLayer_typed_of_twoNames :
    Typed twoNames [("languages", .list [.text "rust", .text "c"])] ∧
    readLanguages "rust,c" = .ok (some (.list [.text "rust", .text "c"])) ∧
    environmentLayer twoRefusals = .error (unreadFault .maxFileSize (.notDouble "big")) := by
  obtain ⟨-, typed, -, joined, -⟩ := environmentLayer_typed twoNames
  obtain ⟨refused, -, -, -, -⟩ := environmentLayer_typed twoRefusals
  refine ⟨typed _ environmentSets_twoNames.environmentLayer_eq, ?_, (refused _).2 firstFails_twoRefusals⟩
  have lists : Hint.Lists " rust,, c " ["rust", "c"] := Hint.lists_iff.2 (by decide)
  exact joined _ (List.cons_ne_nil _ _) lists.isListed

end Settings

end ScopeComplexity
