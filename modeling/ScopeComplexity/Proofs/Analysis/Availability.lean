import ScopeComplexity.Grammar.Pool
import ScopeComplexity.Proofs.Analysis.Strictness
import ScopeComplexity.Proofs.Keyed

namespace ScopeComplexity

open Syntax

namespace Journal

variable {ε α β : Type} {x : Journal ε α} {f : α → Journal ε β}

theorem requests_bind_of_ok {a : α} (h : x.result = .ok a) (f : α → Journal ε β) :
    (x >>= f).requests = x.requests ++ (f a).requests := by
  rw [requests, events_bind_of_ok h, List.filterMap_append]
  rfl

theorem ofExcept_ok_bind (a : α) (f : α → Journal ε β) : (ofExcept (.ok a) >>= f) = f a := rfl

theorem requests_bind_eq_nil (first : x.requests = []) (rest : ∀ a, (f a).requests = []) :
    (x >>= f).requests = [] := by
  cases result : x.result with
  | error e =>
    rw [requests, events_bind_of_error result]
    exact first
  | ok a => rw [requests_bind_of_ok result, first, rest, List.append_nil]

end Journal

namespace Language

theorem mem_sortTexts {text : String} {texts : List String} : text ∈ sortTexts texts ↔ text ∈ texts :=
  List.mem_mergeSort

theorem ofName?_eq_some_iff {name : String} {language : Language} :
    ofName? name = some language ↔ language ∈ all ∧ language.name = name := by
  constructor
  · intro found
    exact ⟨List.mem_of_find?_eq_some found, by simpa using List.find?_some found⟩
  · rintro ⟨member, rfl⟩
    exact ofName?_name member

theorem mem_supported_iff {name : String} : name ∈ supported ↔ ∃ language, ofName? name = some language := by
  simp only [supported, mem_sortTexts, List.mem_map, ofName?_eq_some_iff]

end Language

namespace FrontEnd

variable {frontEnd : FrontEnd} {name : String}

theorem mem_languages_iff : name ∈ frontEnd.languages ↔
    ∃ language, Language.ofName? name = some language ∧ frontEnd.has language.grammar = true := by
  simp only [languages, Language.mem_sortTexts, List.mem_map, List.mem_filter, Language.ofName?_eq_some_iff]
  constructor
  · rintro ⟨language, ⟨member, installed⟩, same⟩
    exact ⟨language, ⟨member, same⟩, installed⟩
  · rintro ⟨language, ⟨member, same⟩, installed⟩
    exact ⟨language, ⟨member, installed⟩, same⟩

section Ask

variable {ε : Type} {grammar : String} (code : ByteArray)

theorem ask_of_has (installed : frontEnd.has grammar = true) :
    (frontEnd.ask grammar code : Journal ε _) =
      ⟨.ok (some (frontEnd.read grammar code)), [.asked grammar code]⟩ := by
  rw [ask, installed]
  rfl

theorem ask_of_missing (missing : frontEnd.has grammar = false) :
    (frontEnd.ask grammar code : Journal ε _) = ⟨.ok none, [.asked grammar code]⟩ := by
  rw [ask, missing]
  rfl

end Ask

end FrontEnd

namespace Grammar.Pool

theorem isSome_request_iff (pool : Pool) (slot : Slot) :
    (pool.request slot).1.isSome = true ↔ slot.grammar ∈ pool.grammars.keys := by
  rw [request, ← not_iff_not, ← Keyed.get?_eq_none_iff]
  cases pool.grammars.get? slot.grammar with
  | none => simp
  | some handle => cases pool.kept? slot <;> simp

end Grammar.Pool

namespace Analysis

variable {settings : Settings} {frontEnd : FrontEnd} {host : Host} {code : Code} {language : Language}
  {languageName : String} {name : Option String} {p : Path}

section Source

theorem requests_unit (rules : Rules) (root : Site) (name : Option String) :
    (unit rules root name).requests = [] :=
  Journal.requests_bind_eq_nil rfl fun _ => Journal.requests_bind_eq_nil rfl fun _ =>
    Journal.requests_bind_eq_nil rfl fun _ => rfl

theorem result_unit_ne_fault (rules : Rules) (root : Site) (name : Option String) (f : Fault) :
    (unit rules root name).result ≠ .error (.fault f) := by
  have built := Scope.ofSite_eq_ofNode (α := Float) rules root name
  rw [unit, Journal.result_bind_of_ok (congrArg (Except.mapError _) built)]
  cases described : (Scope.ofNode (α := Float) rules root name).metrics.describe with
  | error e =>
    rw [Journal.result_bind]
    rintro ⟨⟩
  | ok text =>
    rw [Journal.result_bind_of_ok rfl]
    rintro ⟨⟩

theorem source_of_unknown (unknown : Language.ofName? languageName = none) :
    source settings frontEnd code languageName name =
      ⟨.error (.fault (.unsupportedLanguage languageName Language.supported)), []⟩ := by
  rw [source, findLanguage, unknown]
  rfl

section Known

variable (known : Language.ofName? languageName = some language)

include known

theorem source_of_missing (missing : frontEnd.has language.grammar = false) :
    source settings frontEnd code languageName name =
      ⟨.error (.fault (.unsupportedLanguage languageName frontEnd.languages)),
        [.asked language.grammar code.toBytes]⟩ := by
  rw [source, findLanguage, known, Journal.ofExcept_ok_bind, FrontEnd.ask_of_missing _ missing]
  rfl

variable (installed : frontEnd.has language.grammar = true)

include installed

theorem result_source : (source settings frontEnd code languageName name).result =
    if (frontEnd.read language.grammar code.toBytes).hasErrors && (settings.value .strictParsing).isTrue then
      .error (.fault (.parsing (.text (orElse "<source>" name)) languageName "syntax tree contains errors"))
    else (unit language.rules (.root (frontEnd.read language.grammar code.toBytes).root) name).result := by
  rw [source, findLanguage, known, Journal.ofExcept_ok_bind, FrontEnd.ask_of_has _ installed,
    Journal.result_bind_of_ok rfl]
  dsimp only
  cases (frontEnd.read language.grammar code.toBytes).hasErrors <;>
    cases (settings.value .strictParsing).isTrue <;> rfl

theorem requests_source :
    (source settings frontEnd code languageName name).requests = [(language.grammar, code.toBytes)] := by
  have built := requests_unit language.rules (.root (frontEnd.read language.grammar code.toBytes).root) name
  rw [source, findLanguage, known, Journal.ofExcept_ok_bind, FrontEnd.ask_of_has _ installed,
    Journal.requests_bind_of_ok rfl]
  dsimp only
  cases (frontEnd.read language.grammar code.toBytes).hasErrors with
  | false =>
    rw [if_neg Bool.false_ne_true, built]
    rfl
  | true =>
    cases (settings.value .strictParsing).isTrue with
    | true => rfl
    | false =>
      rw [if_pos rfl, if_neg Bool.false_ne_true, Journal.requests_bind_of_ok rfl, built]
      rfl

end Known

end Source

def Rejects (settings : Settings) (reading : Reading) : Prop :=
  reading.hasErrors = true ∧ (settings.value .strictParsing).isTrue = true

/-- What comes of a source that was read: its tree, unless that has errors and parsing is strict. The tree is
described when it is built, and for that a double must hold the number of its scopes. -/
structure Analyzes (settings : Settings) (language : Language) (reading : Reading) (name : Option String)
    (result : Except Failure (Scope Float)) : Prop where
  parsing_iff : (∃ place written reason, result = .error (.fault (.parsing place written reason))) ↔
    Rejects settings reading
  rejected : Rejects settings reading → result =
    .error (.fault (.parsing (.text (orElse "<source>" name)) language.name "syntax tree contains errors"))
  built : ¬Rejects settings reading → result = (unit language.rules (.root reading.root) name).result
  scope : ¬Rejects settings reading → reading.root.places.length < Decimal.Binary64.wholeLimit →
    ∃ scope, Scope.ofSite language.rules (.root reading.root) name = .ok scope ∧ result = .ok scope

structure Answers (settings : Settings) (frontEnd : FrontEnd) (code : Code) (languageName : String)
    (name : Option String) (run : Journal Failure (Scope Float)) : Prop where
  unsupported_iff : (∃ written listed, run.result = .error (.fault (.unsupportedLanguage written listed))) ↔
    languageName ∉ frontEnd.languages
  unknown : languageName ∉ Language.supported →
    run.result = .error (.fault (.unsupportedLanguage languageName Language.supported)) ∧ run.requests = []
  missing : languageName ∈ Language.supported → languageName ∉ frontEnd.languages →
    run.result = .error (.fault (.unsupportedLanguage languageName frontEnd.languages))
  available : languageName ∈ frontEnd.languages → ∃ language, Language.ofName? languageName = some language ∧
    run.requests = [(language.grammar, code.toBytes)] ∧
    Analyzes settings language (frontEnd.read language.grammar code.toBytes) name run.result

structure FileAnswers (settings : Settings) (frontEnd : FrontEnd) (host : Host) (p : Path)
    (run : Journal Failure (Scope Float)) : Prop where
  access_iff : (∃ place reason, run.result = .error (.fault (.fileAccess place reason))) ↔
    ∃ obstacle, host.read p = .error obstacle
  unread : ∀ obstacle, host.read p = .error obstacle →
    run = ⟨.error (.fault (.fileAccess (.path p) (obstacle.message p.shown))), []⟩
  read : ∀ content, host.read p = .ok content →
    run = source settings frontEnd (.bytes content) (Language.nameFor p) (some p.shown)

theorem not_rejects_iff {reading : Reading} : ¬Rejects settings reading ↔
    (reading.hasErrors && (settings.value .strictParsing).isTrue) = false := by
  rw [Rejects, ← Bool.and_eq_true, Bool.not_eq_true]

theorem Analyzes.parsing_of_fault {reading : Reading} {result : Except Failure (Scope Float)} {f : Fault}
    (h : Analyzes settings language reading name result) (fails : result = .error (.fault f)) :
    ∃ place written reason, f = .parsing place written reason := by
  by_cases rejects : Rejects settings reading
  · cases (h.rejected rejects).symm.trans fails
    exact ⟨_, _, _, rfl⟩
  · exact (result_unit_ne_fault _ _ _ f ((h.built rejects).symm.trans fails)).elim

theorem analyzes_source (known : Language.ofName? languageName = some language)
    (installed : frontEnd.has language.grammar = true) :
    Analyzes settings language (frontEnd.read language.grammar code.toBytes) name
      (source settings frontEnd code languageName name).result := by
  obtain ⟨-, rfl⟩ := Language.ofName?_eq_some_iff.1 known
  have result : (source settings frontEnd code language.name name).result = _ := result_source known installed
  have rejected : Rejects settings (frontEnd.read language.grammar code.toBytes) →
      (source settings frontEnd code language.name name).result =
        .error (.fault (.parsing (.text (orElse "<source>" name)) language.name "syntax tree contains errors")) :=
    fun rejects => result.trans (if_pos (Bool.and_eq_true_iff.2 rejects))
  have built (accepts : ¬Rejects settings (frontEnd.read language.grammar code.toBytes)) :
      (source settings frontEnd code language.name name).result =
        (unit language.rules (.root (frontEnd.read language.grammar code.toBytes).root) name).result := by
    rw [result, not_rejects_iff.1 accepts]
    rfl
  refine ⟨?_, rejected, built, ?_⟩
  · constructor
    · rintro ⟨place, written, reason, fails⟩
      by_contra accepts
      exact result_unit_ne_fault _ _ _ _ ((built accepts).symm.trans fails)
    · exact fun rejects => ⟨_, _, _, rejected rejects⟩
  · intro accepts small
    refine ⟨_, Scope.ofSite_eq_ofNode _ _ _, (built accepts).trans (result_unit ?_)⟩
    exact Scope.hasMean_ofNode small _ (Scope.mem_walk_self _)

theorem answers_source (settings : Settings) (frontEnd : FrontEnd) (code : Code) (languageName : String)
    (name : Option String) :
    Answers settings frontEnd code languageName name (source settings frontEnd code languageName name) := by
  cases known : Language.ofName? languageName with
  | none =>
    have unsupported : languageName ∉ Language.supported := by
      rw [Language.mem_supported_iff]
      simp [known]
    have unavailable : languageName ∉ frontEnd.languages := by
      rw [FrontEnd.mem_languages_iff]
      simp [known]
    rw [source_of_unknown known]
    exact ⟨iff_of_true ⟨_, _, rfl⟩ unavailable, fun _ => ⟨rfl, rfl⟩,
      fun supported => (unsupported supported).elim, fun available => (unavailable available).elim⟩
  | some language =>
    have supported : languageName ∈ Language.supported := Language.mem_supported_iff.2 ⟨language, known⟩
    have available_iff : languageName ∈ frontEnd.languages ↔ frontEnd.has language.grammar = true := by
      rw [FrontEnd.mem_languages_iff]
      simp [known]
    cases installed : frontEnd.has language.grammar with
    | false =>
      have unavailable : languageName ∉ frontEnd.languages := by
        rw [available_iff, installed]
        exact Bool.false_ne_true
      rw [source_of_missing known installed]
      exact ⟨iff_of_true ⟨_, _, rfl⟩ unavailable, fun unknown => (unknown supported).elim, fun _ _ => rfl,
        fun available => (unavailable available).elim⟩
    | true =>
      have available := available_iff.2 installed
      have analyzes : Analyzes settings language _ name (source settings frontEnd code languageName name).result :=
        analyzes_source known installed
      refine ⟨iff_of_false ?_ (not_not.2 available), fun unknown => (unknown supported).elim,
        fun _ unavailable => (unavailable available).elim,
        fun _ => ⟨language, known, requests_source known installed, analyzes⟩⟩
      rintro ⟨written, listed, fails⟩
      obtain ⟨place, written', reason, other⟩ := analyzes.parsing_of_fault fails
      cases other

theorem Answers.ne_fileAccess {run : Journal Failure (Scope Float)}
    (h : Answers settings frontEnd code languageName name run) (place : Location) (reason : String) :
    run.result ≠ .error (.fault (.fileAccess place reason)) := by
  intro fails
  by_cases available : languageName ∈ frontEnd.languages
  · obtain ⟨language, -, -, analyzes⟩ := h.available available
    obtain ⟨place', written, reason', other⟩ := analyzes.parsing_of_fault fails
    cases other
  · obtain ⟨written, listed, unsupported⟩ := h.unsupported_iff.2 available
    cases unsupported.symm.trans fails

theorem file_of_null (null : p.hasNull = true) (named : Option String) :
    file settings frontEnd host p named = ⟨.error (.defect .nullCharacter), []⟩ := by
  rw [file, if_pos null]
  rfl

theorem fileAnswers_file (settings : Settings) (frontEnd : FrontEnd) (host : Host) (clean : p.hasNull = false) :
    FileAnswers settings frontEnd host p (file settings frontEnd host p none) := by
  rw [file, clean, if_neg Bool.false_ne_true]
  cases opened : host.read p with
  | error obstacle =>
    refine ⟨iff_of_true ⟨_, _, rfl⟩ ⟨obstacle, opened⟩, fun other unread => ?_, fun content read => ?_⟩
    · cases opened.symm.trans unread
      rfl
    · cases opened.symm.trans read
  | ok content =>
    have answers := answers_source settings frontEnd (.bytes content) (Language.nameFor p) (some p.shown)
    refine ⟨iff_of_false ?_ ?_, fun obstacle unread => ?_, fun other read => ?_⟩
    · rintro ⟨place, reason, fails⟩
      exact answers.ne_fileAccess place reason fails
    · rintro ⟨obstacle, unread⟩
      cases opened.symm.trans unread
    · cases opened.symm.trans unread
    · cases opened.symm.trans read
      rfl

/-- The languages that are listed are those a source can be analyzed in, and the parsers of a thread are those of the
listed languages' grammars. A file is analyzed as what is read in it, in the language its suffix tells. For a path with
a null character reading it raises an error of another kind than the analysis has. -/
theorem answers_source_and_file (settings : Settings) (frontEnd : FrontEnd) (host : Host) :
    (∀ code languageName name,
      Answers settings frontEnd code languageName name (source settings frontEnd code languageName name)) ∧
    (∀ text : String, source settings frontEnd (.text text) = source settings frontEnd (.bytes text.toUTF8)) ∧
    (∀ pool : Grammar.Pool, pool.grammars.keys = frontEnd.grammars →
      ∀ slot, (pool.request slot).1.isSome = frontEnd.has slot.grammar) ∧
    (∀ p : Path, p.hasNull = false →
      FileAnswers settings frontEnd host p (file settings frontEnd host p none)) ∧
    ∀ p : Path, p.hasNull = true →
      file settings frontEnd host p none = ⟨.error (.defect .nullCharacter), []⟩ := by
  refine ⟨answers_source settings frontEnd, fun _ => rfl, ?_, fun p clean => fileAnswers_file _ _ _ clean,
    fun p null => file_of_null null none⟩
  intro pool same slot
  rw [Bool.eq_iff_iff, Grammar.Pool.isSome_request_iff, same, FrontEnd.has, List.contains_iff_mem]

theorem answers_source_and_file_of_mixed :
    (source strictly wary (.text "(") "python" none).result =
      .error (.fault (.parsing (.text "<source>") "python" "syntax tree contains errors")) ∧
    (source strictly wary (.text "(") "javascript" none).result =
      .error (.fault (.unsupportedLanguage "javascript" ["python"])) ∧
    (source strictly wary (.text "(") "text" none).requests = [] ∧
    (∃ scope, (file strictly wary mixedHost ⟨.none, ["c.py"]⟩ none).result = .ok scope) ∧
    (∃ place reason, (file strictly wary mixedHost ⟨.none, ["d.txt"]⟩ none).result =
      .error (.fault (.fileAccess place reason))) := by
  obtain ⟨answers, -, -, answersFile, -⟩ := answers_source_and_file strictly wary mixedHost
  have languages : wary.languages = ["python"] := by cbv
  have python : Language.ofName? "python" = some .python := rfl
  have listed : "python" ∈ wary.languages := by simp [languages]
  refine ⟨?_, ?_, ?_, ?_, ?_⟩
  · obtain ⟨language, known, -, analyzes⟩ := (answers (.text "(") "python" none).available listed
    cases python.symm.trans known
    exact analyzes.rejected ⟨by decide, rfl⟩
  · have supported : "javascript" ∈ Language.supported := Language.mem_supported_iff.2 ⟨_, rfl⟩
    rw [← languages]
    exact (answers (.text "(") "javascript" none).missing supported (by simp [languages])
  · have unknown : "text" ∉ Language.supported := by
      rw [Language.mem_supported_iff, show Language.ofName? "text" = none from rfl]
      rintro ⟨_, ⟨⟩⟩
    exact ((answers (.text "(") "text" none).unknown unknown).2
  · have opened : mixedHost.read ⟨.none, ["c.py"]⟩ = .ok .empty := by cbv
    have read := (answersFile ⟨.none, ["c.py"]⟩ (Path.hasNull_of_parts (by decide))).read _ opened
    have told : Language.nameFor ⟨.none, ["c.py"]⟩ = "python" := by cbv
    rw [read, told]
    obtain ⟨language, known, -, analyzes⟩ := (answers (.bytes .empty) "python" _).available listed
    cases python.symm.trans known
    obtain ⟨scope, -, built⟩ := analyzes.scope (by simp [Rejects, wary, Code.toBytes])
      (Decimal.lt_twoTo (by decide))
    exact ⟨scope, built⟩
  · have unread : mixedHost.read ⟨.none, ["d.txt"]⟩ = .error .missing := by cbv
    exact (answersFile ⟨.none, ["d.txt"]⟩ (Path.hasNull_of_parts (by decide))).access_iff.2 ⟨_, unread⟩

theorem file_null :
    mixedHost.read ⟨.none, ["a\x00.py"]⟩ = .error .missing ∧
      (file strictly wary mixedHost ⟨.none, ["a\x00.py"]⟩ none).result = .error (.defect .nullCharacter) := by
  constructor
  · cbv
  · have null : Path.hasNull ⟨.none, ["a\x00.py"]⟩ = true := by
      rw [Path.hasNull, Path.shown_name]
      simp
    rw [file_of_null null]

end Analysis

end ScopeComplexity
