import ScopeComplexity.Analysis.Source
import ScopeComplexity.Proofs.Journal
import ScopeComplexity.Proofs.Path.Normal
import ScopeComplexity.Proofs.Scope.Means

namespace ScopeComplexity

open Syntax

theorem Path.Normal.shown_ne_empty {p : Path} (h : p.Normal) : p.shown ≠ "" := by
  intro empty
  have same := Path.ofText_shown h
  rw [empty] at same
  rw [← same] at empty
  exact absurd empty (by decide)

namespace Fault

theorem shown_of_details {f : Fault} {detail : String × String} {others : Keyed String}
    (h : f.details = detail :: others) : f.shown = f.message ++ " (" ++
      ", ".intercalate ((detail :: others).map fun (key, text) => key ++ "=" ++ text) ++ ")" := by
  rw [shown, h]
  rfl

theorem shown_fileAccess (place : Location) (reason : String) : (fileAccess place reason).shown =
    "Cannot access file: " ++ place.shown ++ " (filepath=" ++ place.shown ++ ", reason=" ++ reason ++ ")" := by
  have details : (fileAccess place reason).details = [("filepath", place.shown), ("reason", reason)] := rfl
  have message : (fileAccess place reason).message = "Cannot access file: " ++ place.shown := rfl
  rw [shown_of_details details, message, List.map_cons, List.map_cons, List.map_nil, String.intercalate_cons_cons,
    String.intercalate_singleton, ← String.toList_inj]
  simp

theorem shown_parsing (place : Location) (language reason : String) : (parsing place language reason).shown =
    "Failed to parse " ++ language ++ " file: " ++ place.shown ++ " (filepath=" ++ place.shown ++ ", language=" ++
      language ++ ", reason=" ++ reason ++ ")" := by
  have details : (parsing place language reason).details =
      [("filepath", place.shown), ("language", language), ("reason", reason)] := rfl
  have message : (parsing place language reason).message =
      "Failed to parse " ++ language ++ " file: " ++ place.shown := rfl
  rw [shown_of_details details, message, List.map_cons, List.map_cons, List.map_cons, List.map_nil,
    String.intercalate_cons_cons, String.intercalate_cons_cons, String.intercalate_singleton, ← String.toList_inj]
  simp

end Fault

namespace Language

theorem ofName?_name {language : Language} (h : language ∈ all) : ofName? language.name = some language := by
  revert language
  simp only [all, List.forall_mem_cons]
  exact ⟨rfl, rfl, rfl, rfl, rfl, rfl, rfl, rfl, rfl, rfl, rfl, List.forall_mem_nil _⟩

theorem ofName?_of_ofPath? {p : Path} {language : Language} (h : ofPath? p = some language) :
    ofName? language.name = some language := by
  rw [ofPath?, ofExtension?] at h
  exact ofName?_name (List.mem_of_find?_eq_some h)

end Language

namespace Analysis

theorem eq_ofNode_of_unit {rules : Rules} {root : Site} {name : Option String} {scope : Scope Float}
    (h : (unit rules root name).result = .ok scope) : scope = Scope.ofNode rules root name := by
  rw [unit, Scope.ofSite_eq_ofNode] at h
  obtain ⟨built, own, h⟩ := Journal.result_bind_eq_ok_iff.1 h
  cases own
  obtain ⟨text, -, h⟩ := Journal.result_bind_eq_ok_iff.1 h
  cases h
  rfl

theorem result_unit {rules : Rules} {root : Site} {name : Option String}
    (mean : (Scope.ofNode (α := Float) rules root name).metrics.HasMean) :
    (unit rules root name).result = .ok (Scope.ofNode rules root name) := by
  obtain ⟨average, mean⟩ := mean
  have described : ∃ text,
      (Scope.ofNode (α := Float) rules root name).metrics.describe = .ok text := by
    rw [Summary.describe, mean]
    exact ⟨_, rfl⟩
  obtain ⟨text, described⟩ := described
  have built := Scope.ofSite_eq_ofNode (α := Float) rules root name
  rw [unit, Journal.result_bind_of_ok (congrArg (Except.mapError _) built),
    Journal.result_bind_of_ok (congrArg (Except.mapError _) described)]
  rfl

variable {settings settings' : Settings}

theorem source_congr (same : settings'.value .strictParsing = settings.value .strictParsing)
    (frontEnd : FrontEnd) : source settings' frontEnd = source settings frontEnd := by
  funext code language name
  rw [source, source, same]

theorem file_congr (same : settings'.value .strictParsing = settings.value .strictParsing)
    (frontEnd : FrontEnd) (host : Host) :
    file settings' frontEnd host = file settings frontEnd host := by
  funext p named
  rw [file, file, source_congr same]

section File

variable {frontEnd : FrontEnd} {host : Host} {p : Path} {language : Language} {reading : Reading}

def reading? (frontEnd : FrontEnd) (host : Host) (p : Path) : Option (Language × Reading) :=
  match host.read p, Language.ofPath? p with
  | .ok content, some language =>
    if frontEnd.has language.grammar then some (language, frontEnd.read language.grammar content) else none
  | _, _ => none

def nodes (frontEnd : FrontEnd) (host : Host) (p : Path) : Nat :=
  match reading? frontEnd host p with
  | none => 0
  | some (_, reading) => reading.root.places.length

def broken (p : Path) (language : Language) : Fault :=
  .parsing (.text p.shown) language.name "syntax tree contains errors"

theorem shown_broken (p : Path) (language : Language) : (broken p language).shown =
    "Failed to parse " ++ language.name ++ " file: " ++ p.shown ++ " (filepath=" ++ p.shown ++ ", language=" ++
      language.name ++ ", reason=syntax tree contains errors)" := by
  have ending : ", reason=" ++ ("syntax tree contains errors" ++ ")") = ", reason=syntax tree contains errors)" := by
    decide
  rw [broken, Fault.shown_parsing, String.append_assoc, String.append_assoc, ending]
  rfl

theorem reading?_eq_some_iff : reading? frontEnd host p = some (language, reading) ↔
    ∃ content, host.read p = .ok content ∧ Language.ofPath? p = some language ∧
      frontEnd.has language.grammar = true ∧ frontEnd.read language.grammar content = reading := by
  rw [reading?]
  cases host.read p with
  | error o => simp
  | ok content =>
    cases Language.ofPath? p with
    | none => simp
    | some known =>
      simp only [Option.ite_none_right_eq_some, Option.some.injEq, Prod.mk.injEq, Except.ok.injEq,
        exists_eq_left']
      constructor
      · rintro ⟨installed, rfl, rfl⟩
        exact ⟨rfl, installed, rfl⟩
      · rintro ⟨rfl, installed, rfl⟩
        exact ⟨installed, rfl, rfl⟩

theorem languageFor_of_ofPath? (known : Language.ofPath? p = some language) :
    languageFor p none = language.name := by
  rw [languageFor, orElse, Language.nameFor, known]

theorem findLanguage_of_ofPath? (known : Language.ofPath? p = some language) :
    findLanguage language.name = .ok language := by
  rw [findLanguage, Language.ofName?_of_ofPath? known]

theorem nodes_of_reading (found : reading? frontEnd host p = some (language, reading)) :
    nodes frontEnd host p = reading.root.places.length := by
  rw [nodes, found]

theorem result_file_eq (clean : p.hasNull = false)
    (found : reading? frontEnd host p = some (language, reading)) :
    (file settings frontEnd host p none).result =
      if reading.hasErrors && (settings.value .strictParsing).isTrue then
        .error (.fault (.parsing (.text (orElse "<source>" (some p.shown))) language.name
          "syntax tree contains errors"))
      else (unit language.rules (.root reading.root) (some p.shown)).result := by
  obtain ⟨content, opened, known, installed, rfl⟩ := reading?_eq_some_iff.1 found
  have asked : (frontEnd.ask language.grammar content : Journal Failure _).result =
      .ok (some (frontEnd.read language.grammar content)) := by
    rw [FrontEnd.ask, installed]
    rfl
  rw [file, clean, opened, if_neg Bool.false_ne_true]
  dsimp only
  rw [languageFor_of_ofPath? known, source, Journal.result_bind_of_ok (findLanguage_of_ofPath? known),
    Code.toBytes, Journal.result_bind_of_ok asked]
  dsimp only
  cases (frontEnd.read language.grammar content).hasErrors <;>
    cases (settings.value .strictParsing).isTrue <;> rfl

theorem result_file_of_reading (clean : p.hasNull = false) (normal : p.Normal)
    (found : reading? frontEnd host p = some (language, reading)) :
    (file settings frontEnd host p none).result =
      if reading.hasErrors && (settings.value .strictParsing).isTrue then .error (.fault (broken p language))
      else (unit language.rules (.root reading.root) (some p.shown)).result := by
  have shown : orElse "<source>" (some p.shown) = p.shown := by
    rw [orElse, if_neg (by simpa using normal.shown_ne_empty)]
  rw [result_file_eq clean found, shown]
  rfl

theorem result_file_of_unread (clean : p.hasNull = false) (unread : reading? frontEnd host p = none) :
    ∃ f : Fault, f.family = .analysis ∧
      ∀ settings, (file settings frontEnd host p none).result = .error (.fault f) := by
  simp only [file, clean, if_neg Bool.false_ne_true]
  cases opened : host.read p with
  | error obstacle => exact ⟨_, rfl, fun _ => rfl⟩
  | ok content =>
    dsimp only
    cases known : Language.ofPath? p with
    | none =>
      refine ⟨.unsupportedLanguage Language.unknownName Language.supported, rfl, fun settings => ?_⟩
      rw [languageFor, orElse, Language.nameFor, known]
      rfl
    | some language =>
      have missing : frontEnd.has language.grammar = false := by
        rw [reading?, opened, known] at unread
        simpa using unread
      have asked : (frontEnd.ask language.grammar content : Journal Failure _).result = .ok none := by
        rw [FrontEnd.ask, missing]
        rfl
      refine ⟨.unsupportedLanguage language.name frontEnd.languages, rfl, fun settings => ?_⟩
      rw [languageFor_of_ofPath? known, source, Journal.result_bind_of_ok (findLanguage_of_ofPath? known),
        Code.toBytes, Journal.result_bind_of_ok asked]
      rfl

theorem exists_reading_of_file {scope : Scope Float} (h : (file settings frontEnd host p none).result = .ok scope) :
    ∃ language reading, reading? frontEnd host p = some (language, reading) ∧
      scope = Scope.ofNode language.rules (.root reading.root) (some p.shown) := by
  cases clean : p.hasNull with
  | true =>
    rw [file, clean] at h
    cases h
  | false =>
    cases found : reading? frontEnd host p with
    | none =>
      obtain ⟨f, -, fails⟩ := result_file_of_unread clean found
      cases h.symm.trans (fails settings)
    | some read =>
      rw [result_file_eq clean found] at h
      split at h
      · cases h
      · exact ⟨read.1, read.2, rfl, eq_ofNode_of_unit h⟩

end File

end Analysis

end ScopeComplexity
