import Mathlib.Data.List.Nodup
import Mathlib.Data.List.Pairwise
import ScopeComplexity.Proofs.Keyed
import ScopeComplexity.Proofs.Path.Suffix
import ScopeComplexity.Proofs.Text.LowerCase
import ScopeComplexity.Rules.Detection

namespace ScopeComplexity.Language

def byExtension : Keyed String :=
  Keyed.update [] (all.flatMap fun language => language.extensions.map (·, language.name))

theorem lookup_map_pair {β : Type} (keys : List String) (value : β) (key : String) :
    (keys.map (·, value)).lookup key = if keys.contains key then some value else none := by
  induction keys with
  | nil => rfl
  | cons first keys ih =>
    rw [List.map_cons, List.lookup_cons, ih, List.contains_cons]
    cases key == first <;> rfl

theorem lookup_flatMap_extensions (languages : List Language) (extension : String) :
    (languages.flatMap fun language => language.extensions.map (·, language.name)).lookup extension
      = (languages.find? (·.extensions.contains extension)).map (·.name) := by
  induction languages with
  | nil => rfl
  | cons language languages ih =>
    rw [List.flatMap_cons, List.lookup_append, ih, lookup_map_pair, List.find?_cons]
    cases language.extensions.contains extension <;> rfl

theorem get?_byExtension (extension : String) :
    byExtension.get? extension = (ofExtension? extension).map (·.name) := by
  have keys : Keyed.keys (all.flatMap fun language => language.extensions.map (·, language.name))
      = all.flatMap (·.extensions) := by
    simp [Keyed.keys, List.map_flatMap, Function.comp_def]
  have distinct : (Keyed.keys (all.flatMap fun language => language.extensions.map (·, language.name))).Nodup :=
    keys ▸ extensions_nodup
  rw [byExtension, Keyed.get?_update [] distinct, Keyed.get?, lookup_flatMap_extensions]
  exact Option.or_none

theorem eq_of_mem_extensions {l l' : Language} (hl : l ∈ all) (hl' : l' ∈ all) {extension : String}
    (mem : extension ∈ l.extensions) (mem' : extension ∈ l'.extensions) : l = l' := by
  by_contra other
  have symmetric : Std.Symm (Function.onFun List.Disjoint (·.extensions : Language → List String)) :=
    ⟨fun _ _ apart _ mem mem' => apart mem' mem⟩
  exact (List.nodup_flatMap.1 extensions_nodup).2.forall hl hl' other mem mem'

theorem ofExtension?_eq_some_iff {extension : String} {language : Language} :
    ofExtension? extension = some language ↔ language ∈ all ∧ extension ∈ language.extensions := by
  rw [ofExtension?]
  constructor
  · intro found
    exact ⟨List.mem_of_find?_eq_some found, by simpa using List.find?_some found⟩
  · rintro ⟨member, known⟩
    cases found : all.find? (·.extensions.contains extension) with
    | none => exact absurd (List.contains_iff_mem.2 known) (List.find?_eq_none.1 found language member)
    | some other =>
      have known' : extension ∈ other.extensions := by simpa using List.find?_some found
      rw [eq_of_mem_extensions (List.mem_of_find?_eq_some found) member known' known]

/-- A dot with characters of ASCII behind it, none of which is a dot, a slash, or the letter that the Kelvin sign
becomes. -/
def isExtension : List Char → Bool
  | [] => false
  | first :: letters =>
    first == '.' && !letters.isEmpty && letters.all fun c => Text.isAscii c && !(['.', '/', 'k'].contains c)

theorem isExtension_iff {extension : List Char} : isExtension extension = true ↔ ∃ letters,
    extension = '.' :: letters ∧ letters ≠ [] ∧ ∀ c ∈ letters, Text.isAscii c ∧ c ∉ ['.', '/', 'k'] := by
  cases extension with
  | nil => simp [isExtension]
  | cons first letters => simp [isExtension, and_assoc]

theorem isExtension_of_mem {language : Language} (member : language ∈ all) {extension : String}
    (known : extension ∈ language.extensions) : isExtension extension.toList = true := by
  have each : (all.flatMap (·.extensions)).all (isExtension ·.toList) = true := by decide
  exact List.all_eq_true.1 each extension (List.mem_flatMap.2 ⟨language, member, known⟩)

theorem plain_of_mem {language : Language} (member : language ∈ all) {extension : String}
    (known : extension ∈ language.extensions) : ∀ c ∈ extension.toList, Text.isAscii c ∧ c ≠ 'k' := by
  obtain ⟨letters, dotted, -, each⟩ := isExtension_iff.1 (isExtension_of_mem member known)
  rw [dotted, List.forall_mem_cons]
  exact ⟨by decide, fun c mem => ⟨(each c mem).1, fun same => (each c mem).2 (by simp [same])⟩⟩

variable {isFinal : List Char → List Char → Bool}

theorem lower_mem_extensions_iff {language : Language} (member : language ∈ all) {text : String} :
    Text.lower isFinal text ∈ language.extensions ↔ text.map Char.toLower ∈ language.extensions := by
  constructor
  · intro known
    rwa [(Text.lower_eq_iff (plain_of_mem member known)).1 rfl]
  · intro known
    rwa [(Text.lower_eq_iff (plain_of_mem member known)).2 rfl]

theorem ne_empty_of_lower_mem {language : Language} (member : language ∈ all) {text : String}
    (known : Text.lower isFinal text ∈ language.extensions) : text ≠ "" := by
  rintro rfl
  have empty : isExtension [] = true := isExtension_of_mem member known
  cases empty

theorem ofPath?_eq_some_iff (isFinal : List Char → List Char → Bool) {p : Path} {language : Language} :
    ofPath? p = some language ↔ language ∈ all ∧ Text.lower isFinal p.suffix ∈ language.extensions := by
  rw [ofPath?, ofExtension?_eq_some_iff]
  exact and_congr_right fun member => (lower_mem_extensions_iff member).symm

theorem name_injOn : ∀ l ∈ all, ∀ l' ∈ all, l.name = l'.name → l = l' := by
  have distinct : (all.map (·.name)).Nodup := by decide
  exact fun l hl l' hl' same => List.inj_on_of_nodup_map distinct hl hl' same

theorem name_ne_unknownName : ∀ language ∈ all, language.name ≠ unknownName := by
  simp only [all, List.forall_mem_cons]
  decide

theorem nameFor_eq_name_iff {p : Path} {language : Language} (member : language ∈ all) :
    nameFor p = language.name ↔ ofPath? p = some language := by
  rw [nameFor]
  split
  · rename_i found told
    have other : found ∈ all := (ofExtension?_eq_some_iff.1 told).1
    constructor
    · intro same
      rw [told, name_injOn found other language member same]
    · intro same
      cases told.symm.trans same
      rfl
  · rename_i none
    refine iff_of_false (name_ne_unknownName language member).symm ?_
    rw [none]
    rintro ⟨⟩

theorem nameFor_congr {p q : Path} (same : p.parts.getLast? = q.parts.getLast?) : nameFor p = nameFor q := by
  rw [nameFor, nameFor, ofPath?, ofPath?, Path.suffix, Path.suffix, Path.name, Path.name, same]

theorem exists_of_map_toLower {written : String} (h : isExtension (written.map Char.toLower).toList = true) :
    ∃ letters, written.toList = '.' :: letters ∧ letters ≠ [] ∧ '.' ∉ letters ∧ '/' ∉ letters := by
  obtain ⟨lower, dotted, more, each⟩ := isExtension_iff.1 h
  rw [String.toList_map, List.map_eq_cons_iff] at dotted
  obtain ⟨c, letters, split, first, rfl⟩ := dotted
  rw [Text.toLower_eq_dot_iff] at first
  refine ⟨letters, first ▸ split, ?_, fun mem => ?_, fun mem => ?_⟩
  · rintro rfl
    exact more rfl
  · exact (each '.' (List.mem_map_of_mem (f := Char.toLower) mem)).2 (by decide)
  · exact (each '/' (List.mem_map_of_mem (f := Char.toLower) mem)).2 (by decide)

theorem nameFor_of_spelled {stem written : String} (some : stem ≠ "") (clean : '/' ∉ stem.toList)
    {language : Language} (member : language ∈ all) (known : written.map Char.toLower ∈ language.extensions) :
    nameFor (.ofText (stem ++ written)) = language.name := by
  obtain ⟨letters, dotted, more, last, slash⟩ := exists_of_map_toLower (isExtension_of_mem member known)
  have some : stem.toList ≠ [] := by simpa using some
  have kept : Path.isPart (stem ++ written).toList = true := by
    obtain ⟨c, rest, split⟩ := List.exists_cons_of_ne_nil some
    simp [Path.isPart, split, dotted]
  have parts : (Path.ofText (stem ++ written)).parts = [stem ++ written] :=
    Path.parts_of_clean kept (by simp [clean, dotted, slash])
  have suffix : (Path.ofText (stem ++ written)).suffix = written := by
    have ends : Path.EndsIn (stem ++ written) written :=
      ⟨stem.toList, letters, String.toList_append, dotted, some, more, last⟩
    exact (Path.suffix_eq_iff ends.ne_empty).2 ⟨_, by rw [parts, List.getLast?_singleton], ends⟩
  rw [nameFor_eq_name_iff member, ofPath?, suffix, ofExtension?_eq_some_iff]
  exact ⟨member, known⟩

/-- How paths get their languages, whichever capital sigmas count as final ones. -/
structure DetectedByExtension (isFinal : List Char → List Char → Bool) : Prop where
  lookup : ∀ p, nameFor p = (byExtension.get? (Text.lower isFinal p.suffix)).getD unknownName
  known_iff : ∀ text, ∀ language ∈ all, nameFor (.ofText text) = language.name ↔
    ∃ name suffix, (Path.ofText text).parts.getLast? = some name ∧ Path.EndsIn name suffix ∧
      Text.lower isFinal suffix ∈ language.extensions
  unknown_iff : ∀ text, nameFor (.ofText text) = unknownName ↔
    ∀ language ∈ all, nameFor (.ofText text) ≠ language.name
  unique : ∀ language ∈ all, ∀ other ∈ all, ∀ extension ∈ language.extensions,
    extension ∈ other.extensions → language = other
  directories : ∀ directories text, (Path.ofText text).parts ≠ [] →
    nameFor (.ofText (directories ++ "/" ++ text)) = nameFor (.ofText text)
  trailing : ∀ text rest, (Path.ofText rest).parts = [] →
    nameFor (.ofText (text ++ "/" ++ rest)) = nameFor (.ofText text)
  shown : ∀ text, nameFor (.ofText (Path.ofText text).shown) = nameFor (.ofText text)
  spelled : ∀ stem written : String, stem ≠ "" → '/' ∉ stem.toList → ∀ language ∈ all,
    written.map Char.toLower ∈ language.extensions → nameFor (.ofText (stem ++ written)) = language.name

/-- A path is of a language if its last part ends in one of the language's extensions, in whatever case that is written. -/
theorem detects_extensions (isFinal : List Char → List Char → Bool) : DetectedByExtension isFinal where
  lookup p := by
    have same : ofExtension? (Text.lower isFinal p.suffix) = ofPath? p := by
      ext language
      rw [ofExtension?_eq_some_iff, ofPath?_eq_some_iff isFinal]
    rw [get?_byExtension, same, nameFor]
    cases ofPath? p <;> rfl
  known_iff text language member := by
    rw [nameFor_eq_name_iff member, ofPath?_eq_some_iff isFinal]
    constructor
    · rintro ⟨-, known⟩
      obtain ⟨name, last, ends⟩ := (Path.suffix_eq_iff (ne_empty_of_lower_mem member known)).1 rfl
      exact ⟨name, _, last, ends, known⟩
    · rintro ⟨name, suffix, last, ends, known⟩
      rw [(Path.suffix_eq_iff ends.ne_empty).2 ⟨name, last, ends⟩]
      exact ⟨member, known⟩
  unknown_iff text := by
    constructor
    · intro unknown language member
      rw [unknown]
      exact (name_ne_unknownName language member).symm
    · intro other
      rw [nameFor]
      split
      · rename_i language told
        have member : language ∈ all := (ofExtension?_eq_some_iff.1 told).1
        exact absurd ((nameFor_eq_name_iff member).2 told) (other language member)
      · rfl
  unique language member other member' extension known known' := eq_of_mem_extensions member member' known known'
  directories directories text some := by
    apply nameFor_congr
    rw [Path.parts_join, List.getLast?_append_of_ne_nil _ some]
  trailing text rest none := by
    apply nameFor_congr
    rw [Path.parts_join, none, List.append_nil]
  shown text := by rw [Path.ofText_shown (Path.normal_ofText text)]
  spelled stem written some clean language member known := nameFor_of_spelled some clean member known

theorem detects_extensions_of_spelled :
    nameFor (.ofText ("src/.." ++ "/" ++ ("My.File" ++ ".PyW"))) = "python" ∧
      nameFor (.ofText ("src/.." ++ "/" ++ ("My.File" ++ ".PyW") ++ "/" ++ "/./")) = "python" := by
  have detected := detects_extensions fun _ _ => false
  have small : String.map Char.toLower ".PyW" = ".pyw" := by
    rw [← String.toList_inj, String.toList_map]
    decide
  have spelled : String.map Char.toLower ".PyW" ∈ python.extensions := by
    rw [small]
    decide
  have parts : (Path.ofText ("My.File" ++ ".PyW")).parts ≠ [] := by decide
  have none : (Path.ofText "/./").parts = [] := by decide
  have name : nameFor (.ofText ("My.File" ++ ".PyW")) = "python" :=
    detected.spelled "My.File" ".PyW" (by decide) (by decide) python List.mem_cons_self spelled
  have moved := (detected.directories "src/.." ("My.File" ++ ".PyW") parts).trans name
  exact ⟨moved, (detected.trailing _ "/./" none).trans moved⟩

end ScopeComplexity.Language
