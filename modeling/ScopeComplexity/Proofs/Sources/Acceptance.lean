import ScopeComplexity.Proofs.FileTree.Walking
import ScopeComplexity.Proofs.Journal
import ScopeComplexity.Proofs.Settings.Check
import ScopeComplexity.Sources

namespace ScopeComplexity.Sources

structure Wants where
  patterns : List String
  languages : Option (List String)
  hidden : Bool
  links : Bool
  megabytes : Rat
  most : Int

namespace Wants

/-- What settings ask of files, when each value has the type that it is meant to have. -/
structure Of (wants : Wants) (settings : Settings) : Prop where
  patterns : settings.value .excludePatterns = .list (wants.patterns.map .text)
  languages : settings.value .languages = wants.languages.elim .null fun names => .list (names.map .text)
  hidden : settings.value .allowHiddenFiles = .flag wants.hidden
  links : settings.value .followLinks = .flag wants.links
  megabytes : (settings.value .maxFileSize).StandsFor wants.megabytes
  most : (settings.value .maxFiles).number? = some (.whole wants.most)

structure Asks (wants : Wants) (p : Path) : Prop where
  language : ∃ language, Language.ofPath? p = some language ∧
    ∀ names, wants.languages = some names → language.name ∈ names
  unmatched : ∀ pattern ∈ wants.patterns, p.matches? pattern = some false

structure Accepts (wants : Wants) (host : Host) (p : Path) : Prop extends wants.Asks p where
  direct : wants.links = true ∨ host.isLink p = .ok false
  sized : ∃ content, host.entry p = .ok (.file content) ∧ (content.size : Rat) ≤ wants.megabytes * 2 ^ 20

/-- It can be told whether a file is an unwanted link, and if it is none, that it is no directory. -/
structure Tells (wants : Wants) (host : Host) (p : Path) : Prop where
  answer : wants.links = true ∨ ∃ linked, host.isLink p = .ok linked
  file : wants.links = true ∨ host.isLink p = .ok false → ¬host.IsDirectory p
  followed : ∀ target, host.entry p ≠ .ok (.link target)

end Wants

variable {wants : Wants} {settings : Settings} {host : Host} {p : Path}

theorem holds_texts (names : List String) (name : String) :
    (Value.list (names.map .text)).holds name = .ok (decide (name ∈ names)) := by
  rw [Value.holds, List.any_map]
  congr 1
  rw [Bool.eq_iff_iff, List.any_eq_true, decide_eq_true_iff]
  simp [Value.isText]

theorem isSome_matches?_iff {pattern : String} :
    (p.matches? pattern).isSome = true ↔ (Path.ofText pattern).components.isEmpty = false := by
  rw [Path.matches?]
  cases (Path.ofText pattern).components.isEmpty with
  | true => simp
  | false =>
    simp only [Bool.false_eq_true, if_false]
    split <;> simp

theorem matchesAny_texts {patterns : List String}
    (sound : ∀ pattern ∈ patterns, (p.matches? pattern).isSome = true) :
    matchesAny p (patterns.map .text) =
      .ok (decide (∃ pattern ∈ patterns, p.matches? pattern = some true)) := by
  induction patterns with
  | nil => simp [matchesAny]
  | cons pattern patterns ih =>
    obtain ⟨own, others⟩ := List.forall_mem_cons.1 sound
    obtain ⟨matched, found⟩ := Option.isSome_iff_exists.1 own
    rw [List.map_cons, matchesAny, matchesPattern, found, ih others]
    cases matched <;> simp [found, bind, Except.bind, pure, Except.pure]

section Of

variable (of : wants.Of settings)

include of

theorem isWanted_eq (name : String) :
    isWanted settings name = .ok (decide (∀ names, wants.languages = some names → name ∈ names)) := by
  rw [isWanted, of.languages]
  cases wants.languages with
  | none => simp
  | some names =>
    simp only [Option.elim_some]
    rw [holds_texts]
    simp [Settings.sound, Except.mapError]

theorem isExcluded_eq (sound : ∀ pattern ∈ wants.patterns, (p.matches? pattern).isSome = true) :
    isExcluded settings p = .ok (decide (∃ pattern ∈ wants.patterns, p.matches? pattern = some true)) := by
  rw [isExcluded, of.patterns]
  change (matchesAny p (wants.patterns.map .text)).mapError _ = _
  rw [matchesAny_texts sound]
  rfl

theorem decides_isUnwantedLink (answer : wants.links = true ∨ ∃ linked, host.isLink p = .ok linked) :
    (isUnwantedLink settings host p).Decides ¬(wants.links = true ∨ host.isLink p = .ok false) := by
  rw [isUnwantedLink, of.links]
  cases links : wants.links with
  | true => exact ⟨false, rfl, by simp⟩
  | false =>
    obtain ⟨linked, found⟩ := answer.resolve_left (by simp [links])
    rw [found]
    exact ⟨linked, rfl, by simp⟩

theorem decides_hasAllowedSize (checked : settings.check = .ok ()) {limit : Int}
    (bytes : settings.byteLimit = .ok limit) (file : ¬host.IsDirectory p)
    (direct : ∀ target, host.entry p ≠ .ok (.link target)) :
    (hasAllowedSize settings host p).Decides
      (∃ content, host.entry p = .ok (.file content) ∧
        (content.size : Rat) ≤ wants.megabytes * 2 ^ 20) := by
  rw [hasAllowedSize]
  cases found : host.entry p with
  | error o => exact ⟨false, rfl, by simp⟩
  | ok t =>
    cases t with
    | directory entries => exact (file ⟨entries, found⟩).elim
    | link target => exact (direct target found).elim
    | file content =>
      have small := Settings.le_byteLimit_iff checked bytes of.megabytes content.size
      simp only [bytes]
      by_cases within : (content.size : Int) ≤ limit
      · refine ⟨true, ?_, ?_⟩
        · rw [Journal.result_bind_of_ok rfl, if_neg (Int.not_lt.2 within)]
          rfl
        · simpa using small.1 within
      · refine ⟨false, ?_, ?_⟩
        · rw [Journal.result_bind_of_ok rfl, if_pos (Int.not_le.1 within)]
          rfl
        · simpa using not_le.1 (mt small.2 within)

omit of in
theorem asks_iff {language : Language} (known : Language.ofPath? p = some language)
    (sound : ∀ pattern ∈ wants.patterns, (p.matches? pattern).isSome = true) :
    wants.Asks p ↔ (∀ names, wants.languages = some names → language.name ∈ names) ∧
      ¬∃ pattern ∈ wants.patterns, p.matches? pattern = some true := by
  constructor
  · rintro ⟨⟨language', found, named⟩, unmatched⟩
    cases known.symm.trans found
    refine ⟨named, ?_⟩
    rintro ⟨pattern, member, matched⟩
    cases (unmatched pattern member).symm.trans matched
  · rintro ⟨named, unmatched⟩
    refine ⟨⟨language, known, named⟩, fun pattern member => ?_⟩
    obtain ⟨matched, found⟩ := Option.isSome_iff_exists.1 (sound pattern member)
    cases matched with
    | true => exact (unmatched ⟨pattern, member, found⟩).elim
    | false => exact found

theorem decides_accepts (checked : settings.check = .ok ()) {limit : Int}
    (bytes : settings.byteLimit = .ok limit)
    (sound : ∀ pattern ∈ wants.patterns, (p.matches? pattern).isSome = true)
    (tells : wants.Asks p → wants.Tells host p) :
    (accepts settings host p).Decides (wants.Accepts host p) := by
  rw [accepts]
  cases known : Language.ofPath? p with
  | none =>
    refine ⟨false, rfl, ?_⟩
    constructor
    · intro h
      cases h
    · rintro ⟨⟨⟨language, found, -⟩, -⟩, -⟩
      cases known.symm.trans found
  | some language =>
    have asks := asks_iff known sound
    have wanted := Journal.decides_of_result (x := .ofExcept (isWanted settings language.name))
      (isWanted_eq of language.name)
    have excluded := Journal.decides_of_result (x := .ofExcept (isExcluded settings p))
      (isExcluded_eq of sound)
    rw [decide_eq_true_iff] at wanted excluded
    refine Journal.Decides.congr (wanted.and rfl fun named => excluded.unless rfl fun unmatched =>
      have told := tells (asks.2 ⟨named, unmatched⟩)
      (decides_isUnwantedLink of told.answer).unless rfl fun direct =>
        decides_hasAllowedSize of checked bytes (told.file (not_not.1 direct)) told.followed) ?_
    rw [not_not, ← and_assoc, ← asks]
    constructor
    · rintro ⟨asked, direct, sized⟩
      exact ⟨asked, direct, sized⟩
    · rintro ⟨asked, direct, sized⟩
      exact ⟨asked, direct, sized⟩

theorem result_accepts_of_long
    (sound : ∀ pattern ∈ wants.patterns, (p.matches? pattern).isSome = true) (asked : wants.Asks p)
    (direct : wants.links = false) (long : FileTree.pathLimit ≤ p.size) :
    (accepts settings host p).result = .error (.defect (.unopened .nameTooLong p.shown)) := by
  obtain ⟨language, known, -⟩ := asked.language
  obtain ⟨named, unmatched⟩ := (asks_iff known sound).1 asked
  have wanted : isWanted settings language.name = .ok true := by
    rw [isWanted_eq of, decide_eq_true named]
  have excluded : isExcluded settings p = .ok false := by
    rw [isExcluded_eq of sound, decide_eq_false unmatched]
  have linked : host.isLink p = .error .nameTooLong := by
    rw [Host.isLink, FileTree.entry, FileTree.locate, if_pos long]
    rfl
  rw [accepts, known]
  simp only [wanted, excluded, isUnwantedLink, of.links, direct, linked]
  rfl

end Of

end ScopeComplexity.Sources
