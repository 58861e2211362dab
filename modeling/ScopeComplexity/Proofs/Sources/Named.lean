import ScopeComplexity.Proofs.Sources.Completion

namespace ScopeComplexity.Sources

variable {wants : Wants} {settings : Settings} {host : Host} {p : Path} {content : ByteArray} {given : List Path}

theorem candidates_of_entry (file : host.entry p = .ok (.file content)) : candidates settings host p = [p] := by
  obtain ⟨position, located, found⟩ := FileTree.entry_eq_ok_iff.1 file
  rw [candidates, Host.locate, located]
  simp only [found]

theorem mem_foundFrom_of_file (named : p ∈ given) (file : host.entry p = .ok (.file content)) :
    p ∈ foundFrom settings host given ↔ isAccepted settings host p = true := by
  rw [foundFrom, mem_inOrder, List.mem_flatMap]
  constructor
  · rintro ⟨start, -, member⟩
    exact (List.mem_filter.1 member).2
  · intro accepted
    refine ⟨p, named, List.mem_filter.2 ⟨?_, accepted⟩⟩
    rw [candidates_of_entry file]
    exact List.mem_cons_self

theorem length_foundFrom_le_of_files (legal : host.files.Legal) (normal : ∀ p ∈ given, p.Normal)
    (files : ∀ p ∈ given, ∃ content, host.entry p = .ok (.file content)) :
    (foundFrom settings host given).length ≤ given.length := by
  have sorted : (foundFrom settings host given).Pairwise fun p q => p.components < q.components :=
    pairwise_inOrder (List.forall_mem_flatMap.2 fun p member => found_normal legal (normal p member))
  have within : foundFrom settings host given ⊆ given := by
    intro q member
    rw [foundFrom, mem_inOrder, List.mem_flatMap] at member
    obtain ⟨p, named, found⟩ := member
    obtain ⟨content, file⟩ := files p named
    have candidate := (List.mem_filter.1 found).1
    rw [candidates_of_entry file, List.mem_singleton] at candidate
    exact candidate ▸ named
  exact (List.subperm_of_subset (nodup_of_sorted sorted) within).length_le

section Of

variable (of : wants.Of settings) (checked : settings.check = .ok ())

include of checked

variable (finite : ∀ x, (settings.value .maxFileSize).number? = some (.double x) →
    wants.megabytes * 2 ^ 20 < Decimal.overflow)
  (named : ∀ pattern ∈ wants.patterns, (Path.ofText pattern).components.isEmpty = false)

include finite named

section File

variable (there : host.exists? p = .ok true) (file : host.entry p = .ok (.file content))

include there file

theorem decides_accepts_of_file : (accepts settings host p).Decides (wants.Accepts host p) := by
  obtain ⟨limit, bytes⟩ := Settings.exists_byteLimit checked of.megabytes finite
  refine decides_accepts of checked bytes
    (fun pattern member => isSome_matches?_iff.2 (named pattern member)) fun _ => ?_
  refine ⟨.inr (Host.exists_isLink there), ?_, ?_⟩
  · rintro - ⟨entries, directory⟩
    cases file.symm.trans directory
  · intro target link
    cases file.symm.trans link

theorem find_eq_nil (rejected : ¬wants.Accepts host p) : (find settings host [p]).result = .ok [] := by
  have decides := decides_accepts_of_file of checked finite named there file
  have decided : Decided settings host p := by
    rw [Decided, candidates_of_entry file, List.forall_mem_singleton]
    exact decides.answered
  have nothing : found settings host p = [] := by
    rw [found, candidates_of_entry file, List.filter_eq_nil_iff, List.forall_mem_singleton]
    exact mt (isAccepted_iff decides).1 rejected
  rw [result_find of.most (most_nonneg of checked) (List.forall_mem_singleton.2 there)
    (List.forall_mem_singleton.2 decided), List.flatMap_singleton, nothing, inOrder_eq_self List.Pairwise.nil,
    List.take_nil]

end File

variable (wellFormed : host.files.WellFormed) (there : ∀ p ∈ given, host.exists? p = .ok true)
  (looks : wants.links = false → ∀ p ∈ given, ∀ q, wants.Reaches host p q → wants.Asks q →
    ∃ linked, host.isLink q = .ok linked)

include wellFormed there looks

/-- Whether a file that is named is found does not depend on hidden files being wanted, nor on the directories
above it. But patterns, links and sizes count for it as for all others. -/
theorem find_named_iff (enough : (foundFrom settings host given).length ≤ wants.most) :
    ∃ files, (find settings host given).result = .ok files ∧
      ∀ p ∈ given, ∀ content, host.entry p = .ok (.file content) →
        ∀ language, Language.ofPath? p = some language → wants.languages = none →
          (p ∈ files ↔ (∀ pattern ∈ wants.patterns, p.matches? pattern = some false) ∧
            (wants.links = true ∨ host.isLink p = .ok false) ∧
            (content.size : Rat) ≤ wants.megabytes * 2 ^ 20) := by
  obtain ⟨limit, bytes⟩ := Settings.exists_byteLimit checked of.megabytes finite
  have decided := decided_of_given of bytes named wellFormed there looks
  have all : (find settings host given).result = .ok (foundFrom settings host given) := by
    rw [result_find of.most (most_nonneg of checked) there decided, ← foundFrom, List.take_of_length_le (by omega)]
  refine ⟨_, all, fun p member content file language known free => ?_⟩
  rw [mem_foundFrom_of_file member file,
    isAccepted_iff (decides_accepts_of_file of checked finite named (there p member) file)]
  constructor
  · rintro ⟨⟨-, unmatched⟩, direct, other, same, small⟩
    cases file.symm.trans same
    exact ⟨unmatched, direct, small⟩
  · rintro ⟨unmatched, direct, small⟩
    exact ⟨⟨⟨language, known, by simp [free]⟩, unmatched⟩, direct, content, file, small⟩

end Of

section Scripts

theorem Wants.Reaches.isDirectory {start : Path} (h : wants.Reaches host start p) : host.IsDirectory start := by
  obtain ⟨d, name, below, ⟨t, entries, found, -⟩, -, -⟩ := h
  obtain rfl | ⟨c, ⟨inner, ⟨t', entries', found', -⟩, -⟩, -⟩ := Relation.ReflTransGen.cases_head_iff.1 below
  · exact ⟨entries, found⟩
  · exact ⟨entries', found'⟩

def threeScripts (content : ByteArray) : Host where
  files := .directory [(".x.py", .file .empty), ("x.min.js", .file .empty), ("y.py", .file content)]
  home := .ofText "/"
  work := .ofText "/"

def hiddenScript : Path := ⟨.none, [".x.py"]⟩

def minified : Path := ⟨.none, ["x.min.js"]⟩

def filled : Path := ⟨.none, ["y.py"]⟩

def namedScripts : List Path := [hiddenScript, minified, filled]

def bulk : ByteArray := ⟨Array.replicate 10485761 0⟩

section Three

variable (content : ByteArray)

structure ThreeAnswers : Prop where
  there : ∀ p ∈ namedScripts, (threeScripts content).exists? p = .ok true
  hidden : (threeScripts content).entry hiddenScript = .ok (.file .empty)
  minified : (threeScripts content).entry minified = .ok (.file .empty)
  filled : (threeScripts content).entry filled = .ok (.file content)
  direct : (threeScripts content).isLink hiddenScript = .ok false

theorem threeAnswers : ThreeAnswers content where
  there := by
    simp only [namedScripts, List.forall_mem_cons]
    exact ⟨by cbv, by cbv, by cbv, List.forall_mem_nil _⟩
  hidden := by cbv
  minified := by cbv
  filled := by cbv
  direct := by cbv

theorem isFile_threeScripts :
    ∀ p ∈ namedScripts, ∃ content', (threeScripts content).entry p = .ok (.file content') := by
  simp only [namedScripts, List.forall_mem_cons]
  exact ⟨⟨_, (threeAnswers content).hidden⟩, ⟨_, (threeAnswers content).minified⟩, ⟨_, (threeAnswers content).filled⟩,
    List.forall_mem_nil _⟩

theorem wellFormed_threeScripts : (threeScripts content).files.WellFormed := by
  apply FileTree.WellFormed.directory
  · simp only [List.forall_mem_cons]
    decide
  · change [".x.py", "x.min.js", "y.py"].Nodup
    decide
  · simp [FileTree.WellFormed.file]

end Three

theorem matches_named : minified.matches? "*.min.js" = some true ∧
    ∀ pattern ∈ standardWants.patterns, hiddenScript.matches? pattern = some false := by decide +kernel

theorem large_bulk : ¬(bulk.size : Rat) ≤ standardWants.megabytes * 2 ^ 20 := by
  have size : bulk.size = 10485761 := Array.size_replicate
  rw [size, standardWants]
  norm_num

theorem find_named_iff_of_threeScripts :
    ∃ files, (find Settings.standard (threeScripts bulk) namedScripts).result = .ok files ∧
      hiddenScript ∈ files ∧ minified ∉ files ∧ filled ∉ files := by
  have looks : ∀ p ∈ namedScripts, ∀ q, ¬standardWants.Reaches (threeScripts bulk) p q := by
    intro p member q reached
    obtain ⟨content, file⟩ := isFile_threeScripts bulk p member
    obtain ⟨entries, directory⟩ := reached.isDirectory
    cases file.symm.trans directory
  have normal : ∀ p ∈ namedScripts, p.Normal := by
    simp [namedScripts, hiddenScript, minified, filled, Path.Normal, Path.IsName, Path.isPart]
  have few : (foundFrom Settings.standard (threeScripts bulk) namedScripts).length ≤ 3 :=
    length_foundFrom_le_of_files (wellFormed_threeScripts bulk).legal normal (isFile_threeScripts bulk)
  have enough : ((foundFrom Settings.standard (threeScripts bulk) namedScripts).length : Int) ≤
      standardWants.most :=
    (Int.ofNat_le.2 few).trans (by decide)
  obtain ⟨files, run, kept⟩ := find_named_iff of_standard check_standard (fun _ _ => small_standard) named_standard
    (wellFormed_threeScripts bulk) (threeAnswers bulk).there
    (fun _ p member q reached => (looks p member q reached).elim) enough
  refine ⟨files, run, ?_, ?_, ?_⟩
  · rw [kept hiddenScript (by simp [namedScripts]) _ (threeAnswers bulk).hidden .python (by cbv) rfl]
    refine ⟨matches_named.2, .inr (threeAnswers bulk).direct, ?_⟩
    simp [standardWants]
  · rw [kept minified (by simp [namedScripts]) _ (threeAnswers bulk).minified .javascript (by cbv) rfl]
    rintro ⟨unmatched, -⟩
    cases (unmatched "*.min.js" List.mem_cons_self).symm.trans matches_named.1
  · rw [kept filled (by simp [namedScripts]) _ (threeAnswers bulk).filled .python (by cbv) rfl]
    rintro ⟨-, -, small⟩
    exact large_bulk small

/-- Two files that are named, in languages that are known, and not found. -/
theorem find_named_nothing :
    (threeScripts .empty).entry minified = .ok (.file .empty) ∧ Language.ofPath? minified = some .javascript ∧
    (find Settings.standard (threeScripts .empty) [minified]).result = .ok [] ∧
    (threeScripts bulk).entry filled = .ok (.file bulk) ∧ Language.ofPath? filled = some .python ∧
    (find Settings.standard (threeScripts bulk) [filled]).result = .ok [] := by
  refine ⟨(threeAnswers _).minified, by cbv, ?_, (threeAnswers _).filled, by cbv, ?_⟩
  · apply find_eq_nil of_standard check_standard (fun _ _ => small_standard) named_standard
      ((threeAnswers _).there _ (by simp [namedScripts])) (threeAnswers _).minified
    intro accepts
    cases (accepts.unmatched "*.min.js" List.mem_cons_self).symm.trans matches_named.1
  · apply find_eq_nil of_standard check_standard (fun _ _ => small_standard) named_standard
      ((threeAnswers _).there _ (by simp [namedScripts])) (threeAnswers _).filled
    rintro ⟨-, -, content, entry, small⟩
    cases (threeAnswers bulk).filled.symm.trans entry
    exact large_bulk small

end Scripts

end ScopeComplexity.Sources
