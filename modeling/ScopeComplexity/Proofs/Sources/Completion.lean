import ScopeComplexity.Proofs.Sources.Admissible

namespace ScopeComplexity

theorem FileTree.exists_follow_direct {root : FileTree} {links : Nat} {here names : List String} {p : Position}
    (h : follow root true links here names = .ok p) :
    ∃ q, follow root false links here names = .ok q := by
  fun_induction follow root true links here names with
  | case1 =>
    rw [follow]
    exact ⟨_, rfl⟩
  | case2 links here name rest entries directory still ih =>
    rw [follow]
    simp only [directory, still, if_true]
    exact ih h
  | case3 links here name rest entries directory moves up ih =>
    rw [follow]
    simp only [directory, moves, up, if_true]
    exact ih h
  | case4 => cases h
  | case5 => cases h
  | case6 links here name rest entries directory moves notUp short target found last =>
    simp at last
  | case7 => cases h
  | case8 here name rest entries directory moves notUp short target found inside links ih =>
    rw [follow]
    simp only [directory, moves, notUp, if_neg short, found, Bool.not_false, Bool.and_true]
    cases rest with
    | nil => exact ⟨_, rfl⟩
    | cons next rest => exact ih h
  | case9 links here name rest entries directory moves notUp short t direct found ih =>
    rw [follow]
    simp only [directory, moves, notUp, if_neg short, found]
    cases t with
    | link target => exact (direct target rfl).elim
    | file content => exact ih h
    | directory inner => exact ih h
  | case10 => cases h

theorem Host.exists_isLink {host : Host} {p : Path} (there : host.exists? p = .ok true) :
    ∃ linked, host.isLink p = .ok linked := by
  have entry : ∃ t, host.entry p = .ok t := by
    rw [Host.exists?] at there
    split at there
    · cases there
    · cases entry : host.entry p with
      | ok t => exact ⟨t, rfl⟩
      | error o =>
        rw [entry] at there
        cases absent : o.isAbsence <;> simp [absent] at there
  obtain ⟨t, entry⟩ := entry
  obtain ⟨position, located, -⟩ := FileTree.entry_eq_ok_iff.1 entry
  have short := FileTree.size_lt_of_locate located
  rw [FileTree.locate, if_neg (Nat.not_le.2 short)] at located
  obtain ⟨position', direct⟩ := FileTree.exists_follow_direct located
  rw [isLink, FileTree.entry, FileTree.locate, if_neg (Nat.not_le.2 short), direct]
  simp only [bind, Except.bind]
  cases host.files.descend position'.names with
  | none => exact ⟨false, rfl⟩
  | some t' => exact ⟨t'.isLink, rfl⟩

namespace Sources

variable {wants : Wants} {settings : Settings} {host : Host} {p q : Path} {given : List Path}

theorem exists_hasAllowedSize {limit : Int} (bytes : settings.byteLimit = .ok limit) :
    ∃ allowed, (hasAllowedSize settings host p).result = .ok allowed := by
  rw [hasAllowedSize]
  cases host.entry p with
  | error o => exact ⟨false, rfl⟩
  | ok t =>
    cases t with
    | directory entries => exact ⟨true, rfl⟩
    | link target => exact ⟨true, rfl⟩
    | file content =>
      simp only [bytes]
      rw [Journal.result_bind_of_ok rfl]
      split
      · exact ⟨false, rfl⟩
      · exact ⟨true, rfl⟩

section Of

variable (of : wants.Of settings)

include of

theorem exists_accepts {limit : Int} (bytes : settings.byteLimit = .ok limit)
    (sound : ∀ pattern ∈ wants.patterns, (p.matches? pattern).isSome = true)
    (answer : wants.Asks p → wants.links = true ∨ ∃ linked, host.isLink p = .ok linked) :
    ∃ accepted, (accepts settings host p).result = .ok accepted := by
  rw [accepts]
  cases known : Language.ofPath? p with
  | none => exact ⟨false, rfl⟩
  | some language =>
    have asks := asks_iff known sound
    have wanted := Journal.decides_of_result (x := .ofExcept (isWanted settings language.name))
      (isWanted_eq of language.name)
    have excluded := Journal.decides_of_result (x := .ofExcept (isExcluded settings p))
      (isExcluded_eq of sound)
    obtain ⟨allowed, size⟩ : ∃ allowed, (hasAllowedSize settings host p).result = .ok allowed :=
      exists_hasAllowedSize bytes
    rw [decide_eq_true_iff] at wanted excluded
    exact Journal.Decides.answered (wanted.and rfl fun named => excluded.unless rfl fun unmatched =>
      (decides_isUnwantedLink of (answer (asks.2 ⟨named, unmatched⟩))).unless rfl fun _ =>
        Journal.decides_of_result size)

theorem exists_isLink_of_mem_candidates (wellFormed : host.files.WellFormed) (there : host.exists? p = .ok true)
    (member : q ∈ candidates settings host p)
    (looks : wants.Reaches host p q → ∃ linked, host.isLink q = .ok linked) :
    ∃ linked, host.isLink q = .ok linked := by
  by_cases directory : host.IsDirectory p
  · exact looks (reaches_of_mem_candidates of wellFormed directory member)
  · rw [candidates] at member
    split at member
    · cases member
    · rename_i position located
      split at member
      · rename_i entries found
        exact (directory ⟨entries, Host.entry_eq_directory_iff.2 ⟨position, located, found⟩⟩).elim
      · rw [List.mem_singleton] at member
        exact member ▸ Host.exists_isLink there

theorem most_nonneg (checked : settings.check = .ok ()) : 0 ≤ wants.most := by
  have enough := (Settings.check_eq_ok_iff.1 checked).2.2.1
  rw [Value.less, Value.compare, of.most] at enough
  simp only [Except.ok.injEq, decide_eq_false_iff_not, not_lt] at enough
  omega

theorem decided_of_given {limit : Int} (bytes : settings.byteLimit = .ok limit)
    (named : ∀ pattern ∈ wants.patterns, (Path.ofText pattern).components.isEmpty = false)
    (wellFormed : host.files.WellFormed) (there : ∀ p ∈ given, host.exists? p = .ok true)
    (looks : wants.links = false → ∀ p ∈ given, ∀ q, wants.Reaches host p q → wants.Asks q →
      ∃ linked, host.isLink q = .ok linked) :
    ∀ p ∈ given, Decided settings host p := by
  intro p member q candidate
  apply exists_accepts of bytes fun pattern member => isSome_matches?_iff.2 (named pattern member)
  intro asked
  cases links : wants.links with
  | true => exact .inl rfl
  | false =>
    refine .inr (exists_isLink_of_mem_candidates of wellFormed (there p member) candidate ?_)
    exact fun reached => looks links p member q reached asked

/-- Settings that pass the check are good for a search, if a limit in doubles has a number of bytes and no pattern
is empty. What else can stop it is a path of which the system does not say whether it is a link. -/
theorem find_completes (checked : settings.check = .ok ())
    (finite : ∀ x, (settings.value .maxFileSize).number? = some (.double x) →
      wants.megabytes * 2 ^ 20 < Decimal.overflow)
    (named : ∀ pattern ∈ wants.patterns, (Path.ofText pattern).components.isEmpty = false)
    (wellFormed : host.files.WellFormed) (there : ∀ p ∈ given, host.exists? p = .ok true)
    (looks : wants.links = false → ∀ p ∈ given, ∀ q, wants.Reaches host p q → wants.Asks q →
      ∃ linked, host.isLink q = .ok linked) :
    (∃ limit, settings.byteLimit = .ok limit) ∧
    (∀ p, ∃ excluded, isExcluded settings p = .ok excluded) ∧
    ∃ files, (find settings host given).result = .ok files := by
  have sound (p : Path) : ∀ pattern ∈ wants.patterns, (p.matches? pattern).isSome = true :=
    fun pattern member => isSome_matches?_iff.2 (named pattern member)
  obtain ⟨limit, bytes⟩ := Settings.exists_byteLimit checked of.megabytes finite
  have decided := decided_of_given of bytes named wellFormed there looks
  exact ⟨⟨limit, bytes⟩, fun p => ⟨_, isExcluded_eq of (sound p)⟩,
    _, result_find of.most (most_nonneg of checked) there decided⟩

end Of

theorem small_standard : standardWants.megabytes * 2 ^ 20 < Decimal.overflow := by
  calc
    (10 : Rat) * 2 ^ 20 < 2 ^ (24 : Int) := by norm_num
    _ < Decimal.overflow := zpow_lt_zpow_right₀ one_lt_two (by decide)

theorem find_completes_of_nested :
    (∃ limit, Settings.standard.byteLimit = .ok limit) ∧
    (∀ p, ∃ excluded, isExcluded Settings.standard p = .ok excluded) ∧
    (find Settings.standard nested [nestedRoot]).result = .ok nestedScripts := by
  have answers := nestedAnswers
  obtain ⟨bytes, excluded, files, run⟩ := find_completes of_standard check_standard (fun _ _ => small_standard)
    named_standard wellFormed_nested (List.forall_mem_singleton.2 answers.there) fun _ p member q reached _ => by
      rw [List.mem_singleton] at member
      subst member
      exact ⟨false, answers.direct q (answers.reaches reached)⟩
  cases answers.find_eq.symm.trans run
  exact ⟨bytes, excluded, run⟩

section Unlimited

theorem result_accepts_of_byteLimit {language : Language} {content : ByteArray} {e : Failure}
    (known : Language.ofPath? p = some language) (wanted : isWanted settings language.name = .ok true)
    (excluded : isExcluded settings p = .ok false) (direct : (isUnwantedLink settings host p).result = .ok false)
    (entry : host.entry p = .ok (.file content)) (unlimited : settings.byteLimit = .error e) :
    (accepts settings host p).result = .error e := by
  rw [accepts, known]
  simp only [wanted, excluded]
  rw [Journal.result_bind_of_ok rfl]
  change (do
    if ← isUnwantedLink settings host p then
      note .debug ("Skipped (symlink): " ++ p.shown)
      return false
    else hasAllowedSize settings host p).result = _
  rw [Journal.result_bind_of_ok direct, if_neg Bool.false_ne_true, hasAllowedSize, entry]
  simp only [unlimited]
  rfl

theorem result_find_of_candidate {e : Failure} (there : host.exists? p = .ok true)
    (candidate : candidates settings host p = [p]) (refused : (accepts settings host p).result = .error e) :
    (find settings host [p]).result = .error e := by
  have ends : (acceptAll settings host (candidates settings host p)).result = .error e := by
    rw [candidate, acceptAll, Journal.result_bind, refused]
    rfl
  rw [find, Journal.result_bind, result_findAll_undecided there ends]
  rfl

def sized (megabytes : Float) : Settings where
  value
    | .maxFileSize => .double megabytes
    | s => unpatterned.value s

def without (pattern : String) : Settings where
  value
    | .excludePatterns => .list [.text pattern]
    | s => s.standard

def script : Path := ⟨.slash, ["a", "x.py"]⟩

theorem find_sized {megabytes : Float} {cause : Decimal.NoWholePart}
    (unlimited : (Decimal.Binary64.ofFloat (megabytes * 1024.0 * 1024.0)).wholePart = .error cause) :
    (find (sized megabytes) twoScripts [script]).result = .error (.defect (.noWholePart cause)) := by
  have bytes : (sized megabytes).byteLimit = .error (.defect (.noWholePart cause)) := by
    rw [Settings.byteLimit]
    simp only [sized, Value.number?, unlimited]
    rfl
  have known : Language.ofPath? script = some .python := by cbv
  have entry : twoScripts.entry script = .ok (.file .empty) := by cbv
  apply result_find_of_candidate (by cbv) (by cbv)
  exact result_accepts_of_byteLimit known rfl rfl (by cbv) entry bytes

/-- Settings that pass the check and stop the search at a file that is there. -/
theorem find_unlimited :
    let infinite := sized (1.0 / 0.0)
    let undefined := sized (0.0 / 0.0)
    let unnamed := without ""
    twoScripts.exists? script = .ok true ∧
    infinite.check = .ok () ∧ (find infinite twoScripts [script]).result =
      .error (.defect (.noWholePart .infinite)) ∧
    undefined.check = .ok () ∧ (find undefined twoScripts [script]).result =
      .error (.defect (.noWholePart .notANumber)) ∧
    unnamed.check = .ok () ∧ (find unnamed twoScripts [script]).result = .error (.defect .emptyPattern) := by
  intro infinite undefined unnamed
  refine ⟨by cbv, by rfl, ?_, by rfl, ?_, by rfl, ?_⟩
  · exact find_sized (by rfl)
  · exact find_sized (by rfl)
  · cbv

end Unlimited

end Sources

end ScopeComplexity
