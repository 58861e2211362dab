import ScopeComplexity.Proofs.Path.Size
import ScopeComplexity.Proofs.Sources.Acceptance
import ScopeComplexity.Proofs.Sources.Union

namespace ScopeComplexity.Sources

namespace Wants

def Shows (wants : Wants) (name : String) : Prop := wants.hidden = true ∨ isHidden name = false

def Enters (wants : Wants) (host : Host) (p q : Path) : Prop :=
  ∃ name, host.Lists p name ∧ q = p.child name ∧ host.IsDirectory q ∧ name ∉ skippedDirectories ∧
    wants.Shows name ∧ (wants.links = true ∨ host.isLink q = .ok false)

/-- A path that is listed where steps down from a start lead. The name of the start itself does not count. -/
def Reaches (wants : Wants) (host : Host) (start p : Path) : Prop :=
  ∃ d name, Relation.ReflTransGen (wants.Enters host) start d ∧ host.Lists d name ∧ p = d.child name ∧
    wants.Shows name

structure Admits (wants : Wants) (host : Host) (start p : Path) : Prop where
  reached : wants.Reaches host start p
  file : ¬host.IsDirectory p
  accepted : wants.Accepts host p

/-- The system answers what it is asked of a path: whether that is a link, or what the directory holds that it
leads to. -/
structure Looks (wants : Wants) (host : Host) (start p : Path) : Prop where
  direct : wants.links = false → ∃ linked, host.isLink p = .ok linked
  linked : wants.links = true → host.IsDirectory p → opens start p = true

end Wants

variable {wants : Wants} {settings : Settings} {host : Host} {start p q : Path}

section Opens

theorem size_lt_of_opens (h : opens start p = true) : p.size < FileTree.pathLimit := by
  have bound := of_decide_eq_true h
  omega

theorem opens_start (short : start.size < FileTree.pathLimit) : opens start start = true := by
  rw [opens, decide_eq_true_iff]
  obtain ⟨root, parts⟩ := start
  by_cases empty : Path.components ⟨root, parts⟩ = []
  · rw [Path.components] at empty
    split at empty
    · cases empty
      rename_i relative
      cases relative
      decide
    · cases empty
  · rw [List.isEmpty_eq_false_iff.2 empty]
    exact short

theorem opens_of_size_child_lt {name : String} (below : p.parts ≠ []) (nonempty : name ≠ "")
    (short : (p.child name).size < FileTree.pathLimit) : opens start p = true := by
  have some : 0 < name.utf8ByteSize := Nat.pos_of_ne_zero (String.utf8ByteSize_eq_zero_iff.not.2 nonempty)
  rw [Path.size_child below] at short
  rw [opens, decide_eq_true_iff]
  split <;> omega

end Opens

theorem isAccepted_iff (h : (accepts settings host p).Decides (wants.Accepts host p)) :
    isAccepted settings host p = true ↔ wants.Accepts host p := by
  obtain ⟨accepted, answer, holds⟩ := h
  rw [isAccepted, answer]
  exact holds

theorem Wants.Accepts.file (h : wants.Accepts host p) : ¬host.IsDirectory p := by
  obtain ⟨content, found, -⟩ := h.sized
  rintro ⟨entries, directory⟩
  cases found.symm.trans directory

theorem Wants.Accepts.size_lt (h : wants.Accepts host p) : p.size < FileTree.pathLimit := by
  obtain ⟨content, found, -⟩ := h.sized
  exact Host.size_lt_of_entry found

theorem mem_candidates_iff (wellFormed : host.files.WellFormed) (directory : host.IsDirectory start) :
    p ∈ candidates settings host start ↔
      ∃ d, Relation.ReflTransGen (host.Enters (choice settings start)) start d ∧
        host.Takes (choice settings start) d p := by
  obtain ⟨s, there⟩ := Host.isDirectory_iff.1 directory
  have found : candidates settings host start = host.files.walk (choice settings start) start s := by
    rw [candidates, there.located]
    simp only [there.directory]
  rw [found, FileTree.mem_walk_iff wellFormed (fun _ => size_lt_of_opens) there (opens_start there.size_lt)]

section Of

variable (of : wants.Of settings)

include of

theorem shows_iff {name : String} :
    ((settings.value .allowHiddenFiles).isTrue || !isHidden name) = true ↔ wants.Shows name := by
  rw [of.hidden, Value.isTrue, Bool.or_eq_true, Bool.not_eq_true', Wants.Shows]

theorem enters_choice_iff :
    host.Enters (choice settings start) p q ↔ wants.Enters host p q ∧ opens start q = true := by
  have links : (choice settings start).throughLinks = wants.links := by
    rw [choice, of.links, Value.isTrue]
  have enters (name : String) :
      (choice settings start).enters name = true ↔ name ∉ skippedDirectories ∧ wants.Shows name := by
    rw [← shows_iff of, choice, Bool.and_eq_true]
    simp
  simp only [Host.Enters, Wants.Enters, links, enters]
  constructor
  · rintro ⟨name, listed, same, directory, opened, ⟨kept, shown⟩, direct⟩
    exact ⟨⟨name, listed, same, directory, kept, shown, direct⟩, opened⟩
  · rintro ⟨⟨name, listed, same, directory, kept, shown, direct⟩, opened⟩
    exact ⟨name, listed, same, directory, opened, ⟨kept, shown⟩, direct⟩

theorem takes_choice_iff :
    host.Takes (choice settings start) p q ↔
      ∃ name t, host.Holds p name t ∧ q = p.child name ∧ wants.Shows name ∧
        if opens start q then ¬host.IsDirectory q else ∀ entries, t ≠ .directory entries := by
  have takes (name : String) : (choice settings start).takes name = true ↔ wants.Shows name := by
    rw [← shows_iff of, choice]
  simp only [Host.Takes, takes]
  rfl

section Walk

variable (wellFormed : host.files.WellFormed)

include wellFormed

theorem enters_of_size_lt {d : Path} {name : String}
    (below : Relation.ReflTransGen (wants.Enters host) start d) (listed : host.Lists d name)
    (short : (d.child name).size < FileTree.pathLimit) :
    Relation.ReflTransGen (host.Enters (choice settings start)) start d := by
  -- a directory behind which a name still fits can be opened, and so can all on the way to it
  induction below generalizing name with
  | refl => exact .refl
  | @tail c d below entered ih =>
    obtain ⟨name', listed', rfl, rest⟩ := id entered
    obtain ⟨t, held⟩ := listed
    have nonempty : name ≠ "" := (held.ordinary wellFormed).nonempty
    have opened : opens start (c.child name') = true :=
      opens_of_size_child_lt (List.append_ne_nil_of_right_ne_nil _ (List.cons_ne_nil _ _)) nonempty short
    exact (ih listed' (size_lt_of_opens opened)).tail ((enters_choice_iff of).2 ⟨entered, opened⟩)

theorem reaches_of_mem_candidates (directory : host.IsDirectory start)
    (member : p ∈ candidates settings host start) : wants.Reaches host start p := by
  obtain ⟨d, below, takes⟩ := (mem_candidates_iff wellFormed directory).1 member
  obtain ⟨name, t, held, same, shown, -⟩ := (takes_choice_iff of).1 takes
  have below : Relation.ReflTransGen (wants.Enters host) start d :=
    Relation.ReflTransGen.mono (fun _ _ step => ((enters_choice_iff of).1 step).1) _ _ below
  exact ⟨d, name, below, ⟨t, held⟩, same, shown⟩

theorem tells_of_mem_candidates (directory : host.IsDirectory start)
    (member : p ∈ candidates settings host start) (looks : wants.Looks host start p) :
    wants.Tells host p := by
  obtain ⟨d, below, takes⟩ := (mem_candidates_iff wellFormed directory).1 member
  obtain ⟨name, t, held, rfl, shown, file⟩ := (takes_choice_iff of).1 takes
  cases links : wants.links with
  | true =>
    refine ⟨.inl links, fun _ directory => ?_, held.followed⟩
    rw [if_pos (looks.linked links directory)] at file
    exact file directory
  | false =>
    obtain ⟨_, answer⟩ := looks.direct links
    have short := Host.size_lt_of_isLink answer
    have linked := held.isLink_eq wellFormed short
    refine ⟨.inr ⟨_, linked⟩, ?_, held.followed⟩
    rintro (followed | direct)
    · cases links.symm.trans followed
    · rw [linked, Except.ok.injEq] at direct
      rw [held.isDirectory_iff_of_direct wellFormed short direct]
      split at file
      · rwa [held.isDirectory_iff_of_direct wellFormed short direct] at file
      · exact not_exists.2 file

theorem Wants.Admits.mem_candidates (h : wants.Admits host start p) (directory : host.IsDirectory start) :
    p ∈ candidates settings host start := by
  obtain ⟨⟨d, name, below, listed, rfl, shown⟩, file, accepted⟩ := h
  have short := accepted.size_lt
  rw [mem_candidates_iff wellFormed directory]
  refine ⟨d, enters_of_size_lt of wellFormed below listed short, ?_⟩
  obtain ⟨t, held⟩ := listed
  refine (takes_choice_iff of).2 ⟨name, t, held, rfl, shown, ?_⟩
  split
  · exact file
  · rintro entries rfl
    exact file ((held.isDirectory_iff_of_direct wellFormed short rfl).2 ⟨entries, rfl⟩)

/-- A search from a directory finds exactly the files that are admitted, in order, as long as the system answers what it
is asked of them. -/
theorem find_admitted (checked : settings.check = .ok ()) {limit : Int}
    (bytes : settings.byteLimit = .ok limit)
    (sound : ∀ pattern ∈ wants.patterns, ∀ p : Path, (p.matches? pattern).isSome = true)
    (normal : start.Normal) (there : host.exists? start = .ok true) (directory : host.IsDirectory start)
    (looks : ∀ p, wants.Reaches host start p → wants.Asks p → wants.Looks host start p) :
    ∃ files : List Path, (files.Pairwise fun p q => p.components < q.components) ∧
      (∀ p, p ∈ files ↔ wants.Admits host start p) ∧
      (files.length ≤ wants.most → (find settings host [start]).result = .ok files) := by
  have decides {p : Path} (member : p ∈ candidates settings host start) :
      (accepts settings host p).Decides (wants.Accepts host p) := by
    apply decides_accepts of checked bytes fun pattern member => sound pattern member p
    intro asked
    have reached := reaches_of_mem_candidates of wellFormed directory member
    exact tells_of_mem_candidates of wellFormed directory member (looks p reached asked)
  have settled : ∀ p ∈ [start], Settled settings host p := by
    rw [List.forall_mem_singleton]
    refine ⟨normal, there, fun p member => ?_⟩
    obtain ⟨accepted, answer, -⟩ := decides member
    exact ⟨accepted, answer⟩
  refine ⟨foundFrom settings host [start], pairwise_inOrder (foundFrom_normal wellFormed.legal settled),
    ?_, ?_⟩
  · intro p
    rw [foundFrom, mem_inOrder, List.flatMap_singleton, found, List.mem_filter]
    constructor
    · rintro ⟨member, accepted⟩
      have accepted := (isAccepted_iff (decides member)).1 accepted
      exact ⟨reaches_of_mem_candidates of wellFormed directory member, accepted.file, accepted⟩
    · intro admitted
      have member := admitted.mem_candidates of wellFormed directory
      exact ⟨member, (isAccepted_iff (decides member)).2 admitted.accepted⟩
  · intro within
    have positive : 0 ≤ wants.most := by omega
    rw [result_find of.most positive (fun p member => (settled p member).there)
      fun p member => (settled p member).decided]
    exact congrArg Except.ok (List.take_of_length_le (by rw [← foundFrom]; omega))

end Walk

end Of

section Nested

theorem Wants.Reaches.of_closed {directories : List Path} (h : wants.Reaches host start p)
    (here : start ∈ directories) (closed : ∀ d ∈ directories, ∀ q, wants.Enters host d q → q ∈ directories) :
    ∃ d ∈ directories, ∃ name, host.Lists d name ∧ p = d.child name ∧ wants.Shows name := by
  obtain ⟨d, name, below, listed, same, shown⟩ := h
  have inside : d ∈ directories := by
    clear listed same
    induction below with
    | refl => exact here
    | tail _ entered ih => exact closed _ ih _ entered
  exact ⟨d, inside, name, listed, same, shown⟩

theorem Wants.Reaches.of_flat (h : wants.Reaches host start p)
    (flat : ∀ name, host.Lists start name → ¬host.IsDirectory (start.child name)) :
    ∃ name, host.Lists start name ∧ p = start.child name := by
  obtain ⟨d, here, name, listed, same, -⟩ := h.of_closed (List.mem_singleton_self start) (by
    rw [List.forall_mem_singleton]
    rintro q ⟨inner, listed, rfl, directory, -⟩
    exact (flat inner listed directory).elim)
  obtain rfl := List.mem_singleton.1 here
  exact ⟨name, listed, same⟩

def standardWants : Wants where
  patterns := ["*.min.js", "*.bundle.js", "*.generated.*", "*_pb2.py"]
  languages := none
  hidden := false
  links := false
  megabytes := 10
  most := 10000

theorem of_standard : standardWants.Of Settings.standard where
  patterns := rfl
  languages := rfl
  hidden := rfl
  links := rfl
  megabytes := by
    have ten : (10.0 : Float) = Decimal.whole 10 := by decide
    exact .double rfl (ten ▸ Decimal.exactly_whole (by decide))
  most := rfl

theorem check_standard : Settings.standard.check = .ok () := by rfl

theorem byteLimit_standard : Settings.standard.byteLimit = .ok 10485760 := by rfl

theorem named_standard :
    ∀ pattern ∈ standardWants.patterns, (Path.ofText pattern).components.isEmpty = false := by
  decide

def nested : Host where
  files := .directory [("p", .directory
    [(".h.py", .file .empty), ("app.min.js", .file .empty),
      ("lib", .directory [("a.py", .file .empty), ("notes.txt", .file .empty)]), ("m.py", .file .empty),
      ("vendor", .directory [("v.py", .file .empty)])])]
  home := .ofText "/"
  work := .ofText "/"

def nestedRoot : Path := ⟨.slash, ["p"]⟩

def nestedDirectories : List Path := [nestedRoot, ⟨.slash, ["p", "lib"]⟩]

def nestedPaths : List Path :=
  [⟨.slash, ["p", "app.min.js"]⟩, ⟨.slash, ["p", "lib"]⟩, ⟨.slash, ["p", "m.py"]⟩, ⟨.slash, ["p", "vendor"]⟩,
    ⟨.slash, ["p", "lib", "a.py"]⟩, ⟨.slash, ["p", "lib", "notes.txt"]⟩]

def nestedScripts : List Path := [⟨.slash, ["p", "lib", "a.py"]⟩, ⟨.slash, ["p", "m.py"]⟩]

theorem wellFormed_nested : nested.files.WellFormed := by
  have file : ∀ e ∈ [("a.py", FileTree.file .empty), ("notes.txt", .file .empty)], e.2.WellFormed := by
    simp [FileTree.WellFormed.file]
  have lib : (FileTree.directory [("a.py", .file .empty), ("notes.txt", .file .empty)]).WellFormed :=
    .directory (by decide) (by decide) file
  have vendor : (FileTree.directory [("v.py", .file .empty)]).WellFormed :=
    .directory (by decide) (by decide) (by simp [FileTree.WellFormed.file])
  apply FileTree.WellFormed.directory (by decide) (by decide)
  rw [List.forall_mem_singleton]
  apply FileTree.WellFormed.directory (by decide) (by decide)
  simp [FileTree.WellFormed.file, lib, vendor]

def nestedFiles : List Path :=
  [⟨.slash, ["p", "app.min.js"]⟩, ⟨.slash, ["p", "m.py"]⟩, ⟨.slash, ["p", "lib", "a.py"]⟩,
    ⟨.slash, ["p", "lib", "notes.txt"]⟩]

theorem nestedFiles_subset : nestedFiles ⊆ nestedPaths := by decide

theorem not_isDirectory_of_file {content : ByteArray} (file : host.entry p = .ok (.file content)) :
    ¬host.IsDirectory p := by
  rintro ⟨entries, directory⟩
  cases file.symm.trans directory

/-- What the system answers of the paths that a search of `nested` meets. -/
structure NestedAnswers : Prop where
  there : nested.exists? nestedRoot = .ok true
  root : nested.entry nestedRoot = .ok (.directory
    [(".h.py", .file .empty), ("app.min.js", .file .empty),
      ("lib", .directory [("a.py", .file .empty), ("notes.txt", .file .empty)]), ("m.py", .file .empty),
      ("vendor", .directory [("v.py", .file .empty)])])
  lib : nested.entry ⟨.slash, ["p", "lib"]⟩ =
    .ok (.directory [("a.py", .file .empty), ("notes.txt", .file .empty)])
  hidden : nested.entry ⟨.slash, ["p", ".h.py"]⟩ = .ok (.file .empty)
  files : ∀ p ∈ nestedFiles, nested.entry p = .ok (.file .empty)
  direct : ∀ p ∈ nestedPaths, nested.isLink p = .ok false
  candidates : candidates Settings.standard nested nestedRoot = nestedFiles

theorem nestedAnswers : NestedAnswers where
  there := by cbv
  root := by cbv
  lib := by cbv
  hidden := by cbv
  files := by
    simp only [nestedFiles, List.forall_mem_cons]
    exact ⟨by cbv, by cbv, by cbv, by cbv, List.forall_mem_nil _⟩
  direct := by
    simp only [nestedPaths, List.forall_mem_cons]
    exact ⟨by cbv, by cbv, by cbv, by cbv, by cbv, by cbv, List.forall_mem_nil _⟩
  candidates := by cbv

namespace NestedAnswers

variable (answers : NestedAnswers)

include answers

theorem lists_root {name : String} (listed : nested.Lists nestedRoot name) :
    name ∈ [".h.py", "app.min.js", "lib", "m.py", "vendor"] := by
  obtain ⟨t, entries, found, member⟩ := listed
  cases answers.root.symm.trans found
  exact List.mem_map_of_mem (f := Prod.fst) member

theorem lists_lib {name : String} (listed : nested.Lists ⟨.slash, ["p", "lib"]⟩ name) :
    name ∈ ["a.py", "notes.txt"] := by
  obtain ⟨t, entries, found, member⟩ := listed
  cases answers.lib.symm.trans found
  exact List.mem_map_of_mem (f := Prod.fst) member

theorem enters : ∀ d ∈ nestedDirectories, ∀ q, standardWants.Enters nested d q → q ∈ nestedDirectories := by
  have file {p : Path} (member : p ∈ nestedFiles) (directory : nested.IsDirectory p) : p ∈ nestedDirectories :=
    (not_isDirectory_of_file (answers.files p member) directory).elim
  rw [nestedDirectories, List.forall_mem_cons, List.forall_mem_singleton]
  constructor
  · rintro q ⟨name, listed, rfl, directory, kept, -, -⟩
    obtain rfl | rfl | rfl | rfl | rfl : name = ".h.py" ∨ name = "app.min.js" ∨ name = "lib" ∨ name = "m.py" ∨
        name = "vendor" := by simpa using answers.lists_root listed
    · exact (not_isDirectory_of_file answers.hidden directory).elim
    · exact file (by decide) directory
    · exact List.mem_cons_of_mem _ (List.mem_singleton_self _)
    · exact file (by decide) directory
    · exact absurd (by decide) kept
  · rintro q ⟨name, listed, rfl, directory, -⟩
    obtain rfl | rfl : name = "a.py" ∨ name = "notes.txt" := by simpa using answers.lists_lib listed
    · exact file (by decide) directory
    · exact file (by decide) directory

theorem reaches (h : standardWants.Reaches nested nestedRoot p) : p ∈ nestedPaths := by
  obtain ⟨d, inside, name, listed, rfl, shown⟩ := h.of_closed List.mem_cons_self answers.enters
  obtain rfl | rfl : d = nestedRoot ∨ d = ⟨.slash, ["p", "lib"]⟩ := by simpa [nestedDirectories] using inside
  · obtain rfl | rfl | rfl | rfl | rfl : name = ".h.py" ∨ name = "app.min.js" ∨ name = "lib" ∨ name = "m.py" ∨
        name = "vendor" := by simpa using answers.lists_root listed
    · have dotted : isHidden ".h.py" = true := by simp [isHidden]
      rcases shown with hidden | shown
      · cases hidden
      · cases dotted.symm.trans shown
    all_goals decide
  · obtain rfl | rfl : name = "a.py" ∨ name = "notes.txt" := by simpa using answers.lists_lib listed
    all_goals decide

theorem decides (member : p ∈ nestedFiles) :
    (accepts Settings.standard nested p).Decides (standardWants.Accepts nested p) := by
  have file := answers.files p member
  apply decides_accepts of_standard check_standard byteLimit_standard
    fun pattern member => isSome_matches?_iff.2 (named_standard pattern member)
  refine fun _ => ⟨.inr ⟨false, answers.direct p (nestedFiles_subset member)⟩,
    fun _ => not_isDirectory_of_file file, ?_⟩
  intro target link
  cases file.symm.trans link

theorem accepted (member : p ∈ nestedFiles) (python : Language.ofPath? p = some .python)
    (unmatched : ∀ pattern ∈ standardWants.patterns, p.matches? pattern = some false) :
    isAccepted Settings.standard nested p = true := by
  refine (isAccepted_iff (answers.decides member)).2
    ⟨⟨⟨.python, python, nofun⟩, unmatched⟩, .inr (answers.direct p (nestedFiles_subset member)), .empty,
      answers.files p member, ?_⟩
  simp [standardWants]

theorem found_eq :
    found Settings.standard nested nestedRoot = [⟨.slash, ["p", "m.py"]⟩, ⟨.slash, ["p", "lib", "a.py"]⟩] := by
  have minified : isAccepted Settings.standard nested ⟨.slash, ["p", "app.min.js"]⟩ = false := by
    have matched : Path.matches? ⟨.slash, ["p", "app.min.js"]⟩ "*.min.js" = some true := by decide +kernel
    refine Bool.eq_false_iff.2 (mt (isAccepted_iff (answers.decides (by decide))).1 ?_)
    intro accepts
    cases (accepts.unmatched "*.min.js" List.mem_cons_self).symm.trans matched
  have notes : isAccepted Settings.standard nested ⟨.slash, ["p", "lib", "notes.txt"]⟩ = false := by
    have unknown : Language.ofPath? ⟨.slash, ["p", "lib", "notes.txt"]⟩ = none := by cbv
    rw [isAccepted, accepts, unknown]
    rfl
  have script := answers.accepted (p := ⟨.slash, ["p", "m.py"]⟩) (by decide) (by cbv) (by decide +kernel)
  have inner := answers.accepted (p := ⟨.slash, ["p", "lib", "a.py"]⟩) (by decide) (by cbv) (by decide +kernel)
  rw [found, answers.candidates, nestedFiles]
  simp [minified, script, inner, notes]

theorem find_eq : (find Settings.standard nested [nestedRoot]).result = .ok nestedScripts := by
  have decided : Decided Settings.standard nested nestedRoot := by
    rw [Decided, answers.candidates]
    exact fun p member => (answers.decides member).answered
  have order : inOrder [⟨.slash, ["p", "m.py"]⟩, ⟨.slash, ["p", "lib", "a.py"]⟩] = nestedScripts := by
    have sorted : inOrder nestedScripts = nestedScripts := inOrder_eq_self (by decide)
    refine (inOrder_congr ?_ ?_).trans sorted
    · simp [Path.Normal, Path.IsName, Path.isPart]
    · simp [nestedScripts, or_comm]
  rw [result_find of_standard.most (by decide) (List.forall_mem_singleton.2 answers.there)
    (List.forall_mem_singleton.2 decided), List.flatMap_singleton, answers.found_eq, order]
  rfl

end NestedAnswers

theorem find_admitted_of_nested :
    (∀ p, p ∈ nestedScripts ↔ standardWants.Admits nested nestedRoot p) ∧
    (find Settings.standard nested [nestedRoot]).result = .ok nestedScripts := by
  have answers := nestedAnswers
  obtain ⟨files, sorted, members, limited⟩ := find_admitted of_standard wellFormed_nested check_standard
    byteLimit_standard (fun pattern member _ => isSome_matches?_iff.2 (named_standard pattern member))
    (Path.normal_ofText "/p") answers.there ⟨_, answers.root⟩
    fun p reached _ => ⟨fun _ => ⟨false, answers.direct p (answers.reaches reached)⟩, nofun⟩
  have within : files ⊆ nestedPaths := fun p member => answers.reaches ((members p).1 member).reached
  have few : files.length ≤ 6 := (List.subperm_of_subset (nodup_of_sorted sorted) within).length_le
  have enough : (files.length : Int) ≤ standardWants.most := (Int.ofNat_le.2 few).trans (by decide)
  cases answers.find_eq.symm.trans (limited enough)
  exact ⟨members, answers.find_eq⟩

end Nested

section Long

theorem candidates_of_file {position : FileTree.Position} {name : String} {content : ByteArray}
    (there : host.IsAt start ⟨position, [(name, .file content)]⟩) (shown : isHidden name = false) :
    candidates settings host start = [start.child name] := by
  have opened : (choice settings start).opens start = true := opens_start there.size_lt
  have takes : (choice settings start).takes name = true := by simp [choice, shown]
  have file : FileTree.stopAt host.files (choice settings start) start
      ⟨position, [(name, .file content)]⟩ (name, .file content) = none := by
    simp [FileTree.stopAt, FileTree.isLink, FileTree.directoryAt]
  rw [candidates, there.located]
  simp only [there.directory]
  rw [FileTree.walk_eq_takenFiles opened fun e entry => List.mem_singleton.1 entry ▸ file]
  simp [FileTree.takenFiles, file, takes]

def hall : String := String.ofList (List.replicate 200 'd')

def hallScript : String := "fffffffffffffffff.py"

def inHall : List (String × FileTree) := [(hallScript, .file .empty)]

def scriptHall : Host where
  files := .directory [(hall, .directory inHall)]
  home := .ofText "/"
  work := .ofText "/"

def intoHall : Nat → List String
  | 0 => [hall]
  | n + 1 => hall :: ".." :: intoHall n

theorem toList_hall : hall.toList = List.replicate 200 'd' := String.toList_ofList

theorem size_hall : hall.utf8ByteSize = 200 := Path.utf8ByteSize_replicate 'd' 200

theorem ordinary_hall : FileTree.OrdinaryName hall := by
  have part : Path.isPart hall.toList = true := by
    rw [toList_hall]
    decide
  have noSlash : '/' ∉ hall.toList := by
    rw [toList_hall]
    decide
  refine ⟨⟨part, noSlash⟩, ?_, size_hall.trans_le (by decide)⟩
  intro up
  have letters := toList_hall
  rw [up] at letters
  exact absurd letters (by decide)

theorem shown_intoHall (n : Nat) :
    Path.shown ⟨.none, intoHall (n + 1)⟩ = hall ++ "/" ++ (".." ++ "/" ++ Path.shown ⟨.none, intoHall n⟩) := by
  have some : intoHall n ≠ [] := by cases n <;> simp [intoHall]
  rw [Path.shown_of_parts (List.cons_ne_nil _ _), Path.shown_of_parts some]
  simp only [intoHall, Path.Root.text, String.empty_append]
  rw [String.intercalate_cons_cons, String.intercalate_cons_of_ne_nil some]

theorem size_intoHall (n : Nat) : Path.size ⟨.none, intoHall n⟩ = 204 * n + 200 := by
  have slash : "/".utf8ByteSize = 1 := by decide
  have up : "..".utf8ByteSize = 2 := by decide
  induction n with
  | zero => rw [Path.size, intoHall, Path.shown_name, size_hall]
  | succ n ih =>
    rw [Path.size] at ih ⊢
    rw [shown_intoHall]
    simp only [String.utf8ByteSize_append, size_hall, slash, up, ih]
    omega

theorem not_mem_shown_intoHall (n : Nat) : '\x00' ∉ (Path.shown ⟨.none, intoHall n⟩).toList := by
  have clean : '\x00' ∉ hall.toList := by
    rw [toList_hall]
    decide
  induction n with
  | zero => rwa [intoHall, Path.shown_name]
  | succ n ih =>
    rw [shown_intoHall]
    simp [clean, ih]

theorem follow_intoHall (n : Nat) :
    scriptHall.files.follow true FileTree.linkLimit [] (intoHall n) = .ok ⟨[hall], FileTree.linkLimit⟩ := by
  have lookup : List.lookup hall [(hall, FileTree.directory inHall)] = some (.directory inHall) :=
    List.lookup_cons_self
  have root : scriptHall.files.descend [] = some (.directory [(hall, .directory inHall)]) := rfl
  have inner : scriptHall.files.descend [hall] = some (.directory inHall) :=
    (FileTree.descend_concat root hall).trans lookup
  induction n with
  | zero =>
    rw [intoHall, FileTree.follow_cons ordinary_hall root, lookup]
    simp only [List.nil_append, FileTree.follow_nil]
  | succ n ih =>
    rw [intoHall, FileTree.follow_cons ordinary_hall root, lookup]
    simp only [List.nil_append]
    rw [FileTree.follow]
    simpa [inner] using ih

def farHall : Path := ⟨.none, intoHall 19⟩

theorem isAt_farHall : scriptHall.IsAt farHall ⟨⟨[hall], FileTree.linkLimit⟩, inHall⟩ where
  located := by
    rw [Host.locate, FileTree.locate, farHall, size_intoHall, if_neg (by decide), if_pos rfl]
    exact follow_intoHall 19
  directory := by simp [scriptHall, FileTree.descend, FileTree.entries]

theorem long_farHall_child : FileTree.pathLimit ≤ (farHall.child hallScript).size := by
  rw [Path.size_child (by simp [farHall, intoHall]), farHall, size_intoHall]
  decide

def megabyteScripts : Wants where
  patterns := []
  languages := none
  hidden := false
  links := false
  megabytes := 1
  most := 10000

theorem of_unpatterned : megabyteScripts.Of unpatterned where
  patterns := rfl
  languages := rfl
  hidden := rfl
  links := rfl
  megabytes := by
    have one : (unpatterned.value .maxFileSize).StandsFor ((1 : Int) : Rat) := .whole rfl
    rwa [Int.cast_one] at one
  most := rfl

theorem asks_farHall_child : megabyteScripts.Asks (farHall.child hallScript) where
  language := by
    have name : (farHall.child hallScript).name = hallScript := by simp [Path.name, Path.child]
    refine ⟨.python, ?_, ?_⟩
    · rw [Language.ofPath?, Path.suffix, name]
      cbv
    · intro wanted asked
      cases asked
  unmatched := List.forall_mem_nil _

/-- No file is admitted, but the search fails at one whose path is too long. -/
theorem find_farHall :
    (∀ p, ¬megabyteScripts.Admits scriptHall farHall p) ∧
    (find unpatterned scriptHall [farHall]).result =
      .error (.defect (.unopened .nameTooLong (farHall.child hallScript).shown)) := by
  constructor
  · intro p admitted
    have listed {name : String} (listed : scriptHall.Lists farHall name) : name = hallScript := by
      obtain ⟨t, held⟩ := listed
      exact congrArg Prod.fst (List.mem_singleton.1 (isAt_farHall.holds_iff.1 held))
    obtain ⟨name, here, rfl⟩ := admitted.reached.of_flat fun name here => by
      rintro ⟨entries, directory⟩
      cases listed here
      exact absurd (Host.size_lt_of_entry directory) (Nat.not_lt.2 long_farHall_child)
    cases listed here
    exact absurd admitted.accepted.size_lt (Nat.not_lt.2 long_farHall_child)
  · have there : scriptHall.exists? farHall = .ok true := by
      have clean : farHall.hasNull = false := by
        rw [Path.hasNull, farHall]
        simpa using not_mem_shown_intoHall 19
      rw [Host.exists?, clean, isAt_farHall.entry]
      rfl
    have letters : hallScript.toList = 'f' :: (List.replicate 16 'f' ++ ['.', 'p', 'y']) := by decide
    have candidate : candidates unpatterned scriptHall farHall = [farHall.child hallScript] :=
      candidates_of_file isAt_farHall (by simp [isHidden, letters])
    have refused : (accepts unpatterned scriptHall (farHall.child hallScript)).result =
        .error (.defect (.unopened .nameTooLong (farHall.child hallScript).shown)) :=
      result_accepts_of_long of_unpatterned (List.forall_mem_nil _) asks_farHall_child rfl long_farHall_child
    have ends : (acceptAll unpatterned scriptHall (candidates unpatterned scriptHall farHall)).result =
        .error (.defect (.unopened .nameTooLong (farHall.child hallScript).shown)) := by
      rw [candidate, acceptAll, Journal.result_bind, refused]
      rfl
    rw [find, Journal.result_bind, result_findAll_undecided there ends]
    rfl

end Long

end ScopeComplexity.Sources
