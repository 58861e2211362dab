import Mathlib
import ScopeComplexity.Proofs.FileTree.Following
import ScopeComplexity.Proofs.Settings.Overrides
import ScopeComplexity.Proofs.Text.Utf8
import ScopeComplexity.Proofs.Toml.Keys

namespace ScopeComplexity

namespace Toml.Entries

theorem get?_of_mem {entries : Entries} (distinct : entries.Distinct) {name : String} {v : Value}
    (h : (.text name, v) ∈ entries) : get? entries name = some v := by
  cases found : get? entries name with
  | none => exact absurd (List.mem_map_of_mem h) (not_mem_of_get? found)
  | some w =>
    obtain ⟨names, distinct, keys⟩ := distinct
    have nodup : (entries.map (·.1)).Nodup := by
      rw [keys]
      exact distinct.map fun a b same => Value.text.inj same
    cases List.inj_on_of_nodup_map nodup h (mem_of_get? found) rfl
    rfl

end Toml.Entries

namespace Setting

theorem variableName_eq (s : Setting) : s.variableName = match s with
    | .workers => "CYCLOSPACE_WORKERS"
    | .excludePatterns => "CYCLOSPACE_EXCLUDE_PATTERNS"
    | .maxFileSize => "CYCLOSPACE_MAX_FILE_SIZE_MB"
    | .maxFiles => "CYCLOSPACE_MAX_FILES"
    | .languages => "CYCLOSPACE_LANGUAGES"
    | .allowHiddenFiles => "CYCLOSPACE_ALLOW_HIDDEN_FILES"
    | .followLinks => "CYCLOSPACE_FOLLOW_SYMLINKS"
    | .strictParsing => "CYCLOSPACE_STRICT_PARSING"
    | .verbosity => "CYCLOSPACE_VERBOSITY" := by
  cases s <;> cbv

theorem variableName_injective {s t : Setting} (same : s.variableName = t.variableName) : s = t := by
  rw [variableName_eq, variableName_eq] at same
  revert same
  cases s <;> cases t <;> decide

end Setting

namespace Settings

/-- What a file that is there sets. Its settings stand in a table of their own, or at the top level if
there is no such key. -/
inductive FileSets (host : Host) (p : Path) : Keyed Value → Prop where
  | ownTable {entries inner : Toml.Entries} (found : host.exists? p = .ok true)
      (read : readTable host p = .ok entries) (own : (.text tableName, .table inner) ∈ entries) :
      FileSets host p (layerOf inner)
  | topLevel {entries : Toml.Entries} (found : host.exists? p = .ok true)
      (read : readTable host p = .ok entries) (none : ∀ v, (.text tableName, v) ∉ entries) :
      FileSets host p (layerOf entries)

inductive OptionalFileSets (host : Host) (p : Path) : Keyed Value → Prop where
  | absent (none : host.exists? p = .ok false) : OptionalFileSets host p []
  | present {layer : Keyed Value} (sets : FileSets host p layer) : OptionalFileSets host p layer

inductive NamedFileSets (host : Host) : Option Path → Keyed Value → Prop where
  | absent : NamedFileSets host none []
  | present {p : Path} {layer : Keyed Value} (sets : FileSets host p layer) :
      NamedFileSets host (some p) layer

/-- What the environment sets: of each setting what the text of its variable is read as, if that
is anything. -/
structure EnvironmentSets (host : Host) (layer : Keyed Value) (said : Setting → Option Value) :
    Prop where
  unset : ∀ s : Setting, host.environment.get? s.variableName = none → said s = none
  reads : ∀ (s : Setting) (text : String), host.environment.get? s.variableName = some text →
    s.hint.read s.key text = .ok (said s)
  layer_eq : layer = Setting.all.filterMap fun s => (said s).map (s.key, ·)

structure Layers where
  home : Keyed Value
  project : Keyed Value
  named : Keyed Value
  environment : Keyed Value
  overrides : Keyed Value

namespace Layers

def all (l : Layers) : List (Keyed Value) :=
  [l.home, l.project, l.named, l.environment, l.overrides]

/-- Every layer is read without an error. No override is given twice, and none under the name of the file
that may be named. -/
structure Read (l : Layers) (host : Host) (named : Option Path) (overrides : Keyed Value) : Prop where
  home : ∃ directory, host.homeDirectory = .ok directory ∧
    OptionalFileSets host (directory.child ".cyclospace.toml") l.home
  project : ∃ directory, host.workingDirectory = .ok directory ∧
    OptionalFileSets host (directory.child "cyclospace.toml") l.project
  named : NamedFileSets host named l.named
  environment : ∃ said, EnvironmentSets host l.environment said
  overriding_eq : l.overrides = overriding overrides
  distinct : overrides.keys.Nodup
  free : explicitKey ∉ overrides.keys

end Layers

/-- Two stacks of layers of which one layer says different things of a key, and a stronger layer sets
that key. -/
inductive Shadowed (key : String) : List (Keyed Value) → List (Keyed Value) → Prop where
  | intro (weaker stronger : List (Keyed Value)) {own own' : Keyed Value}
      (others : ∀ other, other ≠ key → own.get? other = own'.get? other)
      (unknown : unknownKeys own = unknownKeys own') (set : ∃ layer ∈ stronger, key ∈ layer.keys) :
      Shadowed key (weaker ++ own :: stronger) (weaker ++ own' :: stronger)

theorem Shadowed.ofLayer_eq {key : String} {layers layers' : List (Keyed Value)}
    (h : Shadowed key layers layers') : ofLayer (overlay layers) = ofLayer (overlay layers') := by
  obtain ⟨weaker, stronger, others, unknown, set⟩ := h
  apply ofLayer_overlay_congr weaker stronger _ unknown
  intro other
  by_cases same : other = key
  · subst same
    exact .inr (strongest_isSome_iff.2 (List.mem_flatMap.2 set))
  · exact .inl (others other same)

section Files

variable {host : Host} {p : Path} {layer : Keyed Value}

theorem distinct_of_readTable {entries : Toml.Entries} (h : readTable host p = .ok entries) :
    (Value.table entries).Distinct := by
  cases bytes : host.read p with
  | error obstacle => simp [readTable, bytes, Except.mapError, bind, Except.bind] at h
  | ok bytes' =>
    cases decoded : Text.decode? bytes' with
    | none =>
      simp [readTable, bytes, decoded, Except.mapError, bind, Except.bind, throw, throwThe,
        MonadExceptOf.throw] at h
    | some text =>
      cases result : Toml.read text with
      | error e => simp [readTable, bytes, decoded, result, Except.mapError, bind, Except.bind] at h
      | ok entries' =>
        simp only [readTable, bytes, decoded, result, Except.mapError, bind, Except.bind,
          Except.ok.injEq] at h
        exact h ▸ Toml.distinct_read result

theorem nodup_keys_layerOf {entries : Toml.Entries} (h : entries.Distinct) :
    (layerOf entries).keys.Nodup := by
  obtain ⟨names, distinct, keys⟩ := h
  have same : (layerOf entries).keys = names := by
    clear distinct
    induction entries generalizing names with
    | nil => cases names with
      | nil => rfl
      | cons name names => cases keys
    | cons entry entries ih => cases names with
      | nil => cases keys
      | cons name names =>
        obtain ⟨key, value⟩ := entry
        obtain ⟨rfl, others⟩ := List.cons.inj keys
        exact congrArg (name :: ·) (ih names others)
  exact same ▸ distinct

theorem FileSets.fileLayer_eq (sets : FileSets host p layer) (title : String) :
    fileLayer host title p = .ok layer := by
  cases sets with
  | ownTable found read own =>
    obtain ⟨distinct, -⟩ := Value.distinct_table_iff.1 (distinct_of_readTable read)
    simp only [fileLayer, read, section?, Toml.Entries.get?_of_mem distinct own]
  | topLevel found read none =>
    have absent : Toml.Entries.get? _ tableName = Option.none :=
      Option.eq_none_iff_forall_ne_some.2 fun v found => none v (Toml.Entries.mem_of_get? found)
    simp only [fileLayer, read, section?, absent]

theorem FileSets.nodup_keys (sets : FileSets host p layer) : layer.keys.Nodup := by
  cases sets with
  | ownTable found read own =>
    obtain ⟨-, below⟩ := Value.distinct_table_iff.1 (distinct_of_readTable read)
    exact nodup_keys_layerOf (Value.distinct_table_iff.1 (below _ own)).1
  | topLevel found read none =>
    exact nodup_keys_layerOf (Value.distinct_table_iff.1 (distinct_of_readTable read)).1

theorem FileSets.layerOrElse_eq (sets : FileSets host p layer) (title : String)
    (otherwise : Except Fault (Keyed Value)) : layerOrElse host title p otherwise = .ok layer := by
  have found : host.exists? p = .ok true := by cases sets <;> assumption
  rw [layerOrElse, found]
  simp only [if_true, sets.fileLayer_eq]
  rfl

theorem OptionalFileSets.optionalLayer_eq (sets : OptionalFileSets host p layer) (title : String) :
    optionalLayer host title p = .ok layer := by
  cases sets with
  | absent none => simp [optionalLayer, layerOrElse, none, Except.mapError]
  | present sets => exact sets.layerOrElse_eq title _

theorem OptionalFileSets.nodup_keys (sets : OptionalFileSets host p layer) : layer.keys.Nodup := by
  cases sets with
  | absent none => exact List.nodup_nil
  | present sets => exact sets.nodup_keys

theorem NamedFileSets.explicitLayer_eq {named : Option Path} (sets : NamedFileSets host named layer) :
    explicitLayer host named = .ok layer := by
  cases sets with
  | absent => rfl
  | present sets => exact sets.layerOrElse_eq _ _

theorem NamedFileSets.nodup_keys {named : Option Path} (sets : NamedFileSets host named layer) :
    layer.keys.Nodup := by
  cases sets with
  | absent => exact List.nodup_nil
  | present sets => exact sets.nodup_keys

end Files

section Environment

variable {host : Host} {layer : Keyed Value} {said : Setting → Option Value}

theorem EnvironmentSets.variableEntry_eq (sets : EnvironmentSets host layer said) (s : Setting) :
    variableEntry host s = .ok ((said s).map (s.key, ·)) := by
  rw [variableEntry]
  cases text : host.environment.get? s.variableName with
  | none => simp only [sets.unset s text, Option.map_none]
  | some given => simp only [sets.reads s given text]

theorem EnvironmentSets.environmentLayer_eq (sets : EnvironmentSets host layer said) :
    environmentLayer host = .ok layer := by
  have each : variableEntry host = fun s => pure ((said s).map (s.key, ·)) :=
    funext sets.variableEntry_eq
  rw [environmentLayer, each, List.mapM_pure, sets.layer_eq]
  rw [pure_bind, List.filterMap_map]
  rfl

theorem EnvironmentSets.nodup_keys (sets : EnvironmentSets host layer said) : layer.keys.Nodup := by
  have part (settings : List Setting) :
      (Keyed.keys (settings.filterMap fun s => (said s).map (s.key, ·))).Sublist
        (settings.map Setting.key) := by
    induction settings with
    | nil => exact List.Sublist.refl _
    | cons s settings ih =>
      rw [List.filterMap_cons]
      cases said s with
      | none => exact ih.cons _
      | some v => exact ih.cons_cons _
  have keys : (Setting.all.map Setting.key).Nodup := by decide
  rw [sets.layer_eq]
  exact keys.sublist (part Setting.all)

theorem environmentSets_singleton {s : Setting} {text : String} {v : Value}
    (environment : host.environment = [(s.variableName, text)]) (reads : s.hint.read s.key text = .ok (some v)) :
    EnvironmentSets host [(s.key, v)] fun t => if t = s then some v else none := by
  have given (t : Setting) : host.environment.get? t.variableName = if t = s then some text else none := by
    rw [environment]
    change List.lookup t.variableName [(s.variableName, text)] = _
    by_cases same : t = s
    · simp [List.lookup, same]
    · simp [List.lookup, same, beq_eq_false_iff_ne.2 (mt Setting.variableName_injective same)]
  refine ⟨fun t unset => ?_, fun t found set => ?_, ?_⟩
  · rw [given] at unset
    split at unset
    next => cases unset
    next other => exact if_neg other
  · rw [given] at set
    split at set
    next same =>
      cases set
      subst same
      rw [reads, if_pos rfl]
    next => cases set
  · cases s <;> rfl

end Environment

section Load

variable {host : Host} {named : Option Path} {overrides : Keyed Value} {l : Layers}

theorem Layers.Read.load_eq_merge (h : l.Read host named overrides) :
    load host named overrides =
      (ofLayer (merge [l.home, l.project, l.named, l.environment, overrideLayer overrides])).mapError
        asFault := by
  obtain ⟨home, homeTold, homeSets⟩ := h.home
  obtain ⟨project, projectTold, projectSets⟩ := h.project
  obtain ⟨said, environment⟩ := h.environment
  have read : layers host named overrides =
      .ok [l.home, l.project, l.named, l.environment, overrideLayer overrides] := by
    simp only [layers, homeFile_eq_ok_iff.2 ⟨home, homeTold, rfl⟩, projectFile_eq_ok_iff.2 ⟨project, projectTold, rfl⟩,
      bind, Except.bind, homeSets.optionalLayer_eq, projectSets.optionalLayer_eq, h.named.explicitLayer_eq,
      environment.environmentLayer_eq]
    rfl
  rw [load, Keyed.get?_eq_none_iff.2 h.free, read]
  rfl

theorem Layers.Read.load_eq (h : l.Read host named overrides) :
    load host named overrides = (ofLayer (overlay l.all)).mapError asFault := by
  obtain ⟨home, -, homeSets⟩ := h.home
  obtain ⟨project, -, projectSets⟩ := h.project
  obtain ⟨said, environment⟩ := h.environment
  have distinct : ∀ layer ∈ [l.home, l.project, l.named, l.environment, overrideLayer overrides],
      layer.keys.Nodup := by
    simp only [List.forall_mem_cons]
    exact ⟨homeSets.nodup_keys, projectSets.nodup_keys, h.named.nodup_keys, environment.nodup_keys,
      nodup_keys_overrideLayer h.distinct, List.forall_mem_nil _⟩
  rw [h.load_eq_merge, merge_eq_overlay distinct, Layers.all, h.overriding_eq]
  apply congrArg (Except.mapError asFault)
  apply ofLayer_overlay_congr [l.home, l.project, l.named, l.environment] []
  · intro key
    exact .inl (get?_overrideLayer h.distinct key)
  · exact unknownKeys_overrideLayer overrides

def unknownFault (name : String) : Fault :=
  .general ("Invalid configuration: " ++ (unknownDefect name).message)

/-- Loading settings gives what the overlay of all layers gives. What a layer says of a key that a stronger one sets does
not matter, be it valid or not, but no layer may set a key that names no setting. -/
theorem load_eq_overlay (h : l.Read host named overrides) :
    load host named overrides = (ofLayer (overlay l.all)).mapError asFault ∧
    (∀ s, load host named overrides = .ok s →
      ∀ setting, s.value setting = (strongest l.all setting.key).getD setting.standard) ∧
    (∀ (host' : Host) (named' : Option Path) (overrides' : Keyed Value) (l' : Layers) (key : String),
      l'.Read host' named' overrides' → Shadowed key l.all l'.all →
        load host' named' overrides' = load host named overrides) ∧
    ∀ layer ∈ l.all, ∀ key ∈ layer.keys, Setting.ofKey? key = none →
      ∃ name others, unknownKeys (overlay l.all) = name :: others ∧
        load host named overrides = .error (.fault (unknownFault name)) := by
  refine ⟨h.load_eq, ?_, ?_, ?_⟩
  · intro s loaded setting
    rw [h.load_eq] at loaded
    cases result : ofLayer (overlay l.all) with
    | error e =>
      rw [result] at loaded
      cases loaded
    | ok own =>
      rw [result] at loaded
      cases loaded
      rw [← get?_overlay, (ofLayer_eq_ok result).1, fill]
  · intro host' named' overrides' l' key h' shadowed
    rw [h.load_eq, h'.load_eq]
    exact congrArg (Except.mapError asFault) shadowed.ofLayer_eq.symm
  · intro layer member key set unknown
    have named : key ∈ unknownKeys (overlay l.all) := by
      rw [unknownKeys_overlay, List.mem_eraseDups, List.mem_flatMap]
      exact ⟨layer, member, List.mem_filter.2 ⟨set, Option.isNone_iff_eq_none.2 unknown⟩⟩
    obtain ⟨name, others, first⟩ := List.exists_cons_of_ne_nil (List.ne_nil_of_mem named)
    refine ⟨name, others, first, ?_⟩
    rw [h.load_eq, ofLayer_of_unknown first, Except.mapError, asFault, isOfType_unknownDefect, if_pos rfl,
      unknownFault]

end Load

section Desk

def desk (homeText : String) : Host where
  files := .directory
    [("h", .directory [(".cyclospace.toml", .file homeText.toUTF8)]),
      ("w", .directory [("cyclospace.toml", .file "[cyclospace]\nworkers = 3".toUTF8)])]
  home := ⟨.slash, ["h"]⟩
  work := ⟨.slash, ["w"]⟩
  environment := [("CYCLOSPACE_MAX_FILES", "7")]

def deskLayers (workers : Value) : Layers where
  home := [("workers", workers)]
  project := [("workers", .whole 3)]
  named := []
  environment := [("max_files", .whole 7)]
  overrides := [("verbosity", .text "verbose")]

def deskSwitches : Keyed Value := [("quiet", .flag false), ("verbose", .flag true)]

variable {homeText : String} {workers : Value}

theorem readTable_of_descend {host : Host} {p : Path} {bytes : ByteArray} {text : String}
    {entries : Toml.Entries} (short : p.size < FileTree.pathLimit) (absolute : p.root ≠ .none)
    (clean : p.hasNull = false) (ordinary : ∀ name ∈ p.parts, FileTree.OrdinaryName name)
    (found : host.files.descend p.parts = some (.file bytes)) (readable : host.readable p.parts = true)
    (decoded : Text.decode? bytes = some text) (read : Toml.read text = .ok entries) :
    host.exists? p = .ok true ∧ readTable host p = .ok entries := by
  have entry (work : List String) : host.files.entry work true p = .ok (.file bytes) :=
    FileTree.entry_of_descend short absolute ordinary found rfl
  have located : host.locate p = .ok ⟨p.parts, FileTree.linkLimit⟩ :=
    FileTree.locate_of_descend short absolute ordinary found rfl
  constructor
  · simp [Host.exists?, Host.entry, clean, entry]
  · simp [readTable, Host.read, FileTree.read, located, entry, readable, decoded, read, Except.mapError, bind,
      Except.bind, pure, Except.pure]

theorem environmentSets_desk (homeText : String) :
    EnvironmentSets (desk homeText) [("max_files", .whole 7)] fun s =>
      if s = .maxFiles then some (.whole 7) else none := by
  have given : (desk homeText).environment = [(Setting.maxFiles.variableName, "7")] := by
    rw [Setting.variableName_eq]
    rfl
  exact environmentSets_singleton given (by cbv)

def deskHome : Path := ⟨.slash, ["h", ".cyclospace.toml"]⟩

def deskProject : Path := ⟨.slash, ["w", "cyclospace.toml"]⟩

theorem homeDirectory_desk (homeText : String) : (desk homeText).homeDirectory = .ok ⟨.slash, ["h"]⟩ := by
  have unset : (desk homeText).environment.get? Host.homeVariable = none := by
    change List.lookup "HOME" [("CYCLOSPACE_MAX_FILES", "7")] = none
    decide
  simp only [Host.homeDirectory, unset]
  rfl

theorem fileSets_home (read : Toml.read homeText = .ok [(.text "workers", workers)]) :
    FileSets (desk homeText) deskHome [("workers", workers)] := by
  have short : deskHome.size < FileTree.pathLimit := by decide
  have ordinary : ∀ name ∈ deskHome.parts, FileTree.OrdinaryName name := by decide
  have clean : deskHome.hasNull = false := Path.hasNull_of_parts (by decide)
  have entry : (desk homeText).files.descend deskHome.parts = some (.file homeText.toUTF8) := rfl
  obtain ⟨found, table⟩ :=
    readTable_of_descend short (by decide) clean ordinary entry rfl (Text.decode?_toUTF8 homeText) read
  exact .topLevel found table (by simp [tableName])

theorem fileSets_project (homeText : String) :
    FileSets (desk homeText) deskProject [("workers", .whole 3)] := by
  have short : deskProject.size < FileTree.pathLimit := by decide
  have ordinary : ∀ name ∈ deskProject.parts, FileTree.OrdinaryName name := by decide
  have clean : deskProject.hasNull = false := Path.hasNull_of_parts (by decide)
  have entry : (desk homeText).files.descend deskProject.parts
      = some (.file "[cyclospace]\nworkers = 3".toUTF8) := rfl
  have read : Toml.read "[cyclospace]\nworkers = 3"
      = .ok [(.text "cyclospace", .table [(.text "workers", .whole 3)])] := by cbv
  obtain ⟨found, table⟩ :=
    readTable_of_descend short (by decide) clean ordinary entry rfl (Text.decode?_toUTF8 _) read
  exact .ownTable found table List.mem_cons_self

theorem read_desk (read : Toml.read homeText = .ok [(.text "workers", workers)]) :
    (deskLayers workers).Read (desk homeText) none deskSwitches where
  home := ⟨_, homeDirectory_desk homeText, .present (fileSets_home read)⟩
  project := ⟨⟨.slash, ["w"]⟩, rfl, .present (fileSets_project homeText)⟩
  named := .absent
  environment := ⟨_, environmentSets_desk homeText⟩
  overriding_eq := rfl
  distinct := by decide
  free := by decide

theorem load_eq_overlay_of_desk :
    load (desk "workers = 0") none deskSwitches
      = (ofLayer (overlay (deskLayers (.whole 0)).all)).mapError asFault ∧
    load (desk "workers = 'many'") none deskSwitches = load (desk "workers = 0") none deskSwitches := by
  have zero : (deskLayers (.whole 0)).Read (desk "workers = 0") none deskSwitches :=
    read_desk (by cbv)
  have many : (deskLayers (.text "many")).Read (desk "workers = 'many'") none deskSwitches :=
    read_desk (by cbv)
  have shadowed : Shadowed "workers" (deskLayers (.whole 0)).all (deskLayers (.text "many")).all := by
    apply Shadowed.intro [] (deskLayers .null).all.tail
    · intro other different
      change Keyed.get? [("workers", Value.whole 0)] other = Keyed.get? [("workers", .text "many")] other
      rw [Keyed.get?_cons, Keyed.get?_cons, if_neg different, if_neg different]
    · rfl
    · exact ⟨_, List.mem_cons_self, List.mem_cons_self⟩
  obtain ⟨merged, -, unchanged, -⟩ := load_eq_overlay zero
  exact ⟨merged, unchanged _ _ _ _ "workers" many shadowed⟩

end Desk

end Settings

end ScopeComplexity
