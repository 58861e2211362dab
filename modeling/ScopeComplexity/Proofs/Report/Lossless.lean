import ScopeComplexity.Proofs.Report.Account

namespace ScopeComplexity

open Json (Document)

namespace Json.Document

variable {α : Type}

/-- Documents that tell the same. The order of the members of an object tells nothing. -/
inductive Same : Document α → Document α → Prop where
  | null : Same .null .null
  | text (value : String) : Same (.text value) (.text value)
  | count (value : Int) : Same (.count value) (.count value)
  | amount (value : α) : Same (.amount value) (.amount value)
  | list {items others : List (Document α)} (each : List.Forall₂ Same items others) :
      Same (.list items) (.list others)
  | object {members others : List (String × Document α)}
      (each : ∀ key, Option.Rel Same (members.lookup key) (others.lookup key)) :
      Same (.object members) (.object others)

theorem same_refl (d : Document α) : d.Same d := by
  cases d with
  | null => exact .null
  | text value => exact .text value
  | count value => exact .count value
  | amount value => exact .amount value
  | list items => exact .list (List.forall₂_same.2 fun item member => same_refl item)
  | object members =>
    refine .object fun key => ?_
    cases found : members.lookup key with
    | none => exact .none
    | some d => exact .some (same_refl d)
termination_by sizeOf d
decreasing_by
  · have := List.sizeOf_lt_of_mem member
    simp only [Document.list.sizeOf_spec]
    omega
  · have := sizeOf_lt_of_lookup found
    simp only [Document.object.sizeOf_spec]
    omega

namespace Same

variable {members others : List (String × Document α)} {d e : Document α}

theorem text_eq {a b : String} (h : Same (.text a) (.text b : Document α)) : a = b := by
  cases h
  rfl

theorem count_eq {a b : Int} (h : Same (.count a) (.count b : Document α)) : a = b := by
  cases h
  rfl

theorem amount_eq {a b : α} (h : Same (.amount a) (.amount b)) : a = b := by
  cases h
  rfl

theorem items {items others : List (Document α)} (h : Same (.list items) (.list others)) :
    List.Forall₂ Same items others := by
  cases h with
  | list each => exact each

theorem lookup (h : Same (.object members) (.object others)) (key : String) :
    Option.Rel Same (members.lookup key) (others.lookup key) := by
  cases h with
  | object each => exact each key

theorem member (h : Same (.object members) (.object others)) (key : String) (found : members.lookup key = some d)
    (found' : others.lookup key = some e) : d.Same e := by
  have related := h.lookup key
  rw [found, found'] at related
  cases related with
  | some same => exact same

end Same

section Telling

variable {β : Type} {R : β → Document α → Prop}

/-- Values that are not told apart by their documents are equal. -/
def Telling (R : β → Document α → Prop) (a b : β) : Prop :=
  ∀ d e, R a d → R b e → d.Same e → a = b

theorem eq_of_same_items {xs ys : List β} {items others : List (Document α)} (told : List.Forall₂ R xs items)
    (told' : List.Forall₂ R ys others) (same : List.Forall₂ Same items others)
    (telling : ∀ a ∈ xs, ∀ b ∈ ys, Telling R a b) : xs = ys := by
  induction told generalizing ys others with
  | nil =>
    cases same
    cases told'
    rfl
  | cons first _ ih =>
    cases same with
    | cons sameFirst same =>
      cases told' with
      | cons first' told' =>
        rw [telling _ List.mem_cons_self _ List.mem_cons_self _ _ first first' sameFirst, ih told' same
          fun a memberA b memberB => telling a (List.mem_cons_of_mem _ memberA) b (List.mem_cons_of_mem _ memberB)]

theorem eq_of_same_option {a b : Option β} {found found' : Option (Document α)} (told : Option.Rel R a found)
    (told' : Option.Rel R b found') (same : Option.Rel Same found found')
    (telling : ∀ v ∈ a, ∀ w ∈ b, Telling R v w) : a = b := by
  cases told with
  | none =>
    cases same
    cases told'
    rfl
  | some first =>
    cases same with
    | some same =>
      cases told' with
      | some first' => exact congrArg _ (telling _ rfl _ rfl _ _ first first' same)

def Tells (R : β → Document α → Prop) (m : Keyed β) (members : List (String × Document α)) : Prop :=
  List.Forall₂ (fun entry member => member.1 = entry.1 ∧ R entry.2 member.2) m members

theorem Tells.lookup {m : Keyed β} {members : List (String × Document α)} (told : Tells R m members)
    (key : String) : Option.Rel R (m.get? key) (members.lookup key) := by
  induction told with
  | nil => exact .none
  | @cons entry member _ _ first _ ih =>
    obtain ⟨k, v⟩ := entry
    obtain ⟨k', d⟩ := member
    obtain ⟨rfl, first⟩ := first
    change Option.Rel R _ (Keyed.get? _ _)
    rw [Keyed.get?_cons, Keyed.get?_cons]
    split
    next => exact .some first
    next => exact ih

theorem perm_of_same_members {m m' : Keyed β} {members others : List (String × Document α)}
    (distinct : m.keys.Nodup) (distinct' : m'.keys.Nodup) (told : Tells R m.sorted members)
    (told' : Tells R m'.sorted others) (same : Same (.object members) (.object others))
    (telling : ∀ a ∈ m, ∀ b ∈ m', Telling R a.2 b.2) : m.Perm m' := by
  have alike : ∀ key, m.sorted.get? key = m'.sorted.get? key := by
    intro key
    refine eq_of_same_option (told.lookup key) (told'.lookup key) (same.lookup key) fun v found w found' => ?_
    have member := m.sorted_perm.mem_iff.1 (Keyed.mem_of_get?_eq_some found)
    have member' := m'.sorted_perm.mem_iff.1 (Keyed.mem_of_get?_eq_some found')
    exact telling _ member _ member'
  have sorted : m.sorted.Perm m'.sorted :=
    Keyed.perm_of_get?_eq ((m.sorted_perm.map _).nodup_iff.2 distinct) ((m'.sorted_perm.map _).nodup_iff.2 distinct')
      alike
  exact m.sorted_perm.symm.trans (sorted.trans m'.sorted_perm)

end Telling

end Json.Document

open Json.Document (Same Telling Tells)

section Scopes

variable {α : Type} [Measure α]

theorem Summary.eq_of_same {m m' : Summary α} {d d' : Document α} (recorded : m.record = .ok d)
    (recorded' : m'.record = .ok d') (same : d.Same d') (count : m.count = m'.count) : m = m' := by
  obtain ⟨average, -, written⟩ := Scope.bind_eq_ok_iff.1 recorded
  obtain ⟨average', -, written'⟩ := Scope.bind_eq_ok_iff.1 recorded'
  cases written
  cases written'
  have sum := (same.member "sum" rfl rfl).amount_eq
  have least := (same.member "min" rfl rfl).amount_eq
  have greatest := (same.member "max" rfl rfl).amount_eq
  cases m
  cases m'
  congr

namespace Scope

omit [Measure α] in
theorem nameDocument_eq_of_same {name name' : Option String}
    (same : Same (nameDocument name : Document α) (nameDocument name')) : name = name' := by
  cases name with
  | none =>
    cases name' with
    | none => rfl
    | some name' => cases same
  | some name =>
    cases name' with
    | none => cases same
    | some name' => exact congrArg some same.text_eq

/-- The number of the scopes in a tree is not in its document, but follows from the documents nested there. -/
theorem telling_of_grown {s t : Scope α} (grown : ∀ u ∈ s.walk, u.Grown) (grown' : ∀ u ∈ t.walk, u.Grown) :
    Telling (fun u d => u.record = .ok d) s t := by
  induction s using induction generalizing t with
  | scope s ih =>
    intro d d' recorded recorded' same
    rw [forall_mem_walk] at grown grown'
    obtain ⟨metrics, nested, own, inner, rfl⟩ := written_of_record recorded
    obtain ⟨metrics', nested', own', inner', rfl⟩ := written_of_record recorded'
    have name := nameDocument_eq_of_same (same.member "name" rfl rfl)
    have kind := ScopeKind.text_injective (same.member "kind" rfl rfl).text_eq
    have startLine := (same.member "start_line" rfl rfl).count_eq
    have endLine := (same.member "end_line" rfl rfl).count_eq
    have cyclomatic := (same.member "cyclomatic" rfl rfl).amount_eq
    have figures := (same.member "metrics" rfl rfl).member "cyclomatic" rfl rfl
    have spaces := (same.member "spaces" rfl rfl).items
    have scopes : s.scopes = t.scopes := Json.Document.eq_of_same_items inner inner' spaces fun c member c' member' =>
      ih c member (grown.2 c member) (grown'.2 c' member')
    have count : s.metrics.count = t.metrics.count := by rw [grown.1.count, grown'.1.count, scopes]
    have summary := Summary.eq_of_same own own' figures count
    cases s
    cases t
    congr

end Scope

end Scopes

namespace Report

section Files

variable {α : Type} [Measure α] {r r' : Report α}

theorem exists_record (means : ∀ file ∈ r.files, ∀ t ∈ file.2.walk, t.metrics.HasMean)
    (mean : ∀ whole, r.summary = some whole → whole.HasMean) (withScopes : Bool) :
    ∃ d, r.record withScopes = .ok d := by
  have each : ∀ file ∈ r.files.sorted, ∃ entry : String × Document α,
      (do return (file.1, ← recordFile withScopes file.2)) = (.ok entry : Except NoMean _) := by
    intro file member
    obtain ⟨d, recorded⟩ := exists_recordFile withScopes (means file (r.files.sorted_perm.mem_iff.1 member))
    exact ⟨(file.1, d), by rw [recorded]; rfl⟩
  have summary : ∃ d, recordSummary r.summary = .ok d := by
    cases found : r.summary with
    | none => exact ⟨.null, rfl⟩
    | some whole => exact (mean whole found).exists_record
  obtain ⟨files, recorded⟩ := exists_mapM each
  obtain ⟨whole, summary⟩ := summary
  rw [record, recordFiles_eq_mapM, recorded, summary]
  exact ⟨_, rfl⟩

theorem record_inv {d : Document α} (h : r.record true = .ok d) :
    ∃ whole files, Tells (fun s e => s.record = .ok e) r.files.sorted files ∧
      d = .object [("summary", whole), ("files", .object files),
        ("errors", .object (r.errors.sorted.map fun (path, reason) => (path, .text reason)))] := by
  obtain ⟨files, recorded, h⟩ := Scope.bind_eq_ok_iff.1 h
  obtain ⟨whole, -, h⟩ := Scope.bind_eq_ok_iff.1 h
  cases h
  rw [recordFiles_eq_mapM] at recorded
  refine ⟨whole, files, (Scope.forall₂_of_mapM recorded).imp ?_, rfl⟩
  rintro ⟨path, scope⟩ entry made
  obtain ⟨d, own, made⟩ := Scope.bind_eq_ok_iff.1 made
  cases made
  exact ⟨rfl, own⟩

omit [Measure α] in
theorem tells_errors (errors : Keyed String) :
    Tells (fun reason (d : Document α) => d = .text reason) errors
      (errors.map fun (path, reason) => (path, .text reason)) := by
  rw [Tells, List.forall₂_map_right_iff, List.forall₂_same]
  exact fun error _ => ⟨rfl, rfl⟩

theorem perm_of_same (files : r.files.keys.Nodup) (files' : r'.files.keys.Nodup) (errors : r.errors.keys.Nodup)
    (errors' : r'.errors.keys.Nodup) (grown : ∀ file ∈ r.files, ∀ t ∈ file.2.walk, t.Grown)
    (grown' : ∀ file ∈ r'.files, ∀ t ∈ file.2.walk, t.Grown) {d d' : Document α} (recorded : r.record true = .ok d)
    (recorded' : r'.record true = .ok d') (same : d.Same d') :
    r.files.Perm r'.files ∧ r.errors.Perm r'.errors := by
  obtain ⟨whole, documents, told, rfl⟩ := record_inv recorded
  obtain ⟨whole', documents', told', rfl⟩ := record_inv recorded'
  constructor
  · have same := same.member "files" rfl rfl
    exact Json.Document.perm_of_same_members files files' told told' same fun file member file' member' =>
      Scope.telling_of_grown (grown file member) (grown' file' member')
  · have same := same.member "errors" rfl rfl
    refine Json.Document.perm_of_same_members errors errors' (tells_errors _) (tells_errors _) same ?_
    rintro error - error' - _ _ rfl rfl same
    exact same.text_eq

theorem summary_perm (distinct : r.files.keys.Nodup) (files : r.files.Perm r'.files) : r.summary = r'.summary := by
  rw [summary, summary, Keyed.sorted_congr distinct files]

end Files

/-- Its scope trees come of syntax trees, and no path comes twice. -/
structure Built (r : Report Rat) : Prop where
  files : r.files.keys.Nodup
  errors : r.errors.keys.Nodup
  trees : ∀ file ∈ r.files, file.2.Built

end Report

theorem Summary.Totals.hasMean {m : Summary Rat} {scopes : List (Scope Rat)} (h : m.Totals scopes) : m.HasMean := by
  obtain ⟨average, mean, -⟩ := h.mean
  exact ⟨average, mean⟩

theorem Scope.Built.hasMean {t : Scope Rat} (h : t.Built) : ∀ s ∈ t.walk, s.metrics.HasMean :=
  fun _ member => (Scope.totals_of_grown h.grown member).hasMean

namespace Report.Built

variable {r r' : Report Rat}

theorem grown (h : r.Built) : ∀ file ∈ r.files, ∀ t ∈ file.2.walk, t.Grown :=
  fun file member => (h.trees file member).grown

theorem exists_record (h : r.Built) (withScopes : Bool) : ∃ d, r.record withScopes = .ok d := by
  refine Report.exists_record (fun file member => (h.trees file member).hasMean) (fun whole found => ?_) withScopes
  exact ((covers_summary h.grown found).totals (List.forall_mem_flatMap.2 h.grown)).hasMean

end Report.Built

/-- Scope trees that were built have documents, and the same ones only if they are the same trees. Reports on such trees
have the same documents only if they have the same files and errors, in whichever order, and so the same summaries.
A limit to recursion is not modelled. -/
theorem record_lossless :
    (∀ t t' : Scope Rat, t.Built → t'.Built →
      ∃ d d', t.record = .ok d ∧ t'.record = .ok d' ∧ (d.Same d' ↔ t = t')) ∧
    ∀ r r' : Report Rat, r.Built → r'.Built →
      ∃ d d', r.record true = .ok d ∧ r'.record true = .ok d' ∧
        (d.Same d' ↔ r.files.Perm r'.files ∧ r.errors.Perm r'.errors) ∧ (d.Same d' → r.summary = r'.summary) := by
  constructor
  · intro t t' built built'
    obtain ⟨d, recorded⟩ := Scope.exists_record built.hasMean
    obtain ⟨d', recorded'⟩ := Scope.exists_record built'.hasMean
    refine ⟨d, d', recorded, recorded', ?_, ?_⟩
    · exact Scope.telling_of_grown built.grown built'.grown d d' recorded recorded'
    · rintro rfl
      cases recorded.symm.trans recorded'
      exact d.same_refl
  · intro r r' built built'
    obtain ⟨d, recorded⟩ := built.exists_record true
    obtain ⟨d', recorded'⟩ := built'.exists_record true
    have entries : d.Same d' → r.files.Perm r'.files ∧ r.errors.Perm r'.errors :=
      Report.perm_of_same built.files built'.files built.errors built'.errors built.grown built'.grown recorded recorded'
    refine ⟨d, d', recorded, recorded', ⟨entries, ?_⟩, ?_⟩
    · rintro ⟨files, errors⟩
      rw [Report.record_perm built.files built.errors files errors, recorded] at recorded'
      cases recorded'
      exact d.same_refl
    · intro same
      exact Report.summary_perm built.files (entries same).1

theorem record_lossless_of_longer :
    let file := fun endRow => (Scope.ofNode Language.python.rules (.root (.node { kind := "module" }
      [.node { kind := "function_definition", endRow } []])) none : Scope Rat)
    (∃ d d', (file 1).record = .ok d ∧ (file 2).record = .ok d' ∧ ¬d.Same d') ∧
      ∃ d d', (⟨[("b.py", file 1), ("a.py", file 2)], []⟩ : Report Rat).record true = .ok d ∧
        (⟨[("a.py", file 2), ("b.py", file 1)], []⟩ : Report Rat).record true = .ok d' ∧ d.Same d' := by
  intro file
  have built : ∀ endRow, (file endRow).Built := fun _ => ⟨_, _, _, Scope.ofSite_eq_ofNode _ _ _⟩
  constructor
  · obtain ⟨d, d', recorded, recorded', same⟩ := record_lossless.1 (file 1) (file 2) (built 1) (built 2)
    refine ⟨d, d', recorded, recorded', fun h => ?_⟩
    have lines := congrArg (fun s => s.scopes.map (·.endLine)) (same.1 h)
    exact absurd lines (by decide)
  · obtain ⟨d, d', recorded, recorded', same, -⟩ := record_lossless.2 ⟨[("b.py", file 1), ("a.py", file 2)], []⟩
      ⟨[("a.py", file 2), ("b.py", file 1)], []⟩ ⟨by simp [Keyed.keys], by simp [Keyed.keys], by simp [built]⟩
      ⟨by simp [Keyed.keys], by simp [Keyed.keys], by simp [built]⟩
    exact ⟨d, d', recorded, recorded', same.2 ⟨List.Perm.swap _ _ _, List.Perm.refl _⟩⟩

end ScopeComplexity
