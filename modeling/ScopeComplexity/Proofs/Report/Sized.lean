import ScopeComplexity.Proofs.Report.Account

namespace ScopeComplexity

theorem Keyed.sum_map_put_le {β : Type} (m : Keyed β) (key : String) (value : β) (f : String × β → Nat) :
    ((m.put key value).map f).sum ≤ (m.map f).sum + f (key, value) := by
  induction m with
  | nil => simp [put]
  | cons first rest ih =>
    obtain ⟨k, v⟩ := first
    rw [put]
    split <;> simp only [List.map_cons, List.sum_cons] <;> omega

namespace Report

/-- All scopes in a report were summed up as they are built, and there are no more than so many. -/
structure Sized {α : Type} [Measure α] (r : Report α) (limit : Nat) : Prop where
  grown : ∀ file ∈ r.files, ∀ t ∈ file.2.walk, t.Grown
  scopes : (r.files.map fun file => file.2.walk.length).sum ≤ limit

namespace Sized

section Entries

variable {α : Type} [Measure α] {r : Report α} {limit : Nat}

theorem empty : ({} : Report α).Sized 0 := ⟨List.forall_mem_nil _, le_rfl⟩

theorem addFile (h : r.Sized limit) {scope : Scope α} (grown : ∀ t ∈ scope.walk, t.Grown) {more : Nat}
    (size : scope.walk.length ≤ more) (path : String) : (r.addFile path scope).Sized (limit + more) where
  grown file member := by
    rcases Keyed.mem_put member with rfl | member
    · exact grown
    · exact h.grown file member
  scopes := (Keyed.sum_map_put_le _ _ _ _).trans (Nat.add_le_add h.scopes size)

theorem addError (h : r.Sized limit) (path reason : String) : (r.addError path reason).Sized limit := ⟨h.1, h.2⟩

theorem mono (h : r.Sized limit) {limit' : Nat} (le : limit ≤ limit') : r.Sized limit' :=
  ⟨h.grown, h.scopes.trans le⟩

theorem length_walk_le (h : r.Sized limit) {file : String × Scope α} (member : file ∈ r.files) :
    file.2.walk.length ≤ limit :=
  (List.single_le_sum (fun _ _ => Nat.zero_le _) _ (List.mem_map_of_mem member)).trans h.scopes

theorem count_summary (h : r.Sized limit) {whole : Summary α} (found : r.summary = some whole) :
    0 < whole.count ∧ whole.count ≤ limit := by
  have each : r.files.map (·.2.metrics.count) = r.files.map fun file => (file.2.walk.length : Int) :=
    List.map_congr_left fun file member => Scope.count_eq_length_walk (h.grown file member)
  have count : whole.count = (r.files.map fun file => file.2.walk.length).sum := by
    rw [Report.count_summary found, each, Nat.cast_list_sum, List.map_map]
    rfl
  obtain ⟨file, others, files⟩ := List.exists_cons_of_ne_nil (files_ne_nil_of_summary found)
  have first : 0 < file.2.walk.length := List.length_pos_of_mem file.2.mem_walk_self
  have total := h.scopes
  rw [files, List.map_cons, List.sum_cons] at count total
  omega

end Entries

section Means

variable {r : Report Float} {limit : Nat}

theorem exists_account (h : r.Sized limit) (small : limit < Decimal.Binary64.wholeLimit) (withScopes : Bool) :
    ∃ a : Account, r.record withScopes = .ok a.document ∧ ∀ trees, r.shown trees = .ok (a.page trees) := by
  have means : ∀ file ∈ r.files, ∀ t ∈ file.2.walk, t.metrics.HasMean := fun file member =>
    Scope.hasMean_of_grown (h.grown file member) ((h.length_walk_le member).trans_lt small)
  have mean : ∀ whole, r.summary = some whole → whole.HasMean := by
    intro whole found
    obtain ⟨positive, le⟩ := h.count_summary found
    exact Summary.hasMean_of_count positive (by omega)
  obtain ⟨a, recorded, shown, -⟩ := Report.exists_account means mean withScopes
  exact ⟨a, recorded, shown⟩

theorem exists_record (h : r.Sized limit) (small : limit < Decimal.Binary64.wholeLimit) (withScopes : Bool) :
    ∃ document, r.record withScopes = .ok document := by
  obtain ⟨a, recorded, -⟩ := h.exists_account small withScopes
  exact ⟨_, recorded⟩

theorem exists_shown (h : r.Sized limit) (small : limit < Decimal.Binary64.wholeLimit) (withScopes : Bool) :
    ∃ shown, r.shown withScopes = .ok shown := by
  obtain ⟨a, -, shown⟩ := h.exists_account small withScopes
  exact ⟨_, shown withScopes⟩

end Means

end Sized

end Report

end ScopeComplexity
