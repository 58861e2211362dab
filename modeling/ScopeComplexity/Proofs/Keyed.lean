import Mathlib.Data.List.Nodup
import Mathlib.Data.String.Basic
import ScopeComplexity.Keyed

namespace ScopeComplexity.Keyed

variable {β : Type}

theorem sorted_perm (m : Keyed β) : m.sorted.Perm m := List.mergeSort_perm _ _

theorem sorted_eq_nil_iff {m : Keyed β} : m.sorted = [] ↔ m = [] := by
  constructor
  · intro h
    exact (h ▸ m.sorted_perm).nil_eq.symm
  · intro h
    subst h
    exact (sorted_perm []).eq_nil

theorem pairwise_sorted (m : Keyed β) : m.sorted.Pairwise fun a b => a.1 ≤ b.1 := by
  have sorted : m.sorted.Pairwise fun a b => decide (a.1 ≤ b.1) = true := by
    apply List.pairwise_mergeSort
    · intro a b c ab bc
      rw [decide_eq_true_iff] at *
      exact ab.trans bc
    · intro a b
      rw [← Bool.decide_or, decide_eq_true_iff]
      exact le_total a.1 b.1
  exact sorted.imp fun h => of_decide_eq_true h

theorem eq_of_key_eq {m : Keyed β} (distinct : m.keys.Nodup) {a b : String × β} (ha : a ∈ m)
    (hb : b ∈ m) (same : a.1 = b.1) : a = b :=
  List.inj_on_of_nodup_map distinct ha hb same

theorem sorted_congr {m m' : Keyed β} (distinct : m.keys.Nodup) (h : m.Perm m') :
    m.sorted = m'.sorted := by
  apply List.Perm.eq_of_pairwise _ m.pairwise_sorted m'.pairwise_sorted
  · exact m.sorted_perm.trans (h.trans m'.sorted_perm.symm)
  · intro a b ha hb ab ba
    have ha : a ∈ m := m.sorted_perm.mem_iff.1 ha
    have hb : b ∈ m := h.mem_iff.2 (m'.sorted_perm.mem_iff.1 hb)
    exact eq_of_key_eq distinct ha hb (le_antisymm ab ba)

theorem put_of_not_mem {m : Keyed β} {key : String} (fresh : key ∉ m.keys) (value : β) :
    m.put key value = m ++ [(key, value)] := by
  induction m with
  | nil => rfl
  | cons entry rest ih =>
    obtain ⟨k, v⟩ := entry
    have other : k ≠ key := fun same => fresh (same ▸ List.mem_cons_self)
    rw [put, if_neg other, ih fun h => fresh (List.mem_cons_of_mem _ h)]
    rfl

theorem mem_put {m : Keyed β} {key : String} {value : β} {entry : String × β} (h : entry ∈ m.put key value) :
    entry = (key, value) ∨ entry ∈ m := by
  induction m with
  | nil => exact .inl (List.mem_singleton.1 h)
  | cons first rest ih =>
    rw [put] at h
    split at h
    next =>
      rcases List.mem_cons.1 h with rfl | h
      · exact .inl rfl
      · exact .inr (List.mem_cons_of_mem _ h)
    next =>
      rcases List.mem_cons.1 h with rfl | h
      · exact .inr List.mem_cons_self
      · exact (ih h).imp_right (List.mem_cons_of_mem _)

theorem mem_of_get?_eq_some {m : Keyed β} {key : String} {value : β}
    (h : m.get? key = some value) : (key, value) ∈ m := by
  obtain ⟨before, after, rfl, -⟩ := List.lookup_eq_some_iff.1 h
  simp

theorem get?_eq_none_iff {m : Keyed β} {key : String} : m.get? key = none ↔ key ∉ m.keys := by
  rw [get?, List.lookup_eq_none_iff, keys, List.mem_map]
  constructor
  · rintro h ⟨entry, member, rfl⟩
    simpa using h entry member
  · intro h entry member
    rw [bne_iff_ne]
    rintro rfl
    exact h ⟨entry, member, rfl⟩

theorem get?_eq_some_iff {m : Keyed β} (distinct : m.keys.Nodup) {key : String} {value : β} :
    m.get? key = some value ↔ (key, value) ∈ m := by
  constructor
  · exact mem_of_get?_eq_some
  · intro h
    cases found : m.get? key with
    | none => exact absurd (List.mem_map_of_mem h) (get?_eq_none_iff.1 found)
    | some value' =>
      cases eq_of_key_eq distinct h (mem_of_get?_eq_some found) rfl
      rfl

theorem perm_of_get?_eq {m m' : Keyed β} (distinct : m.keys.Nodup) (distinct' : m'.keys.Nodup)
    (h : ∀ key, m.get? key = m'.get? key) : m.Perm m' := by
  rw [List.perm_ext_iff_of_nodup distinct.of_map distinct'.of_map]
  rintro ⟨key, value⟩
  rw [← get?_eq_some_iff distinct, h, get?_eq_some_iff distinct']

theorem keys_cons (k : String) (v : β) (m : Keyed β) : keys ((k, v) :: m) = k :: m.keys := rfl

theorem get?_cons (k : String) (v : β) (m : Keyed β) (key : String) :
    get? ((k, v) :: m) key = if key = k then some v else m.get? key := by
  by_cases same : key = k
  · simp [get?, same]
  · simp [get?, List.lookup_cons, same, beq_eq_false_iff_ne.2 same]

theorem get?_append (m m' : Keyed β) (key : String) :
    get? (m ++ m') key = (m.get? key).or (m'.get? key) := List.lookup_append

theorem get?_filter (p : String × β → Bool) {m : Keyed β} (distinct : m.keys.Nodup) (key : String) :
    get? (m.filter p) key = (m.get? key).filter fun v => p (key, v) := by
  induction m with
  | nil => rfl
  | cons entry rest ih =>
    obtain ⟨k, v⟩ := entry
    obtain ⟨fresh, distinct⟩ := List.nodup_cons.1 distinct
    have absent : get? rest k = none := get?_eq_none_iff.2 fresh
    rw [List.filter_cons]
    split
    next kept =>
      rw [get?_cons, get?_cons, ih distinct]
      split
      next same => rw [same, Option.filter_some, if_pos kept]
      next => rfl
    next dropped =>
      rw [get?_cons, ih distinct]
      split
      next same => rw [same, absent, Option.filter_some, if_neg dropped, Option.filter_none]
      next => rfl

theorem get?_erase (m : Keyed β) (gone key : String) :
    (m.erase gone).get? key = if key = gone then none else m.get? key := by
  induction m with
  | nil => simp [erase, get?]
  | cons entry rest ih =>
    obtain ⟨k, v⟩ := entry
    rw [erase] at ih ⊢
    rw [List.filter_cons, get?_cons]
    split
    next kept =>
      rw [get?_cons, ih]
      grind
    next dropped =>
      rw [ih]
      grind

theorem filter_put {p : String × β → Bool} {key : String} (unseen : ∀ v, p (key, v) = false)
    (value : β) (m : Keyed β) : (m.put key value).filter p = m.filter p := by
  induction m with
  | nil => simp [put, unseen]
  | cons entry rest ih =>
    obtain ⟨k, v⟩ := entry
    rw [put]
    split
    next same => subst same; simp [unseen]
    next => simp only [List.filter_cons, ih]

theorem keys_put (m : Keyed β) (key : String) (value : β) :
    (m.put key value).keys = if key ∈ m.keys then m.keys else m.keys ++ [key] := by
  induction m with
  | nil => rfl
  | cons entry rest ih =>
    obtain ⟨k, v⟩ := entry
    rw [put]
    split
    next same => simp [keys, same]
    next other =>
      rw [keys_cons, keys_cons, ih]
      grind

theorem nodup_keys_put {m : Keyed β} (distinct : m.keys.Nodup) (key : String) (value : β) :
    (m.put key value).keys.Nodup := by
  rw [keys_put]
  split
  next => exact distinct
  next fresh => exact List.nodup_append.2 ⟨distinct, List.nodup_singleton key, by grind⟩

theorem nodup_keys_update {m : Keyed β} (distinct : m.keys.Nodup) (later : Keyed β) :
    (m.update later).keys.Nodup := by
  induction later generalizing m with
  | nil => exact distinct
  | cons entry later ih => exact ih (nodup_keys_put distinct entry.1 entry.2)

theorem keys_update {m : Keyed β} {seen : List String} (h : m.keys = seen.eraseDups)
    (later : Keyed β) : (m.update later).keys = (seen ++ later.keys).eraseDups := by
  induction later generalizing m seen with
  | nil => simpa [update, keys] using h
  | cons entry later ih =>
    obtain ⟨key, value⟩ := entry
    have keys : (m.put key value).keys = (seen ++ [key]).eraseDups := by
      rw [keys_put, h, List.eraseDups_append]
      by_cases member : key ∈ seen <;> simp [member, List.removeAll, List.eraseDups_cons]
    have next := ih keys
    rwa [List.append_assoc] at next

theorem get?_update (m : Keyed β) {later : Keyed β} (distinct : later.keys.Nodup) (key : String) :
    (m.update later).get? key = (later.get? key).or (m.get? key) := by
  induction later generalizing m with
  | nil => rfl
  | cons entry later ih =>
    obtain ⟨k, v⟩ := entry
    obtain ⟨fresh, distinct⟩ := List.nodup_cons.1 distinct
    refine (ih (m.put k v) distinct).trans ?_
    rw [get?_put, get?_cons]
    by_cases same : key = k
    · subst same
      have absent : get? later key = none := get?_eq_none_iff.2 fresh
      simp [absent]
    · simp [same]

theorem get?_filterMap {keys : List String} (f : String → Option β) (key : String) :
    get? (keys.filterMap fun k => (f k).map (k, ·)) key = if key ∈ keys then f key else none := by
  induction keys with
  | nil => rfl
  | cons k rest ih =>
    rw [List.filterMap_cons]
    cases found : f k with
    | none => grind
    | some v =>
      rw [Option.map_some]
      rw [get?_cons, ih]
      grind

theorem eq_filterMap_get? {m : Keyed β} (distinct : m.keys.Nodup) :
    m = m.keys.filterMap fun key => (m.get? key).map (key, ·) := by
  induction m with
  | nil => rfl
  | cons entry rest ih =>
    obtain ⟨k, v⟩ := entry
    obtain ⟨fresh, distinct⟩ := List.nodup_cons.1 distinct
    change (k, v) :: rest = (k :: keys rest).filterMap _
    have own : get? ((k, v) :: rest) k = some v := by simp [get?_cons]
    rw [List.filterMap_cons_some (b := (k, v)) (by rw [own]; rfl)]
    congr 1
    conv_lhs => rw [ih distinct]
    apply List.filterMap_congr
    intro key member
    have other : key ≠ k := fun same => fresh (same ▸ member)
    rw [get?_cons, if_neg other]

end ScopeComplexity.Keyed
