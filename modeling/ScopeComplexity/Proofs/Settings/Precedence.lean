import Mathlib.Data.List.Induction
import ScopeComplexity.Proofs.Keyed
import ScopeComplexity.Settings.Load

namespace ScopeComplexity.Settings

def strongest (layers : List (Keyed Value)) (key : String) : Option Value :=
  layers.reverse.findSome? (·.get? key)

/-- Every key that some layer sets, with what the strongest of those layers says. -/
def overlay (layers : List (Keyed Value)) : Keyed Value :=
  (layers.flatMap Keyed.keys).eraseDups.filterMap fun key => (strongest layers key).map (key, ·)

def unknownKeys (layer : Keyed Value) : List String :=
  layer.keys.filter fun key => (Setting.ofKey? key).isNone

theorem strongest_append (weaker stronger : List (Keyed Value)) (key : String) :
    strongest (weaker ++ stronger) key = (strongest stronger key).or (strongest weaker key) := by
  rw [strongest, List.reverse_append, List.findSome?_append]
  rfl

theorem strongest_singleton (layer : Keyed Value) (key : String) :
    strongest [layer] key = layer.get? key := by
  rw [strongest, List.reverse_singleton, List.findSome?_singleton]

theorem strongest_layer (weaker stronger : List (Keyed Value)) (own : Keyed Value) (key : String) :
    strongest (weaker ++ own :: stronger) key =
      ((strongest stronger key).or (own.get? key)).or (strongest weaker key) := by
  rw [strongest_append, ← List.singleton_append, strongest_append, strongest_singleton]

theorem strongest_isSome_iff {layers : List (Keyed Value)} {key : String} :
    (strongest layers key).isSome ↔ key ∈ layers.flatMap Keyed.keys := by
  rw [strongest, List.findSome?_isSome_iff, List.mem_flatMap]
  apply exists_congr
  intro layer
  rw [List.mem_reverse, ← Option.ne_none_iff_isSome, ne_eq, Keyed.get?_eq_none_iff, not_not]

section Merge

variable {layers : List (Keyed Value)}

theorem keys_merge (layers : List (Keyed Value)) :
    (merge layers).keys = (layers.flatMap Keyed.keys).eraseDups := by
  induction layers using List.reverseRecOn with
  | nil => rfl
  | append_singleton weaker own ih =>
    rw [merge, List.foldl_append, List.flatMap_append, List.flatMap_singleton]
    exact Keyed.keys_update ih own

theorem nodup_keys_merge (layers : List (Keyed Value)) : (merge layers).keys.Nodup := by
  induction layers using List.reverseRecOn with
  | nil => exact List.nodup_nil
  | append_singleton weaker own ih =>
    rw [merge, List.foldl_append]
    exact Keyed.nodup_keys_update ih own

theorem get?_merge (distinct : ∀ layer ∈ layers, layer.keys.Nodup) (key : String) :
    (merge layers).get? key = strongest layers key := by
  induction layers using List.reverseRecOn with
  | nil => rfl
  | append_singleton weaker own ih =>
    have own_distinct : own.keys.Nodup := distinct own (by simp)
    have weaker_distinct : ∀ layer ∈ weaker, layer.keys.Nodup :=
      fun layer member => distinct layer (List.mem_append_left _ member)
    rw [merge, List.foldl_append, strongest_append, strongest_singleton, ← ih weaker_distinct]
    exact Keyed.get?_update (merge weaker) own_distinct key

theorem merge_eq_overlay (distinct : ∀ layer ∈ layers, layer.keys.Nodup) :
    merge layers = overlay layers := by
  rw [Keyed.eq_filterMap_get? (nodup_keys_merge layers), keys_merge, overlay]
  apply List.filterMap_congr
  intro key _
  rw [get?_merge distinct]

end Merge

theorem get?_overlay (layers : List (Keyed Value)) (key : String) :
    (overlay layers).get? key = strongest layers key := by
  rw [overlay, Keyed.get?_filterMap]
  split
  next => rfl
  next absent =>
    rw [List.mem_eraseDups, ← strongest_isSome_iff] at absent
    exact (Option.not_isSome_iff_eq_none.1 absent).symm

theorem filter_eraseDups (p : String → Bool) (keys : List String) :
    keys.eraseDups.filter p = (keys.filter p).eraseDups := by
  induction keys using List.reverseRecOn with
  | nil => rfl
  | append_singleton before key ih =>
    rw [List.eraseDups_append, List.filter_append, List.filter_append, List.eraseDups_append, ih]
    congr 1
    by_cases wanted : p key = true <;> by_cases known : key ∈ before <;>
      simp [List.removeAll, List.eraseDups_cons, wanted, known]

theorem keys_overlay (layers : List (Keyed Value)) :
    (overlay layers).keys = (layers.flatMap Keyed.keys).eraseDups := by
  rw [overlay, Keyed.keys, List.map_filterMap]
  conv_rhs => rw [← List.filterMap_some (l := (layers.flatMap Keyed.keys).eraseDups)]
  apply List.filterMap_congr
  intro key member
  rw [List.mem_eraseDups, ← strongest_isSome_iff, Option.isSome_iff_exists] at member
  obtain ⟨value, said⟩ := member
  rw [said]
  rfl

theorem unknownKeys_overlay (layers : List (Keyed Value)) :
    unknownKeys (overlay layers) = (layers.flatMap unknownKeys).eraseDups := by
  rw [unknownKeys, keys_overlay, filter_eraseDups, List.filter_flatMap]
  rfl

theorem checkKeys_eq (layer : Keyed Value) : checkKeys layer = (unknownKeys layer).forM checkKey := by
  rw [checkKeys, unknownKeys]
  induction layer.keys with
  | nil => rfl
  | cons key rest ih =>
    change (checkKey key >>= fun _ => rest.forM checkKey) = _
    rw [ih, List.filter_cons]
    cases known : Setting.ofKey? key with
    | none => rfl
    | some setting =>
      have passes : checkKey key = .ok () := by simp [checkKey, known]
      rw [passes]
      rfl

theorem ofLayer_congr {layer layer' : Keyed Value} (same : ∀ key, layer.get? key = layer'.get? key)
    (unknown : unknownKeys layer = unknownKeys layer') : ofLayer layer = ofLayer layer' := by
  have filled : fill layer = fill layer' := by simp only [fill, same]
  rw [ofLayer, ofLayer, checkKeys_eq, checkKeys_eq, unknown, filled]

theorem ofLayer_overlay_congr (weaker stronger : List (Keyed Value)) {own own' : Keyed Value}
    (same : ∀ key, own.get? key = own'.get? key ∨ (strongest stronger key).isSome)
    (unknown : unknownKeys own = unknownKeys own') :
    ofLayer (overlay (weaker ++ own :: stronger)) = ofLayer (overlay (weaker ++ own' :: stronger)) := by
  apply ofLayer_congr
  · intro key
    rw [get?_overlay, get?_overlay, strongest_layer, strongest_layer]
    rcases same key with same | set
    · rw [same]
    · obtain ⟨value, said⟩ := Option.isSome_iff_exists.1 set
      rw [said, Option.some_or, Option.some_or, Option.some_or, Option.some_or]
  · rw [unknownKeys_overlay, unknownKeys_overlay, List.flatMap_append, List.flatMap_append,
      List.flatMap_cons, List.flatMap_cons, unknown]

theorem ofLayer_eq_ok {layer : Keyed Value} {s : Settings} (h : ofLayer layer = .ok s) :
    s = fill layer ∧ s.check = .ok () := by
  rw [ofLayer] at h
  cases keys : checkKeys layer with
  | error d => simp [keys, Except.mapError, bind, Except.bind] at h
  | ok =>
    cases values : (fill layer).check with
    | error e => simp [keys, values, Except.mapError, bind, Except.bind] at h
    | ok =>
      simp only [keys, values, Except.mapError, bind, Except.bind, pure, Except.pure,
        Except.ok.injEq] at h
      exact h ▸ ⟨rfl, values⟩

def unknownDefect (name : String) : Defect :=
  if name == ownKey then .takenSetting name else .unknownSetting name

theorem checkKey_of_unknown {name : String} (unknown : (Setting.ofKey? name).isNone) :
    checkKey name = .error (unknownDefect name) := by
  rw [Option.isNone_iff_eq_none] at unknown
  by_cases own : (name == ownKey) = true <;> simp [checkKey, unknownDefect, unknown, own]

theorem isOfType_unknownDefect (name : String) : (unknownDefect name).isOfType = true := by
  rw [unknownDefect]
  split <;> rfl

theorem ofLayer_of_unknown {layer : Keyed Value} {name : String} {others : List String}
    (unknown : unknownKeys layer = name :: others) :
    ofLayer layer = .error (.defect (unknownDefect name)) := by
  have member : name ∈ unknownKeys layer := unknown ▸ List.mem_cons_self
  have none : (Setting.ofKey? name).isNone := (List.mem_filter.1 member).2
  have refused : checkKeys layer = .error (unknownDefect name) := by
    rw [checkKeys_eq, unknown]
    change (checkKey name >>= fun _ => others.forM checkKey) = _
    rw [checkKey_of_unknown none]
    rfl
  rw [ofLayer, refused]
  rfl

end ScopeComplexity.Settings
