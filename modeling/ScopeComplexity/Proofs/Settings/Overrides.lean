import ScopeComplexity.Proofs.Settings.Precedence

namespace ScopeComplexity.Settings

def isOn (overrides : Keyed Value) (switch : String) : Bool :=
  (overrides.get? switch).any Value.isTrue

/-- The verbosity that the overrides ask for. Of both switches the quiet one wins, and either wins over
a verbosity given by its own name. -/
def askedVerbosity (overrides : Keyed Value) : Option Value :=
  if isOn overrides "quiet" then some (.text "quiet")
  else if isOn overrides "verbose" then some (.text "verbose")
  else (overrides.get? Setting.verbosity.key).filter (!isNull ·)

def verbosityNames : List String := ["quiet", "verbose", Setting.verbosity.key]

def overriding (overrides : Keyed Value) : Keyed Value :=
  (overrides.filter fun entry => !isNull entry.2 && !verbosityNames.contains entry.1)
    ++ (askedVerbosity overrides).toList.map (Setting.verbosity.key, ·)

variable {overrides : Keyed Value} {switch word : String}

section Switch

theorem get?_applySwitch (other : switch ≠ Setting.verbosity.key) (key : String) :
    (applySwitch switch word overrides).get? key =
      if key = switch then none
      else if key = Setting.verbosity.key ∧ isOn overrides switch then some (.text word)
      else overrides.get? key := by
  rw [applySwitch, isOn]
  cases given : overrides.get? switch with
  | none => grind
  | some v =>
    by_cases on : v.isTrue = true
    · simp only [on, if_true, Keyed.get?_put, Keyed.get?_erase]
      grind
    · simp only [on, Bool.false_eq_true, if_false, Keyed.get?_erase]
      grind

theorem nodup_keys_erase (distinct : overrides.keys.Nodup) (key : String) :
    (overrides.erase key).keys.Nodup :=
  distinct.sublist (List.filter_sublist.map _)

theorem nodup_keys_applySwitch (distinct : overrides.keys.Nodup) (switch word : String) :
    (applySwitch switch word overrides).keys.Nodup := by
  have erased := nodup_keys_erase distinct switch
  rw [applySwitch]
  split
  next => exact distinct
  next =>
    dsimp only
    split
    · exact Keyed.nodup_keys_put erased _ _
    · exact erased

theorem filter_applySwitch {p : String × Value → Bool}
    (unseen : ∀ v, p (Setting.verbosity.key, v) = false) :
    (applySwitch switch word overrides).filter p = (overrides.erase switch).filter p := by
  rw [applySwitch]
  split
  next absent =>
    have whole : overrides.erase switch = overrides := by
      rw [Keyed.erase, List.filter_eq_self]
      intro entry member
      rw [bne_iff_ne]
      rintro rfl
      exact Keyed.get?_eq_none_iff.1 absent (List.mem_map_of_mem member)
    rw [whole]
  next =>
    dsimp only
    split
    · exact Keyed.filter_put unseen _ _
    · rfl

end Switch

theorem get?_overriding (distinct : overrides.keys.Nodup) (key : String) :
    (overriding overrides).get? key =
      if key = Setting.verbosity.key then askedVerbosity overrides
      else if key = "quiet" ∨ key = "verbose" then none
      else (overrides.get? key).filter (!isNull ·) := by
  have asked : Keyed.get? ((askedVerbosity overrides).toList.map (Setting.verbosity.key, ·)) key =
      if key = Setting.verbosity.key then askedVerbosity overrides else none := by
    cases askedVerbosity overrides with
    | none => simp [Keyed.get?]
    | some v => exact Keyed.get?_cons Setting.verbosity.key v [] key
  have named : verbosityNames.contains key = true ↔
      key = "quiet" ∨ key = "verbose" ∨ key = Setting.verbosity.key := by simp [verbosityNames]
  rw [overriding, Keyed.get?_append, asked, Keyed.get?_filter _ distinct]
  cases overrides.get? key with
  | none => grind
  | some v => grind

theorem get?_overrideLayer (distinct : overrides.keys.Nodup) (key : String) :
    (overrideLayer overrides).get? key = (overriding overrides).get? key := by
  have quiet : "quiet" ≠ Setting.verbosity.key := by decide
  have verbose : "verbose" ≠ Setting.verbosity.key := by decide
  have switched := nodup_keys_applySwitch (nodup_keys_applySwitch distinct "verbose" "verbose")
    "quiet" "quiet"
  rw [overrideLayer, Keyed.get?_filter _ switched, get?_overriding distinct, get?_applySwitch quiet,
    get?_applySwitch verbose, isOn, get?_applySwitch verbose, askedVerbosity, isOn, isOn]
  have filled (word : String) : isNull (.text word) = false := rfl
  grind

theorem nodup_keys_overrideLayer (distinct : overrides.keys.Nodup) :
    (overrideLayer overrides).keys.Nodup := by
  have switched := nodup_keys_applySwitch (nodup_keys_applySwitch distinct "verbose" "verbose")
    "quiet" "quiet"
  exact switched.sublist (List.filter_sublist.map _)

theorem unknownKeys_eq (layer : Keyed Value) :
    unknownKeys layer = Keyed.keys (layer.filter fun entry => (Setting.ofKey? entry.1).isNone) := by
  rw [unknownKeys, Keyed.keys, List.filter_map]
  rfl

theorem unknownKeys_overrideLayer (overrides : Keyed Value) :
    unknownKeys (overrideLayer overrides) = unknownKeys (overriding overrides) := by
  have known : Setting.ofKey? Setting.verbosity.key = some .verbosity := by decide
  have asked : List.filter (fun entry => (Setting.ofKey? entry.1).isNone)
      ((askedVerbosity overrides).toList.map (Setting.verbosity.key, ·)) = [] := by
    simp [known]
  have unseen (v : Value) : ((Setting.ofKey? (Setting.verbosity.key, v).1).isNone
      && !isNull (Setting.verbosity.key, v).2) = false := by simp [known]
  rw [unknownKeys_eq, unknownKeys_eq, overrideLayer, overriding, List.filter_append, asked,
    List.append_nil, List.filter_filter, filter_applySwitch unseen, Keyed.erase, List.filter_filter,
    filter_applySwitch (by simp [known]), Keyed.erase, List.filter_filter, List.filter_filter]
  apply congrArg Keyed.keys
  apply List.filter_congr
  rintro ⟨key, value⟩ -
  simp only [verbosityNames]
  grind

end ScopeComplexity.Settings
