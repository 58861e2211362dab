import Mathlib.Data.List.Forall2
import ScopeComplexity.Proofs.Path.Normal
import ScopeComplexity.Proofs.Text.Trim
import ScopeComplexity.Settings.Hint

namespace ScopeComplexity.Hint

open Text

/-- A name that can stand in a list: neither at its start nor at its end is white space. -/
structure IsListed (name : String) : Prop where
  nonempty : name ≠ ""
  clean : ',' ∉ name.toList
  bare : Bare isBlank name.toList

def segments (given : String) : List (List Char) :=
  (given.toList.splitOn ',').filter fun segment => !segment.all isBlank

/-- The names in a text, each without the white space around it. -/
def Lists (given : String) (names : List String) : Prop :=
  List.Forall₂ (fun segment name => Strips isBlank segment name.toList) (segments given) names

variable {given name : String} {names : List String} {segment : List Char}

theorem toList_trim (segment : List Char) : (trim (String.ofList segment)).toList = trimEnds isBlank segment := by
  rw [trim, String.toList_ofList, String.toList_ofList]

theorem trim_eq_iff : trim (String.ofList segment) = name ↔ Strips isBlank segment name.toList := by
  rw [← String.toList_inj, toList_trim, trimEnds_eq_iff]

theorem trim_ne_iff : (trim (String.ofList segment) != "") = !segment.all isBlank := by
  rw [bne, Bool.not_inj_iff, Bool.eq_iff_iff, beq_iff_eq, ← String.toList_inj, toList_trim, List.all_eq_true]
  exact trimEnds_eq_nil_iff

theorem lists_iff : Lists given names ↔ pieces given = names := by
  have same : pieces given = (segments given).map fun segment => trim (String.ofList segment) := by
    rw [pieces, Path.splitAt_eq_splitOn, List.filter_map, segments]
    congr 2
    funext segment
    exact trim_ne_iff
  rw [same, Lists, ← List.forall₂_eq_eq_eq, List.forall₂_map_left_iff]
  simp only [trim_eq_iff]

theorem lists_pieces (given : String) : Lists given (pieces given) := lists_iff.2 rfl

theorem Lists.eq_nil_iff (h : Lists given names) :
    names = [] ↔ ∀ segment ∈ given.toList.splitOn ',', ∀ c ∈ segment, isBlank c = true := by
  have none : names = [] ↔ segments given = [] := by
    rw [← List.length_eq_zero_iff, ← h.length_eq, List.length_eq_zero_iff]
  rw [none, segments, List.filter_eq_nil_iff]
  simp

theorem Lists.isListed (h : Lists given names) : ∀ name ∈ names, IsListed name := by
  intro name member
  rw [← lists_iff.1 h] at member
  obtain ⟨mapped, nonempty⟩ := List.mem_filter.1 member
  obtain ⟨segment, within, same⟩ := List.mem_map.1 mapped
  have strips := trim_eq_iff.1 same
  obtain ⟨left, right, around, -, -⟩ := strips.within
  have clean : ',' ∉ left ++ name.toList ++ right := around ▸ Path.not_mem_of_mem_splitAt within
  simp only [List.mem_append, not_or] at clean
  exact ⟨bne_iff_ne.1 nonempty, clean.1.2, strips.bare⟩

theorem IsListed.not_all_isBlank (h : IsListed name) : (!name.toList.all isBlank) = true := by
  rw [Bool.not_eq_true', Bool.eq_false_iff, ne_eq, List.all_eq_true]
  intro blank
  have empty := trimEnds_eq_nil_iff.2 blank
  rw [h.bare.trimEnds_eq] at empty
  exact h.nonempty (String.toList_eq_nil_iff.1 empty)

theorem segments_intercalate (nonempty : names ≠ []) (listed : ∀ name ∈ names, IsListed name) :
    segments (",".intercalate names) = names.map String.toList := by
  have joined : (",".intercalate names).toList = [','].intercalate (names.map String.toList) := by simp
  have clean : ∀ segment ∈ names.map String.toList, ',' ∉ segment :=
    List.forall_mem_map.2 fun name member => (listed name member).clean
  have kept : ∀ segment ∈ names.map String.toList, (!segment.all isBlank) = true :=
    List.forall_mem_map.2 fun name member => (listed name member).not_all_isBlank
  rw [segments, joined, List.splitOn_intercalate _ clean (mt List.map_eq_nil_iff.1 nonempty),
    List.filter_eq_self.2 kept]

theorem lists_intercalate (nonempty : names ≠ []) (listed : ∀ name ∈ names, IsListed name) :
    Lists (",".intercalate names) names := by
  rw [Lists, segments_intercalate nonempty listed, List.forall₂_map_left_iff, List.forall₂_same]
  intro name member
  exact trimEnds_eq_iff.1 (listed name member).bare.trimEnds_eq

end ScopeComplexity.Hint
