import Mathlib.Data.List.Basic
import ScopeComplexity.Text.LowerCase

namespace ScopeComplexity.Text

theorem isAscii_iff {c : Char} : isAscii c = true ↔ c.toNat < 0x80 := decide_eq_true_iff

theorem toLower_of_not_isCapital {c : Char} (small : ¬(c.val ≥ 'A'.val ∧ c.val ≤ 'Z'.val)) : c.toLower = c :=
  dif_neg small

theorem val_toLower_of_isCapital {c : Char} (capital : c.val ≥ 'A'.val ∧ c.val ≤ 'Z'.val) :
    c.toLower.val = c.val + ('a'.val - 'A'.val) :=
  congrArg Char.val (dif_pos capital)

theorem toLower_of_not_isAscii {c : Char} (outside : ¬isAscii c) : c.toLower = c := by
  refine toLower_of_not_isCapital ?_
  rintro ⟨-, le⟩
  have : c.toNat ≤ 'Z'.toNat := le
  have : 'Z'.toNat < 0x80 := by decide
  rw [isAscii_iff] at outside
  omega

theorem toLower_eq_dot_iff {c : Char} : c.toLower = '.' ↔ c = '.' := by
  constructor
  · intro same
    by_cases capital : c.val ≥ 'A'.val ∧ c.val ≤ 'Z'.val
    · have code : c.val + 32 = 46 := (val_toLower_of_isCapital capital).symm.trans (congrArg Char.val same)
      have least : 65 ≤ c.val := capital.1
      have greatest : c.val ≤ 90 := capital.2
      grind
    · rwa [toLower_of_not_isCapital capital] at same
  · rintro rfl
    rfl

def CaseRun.Leaves (run : CaseRun) : Prop :=
  (run.first = run.last ∧ run.lower = 'k'.toNat) ∨
    0x80 ≤ run.lower ∧ (run.lower + (run.last - run.first) < 0xd800 ∨
      0xdfff < run.lower ∧ run.lower + (run.last - run.first) < 0x110000)

instance (run : CaseRun) : Decidable run.Leaves := inferInstanceAs (Decidable (_ ∨ _))

set_option maxRecDepth 4000 in
theorem leaves_of_mem_caseRuns : ∀ run ∈ caseRuns, run.Leaves := by decide

theorem small_of_not_isAscii {c : Char} (outside : ¬isAscii c) : ¬isAscii (small c) ∨ small c = 'k' := by
  rw [small, if_neg outside]
  split
  · exact .inl outside
  · rename_i run found
    have holds := List.find?_some found
    simp only [CaseRun.holds, Bool.and_eq_true, decide_eq_true_eq] at holds
    rcases leaves_of_mem_caseRuns run (List.mem_of_find?_eq_some found) with ⟨one, kelvin⟩ | ⟨leaves, valid⟩
    · right
      rw [kelvin, show c.toNat - run.first = 0 by omega, Nat.add_zero, Char.ofNat_toNat]
    · left
      have isChar : (run.lower + (c.toNat - run.first)).isValidChar := by
        rw [Nat.isValidChar]
        omega
      have code : (Char.ofNat (run.lower + (c.toNat - run.first))).toNat = run.lower + (c.toNat - run.first) := by
        rw [Char.ofNat, dif_pos isChar]
        rfl
      rw [isAscii_iff, code]
      omega

theorem exists_mem_smallAt {c : Char} (outside : ¬isAscii c) (final : Bool) :
    ∃ d ∈ smallAt final c, ¬isAscii d ∨ d = 'k' := by
  rw [smallAt]
  split
  · exact ⟨'\u0307', by simp, .inl (by decide)⟩
  · split
    · refine ⟨_, List.mem_singleton_self _, .inl ?_⟩
      cases final <;> decide
    · exact ⟨small c, List.mem_singleton_self _, small_of_not_isAscii outside⟩

theorem smallAt_of_isAscii {c : Char} (ascii : isAscii c) (final : Bool) : smallAt final c = [c.toLower] := by
  have dotted : c ≠ '\u0130' := by
    rintro rfl
    exact absurd ascii (by decide)
  have sigma : c ≠ '\u03a3' := by
    rintro rfl
    exact absurd ascii (by decide)
  rw [smallAt, if_neg dotted, if_neg sigma, small, if_pos ascii]

variable {isFinal : List Char → List Char → Bool}

theorem lowerAfter_of_isAscii {text : List Char} (ascii : ∀ c ∈ text, isAscii c) (before : List Char) :
    lowerAfter isFinal before text = text.map Char.toLower := by
  induction text generalizing before with
  | nil => rfl
  | cons c after ih =>
    rw [List.forall_mem_cons] at ascii
    rw [lowerAfter, smallAt_of_isAscii ascii.1, ih ascii.2]
    rfl

theorem exists_mem_lowerAfter {text : List Char} {c : Char} (member : c ∈ text) (outside : ¬isAscii c)
    (before : List Char) : ∃ d ∈ lowerAfter isFinal before text, ¬isAscii d ∨ d = 'k' := by
  induction text generalizing before with
  | nil => cases member
  | cons first after ih =>
    rw [lowerAfter]
    rcases List.mem_cons.1 member with rfl | member
    · obtain ⟨d, found, leaves⟩ := exists_mem_smallAt outside (isFinal before after)
      exact ⟨d, List.mem_append_left _ found, leaves⟩
    · obtain ⟨d, found, leaves⟩ := ih member (first :: before)
      exact ⟨d, List.mem_append_right _ found, leaves⟩

theorem lower_eq_iff {text word : String} (plain : ∀ c ∈ word.toList, isAscii c ∧ c ≠ 'k') :
    lower isFinal text = word ↔ text.map Char.toLower = word := by
  by_cases ascii : ∀ c ∈ text.toList, isAscii c
  · rw [lower, lowerAfter_of_isAscii ascii, String.map_eq_internal]
  · simp only [not_forall] at ascii
    obtain ⟨c, member, outside⟩ := ascii
    -- A character outside ASCII leaves something in either form that is not in the word.
    refine iff_of_false ?_ ?_
    · rintro rfl
      rw [lower, String.toList_ofList] at plain
      obtain ⟨d, found, leaves⟩ := exists_mem_lowerAfter member outside []
      obtain ⟨inside, other⟩ := plain d found
      exact leaves.elim (absurd inside) other
    · rintro rfl
      have found : c ∈ (text.map Char.toLower).toList := by
        rw [String.toList_map, ← toLower_of_not_isAscii outside]
        exact List.mem_map_of_mem member
      exact outside (plain c found).1

end ScopeComplexity.Text
