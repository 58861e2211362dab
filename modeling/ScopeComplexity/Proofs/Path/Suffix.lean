import ScopeComplexity.Proofs.Path.Normal

namespace ScopeComplexity.Path

section Suffix

variable {name stem extension : List Char}

theorem takeWhile_reverse_of_not_mem (clean : '.' ∉ extension) (before : List Char) :
    (extension.reverse ++ before).takeWhile (· != '.') = extension.reverse ++ before.takeWhile (· != '.') := by
  apply List.takeWhile_append_of_pos
  intro c member
  rw [bne_iff_ne]
  rintro rfl
  exact clean (List.mem_reverse.1 member)

theorem suffixOf_of_not_mem (clean : '.' ∉ name) : suffixOf name = [] := by
  have whole := takeWhile_reverse_of_not_mem clean []
  rw [List.append_nil, List.takeWhile_nil, List.append_nil] at whole
  rw [suffixOf, whole, List.reverse_reverse, decide_eq_true (Nat.le_succ _), Bool.or_true, if_pos rfl]

theorem suffixOf_append (last : '.' ∉ extension) :
    suffixOf (stem ++ '.' :: extension) = if stem = [] ∨ extension = [] then [] else '.' :: extension := by
  have turned : (stem ++ '.' :: extension).reverse = extension.reverse ++ '.' :: stem.reverse := by simp
  have tail : ((stem ++ '.' :: extension).reverse.takeWhile (· != '.')).reverse = extension := by
    rw [turned, takeWhile_reverse_of_not_mem last, List.takeWhile_cons_of_neg (by decide), List.append_nil,
      List.reverse_reverse]
  have short : (stem ++ '.' :: extension).length ≤ extension.length + 1 ↔ stem = [] := by
    rw [List.length_append, List.length_cons, ← List.length_eq_zero_iff]
    omega
  simp only [suffixOf, tail, Bool.or_eq_true, List.isEmpty_iff, decide_eq_true_eq, short, or_comm]

theorem suffixOf_eq_cons_iff : suffixOf name = '.' :: extension ↔
    ∃ stem, name = stem ++ '.' :: extension ∧ stem ≠ [] ∧ extension ≠ [] ∧ '.' ∉ extension := by
  constructor
  · intro h
    have dotted : '.' ∈ name.reverse := by
      rw [List.mem_reverse]
      by_contra clean
      rw [suffixOf_of_not_mem clean] at h
      cases h
    obtain ⟨after, before, split, last⟩ := List.eq_append_cons_of_mem dotted
    have split : name = before.reverse ++ '.' :: after.reverse := by
      rw [← List.reverse_reverse name, split]
      simp
    have last : '.' ∉ after.reverse := fun member => last (List.mem_reverse.1 member)
    rw [split, suffixOf_append last] at h
    split at h
    · cases h
    · rename_i kept
      obtain ⟨some, more⟩ := not_or.1 kept
      cases (List.cons.inj h).2
      exact ⟨_, split, some, more, last⟩
  · rintro ⟨stem, rfl, some, more, last⟩
    rw [suffixOf_append last, if_neg (not_or.2 ⟨some, more⟩)]

theorem exists_of_suffixOf_ne_nil (some : suffixOf name ≠ []) : ∃ extension, suffixOf name = '.' :: extension := by
  unfold suffixOf at some ⊢
  dsimp only at some ⊢
  split at some
  · exact absurd rfl some
  · rename_i kept
    exact ⟨_, if_neg kept⟩

end Suffix

/-- A name is a stem and a suffix, which starts at the last dot and is not the dot alone. -/
def EndsIn (name suffix : String) : Prop :=
  ∃ stem extension : List Char, name.toList = stem ++ suffix.toList ∧ suffix.toList = '.' :: extension ∧
    stem ≠ [] ∧ extension ≠ [] ∧ '.' ∉ extension

theorem EndsIn.ne_empty {name suffix : String} (h : EndsIn name suffix) : suffix ≠ "" := by
  obtain ⟨stem, extension, -, dotted, -⟩ := h
  rintro rfl
  simp at dotted

theorem suffix_eq_of_endsIn {p : Path} {suffix : String} (h : EndsIn p.name suffix) : p.suffix = suffix := by
  obtain ⟨stem, extension, name, dotted, before, after, last⟩ := h
  rw [Path.suffix, ← String.toList_inj, String.toList_ofList, dotted, suffixOf_eq_cons_iff]
  exact ⟨stem, dotted ▸ name, before, after, last⟩

theorem endsIn_of_suffix_ne_empty {p : Path} (some : p.suffix ≠ "") : EndsIn p.name p.suffix := by
  have kept : suffixOf p.name.toList ≠ [] := by simpa [Path.suffix] using some
  obtain ⟨extension, dotted⟩ := exists_of_suffixOf_ne_nil kept
  obtain ⟨stem, name, before, after, last⟩ := suffixOf_eq_cons_iff.1 dotted
  have suffix : p.suffix.toList = '.' :: extension := by rw [Path.suffix, String.toList_ofList, dotted]
  exact ⟨stem, extension, by rw [suffix, name], suffix, before, after, last⟩

theorem suffix_eq_iff {p : Path} {suffix : String} (some : suffix ≠ "") :
    p.suffix = suffix ↔ ∃ name, p.parts.getLast? = .some name ∧ EndsIn name suffix := by
  constructor
  · rintro rfl
    have ends := endsIn_of_suffix_ne_empty some
    rw [Path.name] at ends
    cases last : p.parts.getLast? with
    | none =>
      obtain ⟨stem, extension, name, dotted, -⟩ := ends
      simp [last, dotted] at name
    | some name => exact ⟨name, rfl, by simpa [last] using ends⟩
  · rintro ⟨name, last, ends⟩
    apply suffix_eq_of_endsIn
    rwa [Path.name, last]

theorem splitAt_append (separator : Char) (before after : List Char) :
    splitAt separator (before ++ separator :: after) = splitAt separator before ++ splitAt separator after := by
  induction before with
  | nil => simp [splitAt]
  | cons c before ih =>
    rw [List.cons_append, splitAt, splitAt, ih]
    split
    · rfl
    · cases pieces : splitAt separator before with
      | nil => exact absurd ((splitAt_eq_splitOn separator before).symm.trans pieces) (List.splitOn_ne_nil _ _)
      | cons piece pieces => rfl

theorem parts_join (directories text : String) :
    (ofText (directories ++ "/" ++ text)).parts = (ofText directories).parts ++ (ofText text).parts := by
  have slash : "/".toList = ['/'] := rfl
  rw [ofText, ofText, ofText, String.toList_append, String.toList_append, slash, List.append_assoc,
    List.singleton_append, splitAt_append, List.filter_append, List.map_append]

theorem parts_of_clean {text : String} (kept : isPart text.toList = true) (clean : '/' ∉ text.toList) :
    (ofText text).parts = [text] := by
  rw [ofText, splitAt_eq_splitOn, List.splitOn_eq_singleton clean, List.filter_singleton, kept]
  simp

end ScopeComplexity.Path
