import Mathlib.Data.List.Basic
import Mathlib.Data.String.Basic
import ScopeComplexity.Path

namespace ScopeComplexity.Path

def IsName (name : String) : Prop := isPart name.toList = true ∧ '/' ∉ name.toList

def Normal (p : Path) : Prop := ∀ part ∈ p.parts, IsName part

theorem splitAt_eq_splitOn (separator : Char) (text : List Char) :
    splitAt separator text = text.splitOn separator := by
  induction text with
  | nil => rfl
  | cons c text ih =>
    rw [splitAt, ih, List.splitOn_cons_eq_if_modifyHead]
    cases pieces : text.splitOn separator with
    | nil => exact absurd pieces (List.splitOn_ne_nil separator text)
    | cons piece pieces => rfl

theorem not_mem_of_mem_splitAt {separator : Char} {text piece : List Char}
    (h : piece ∈ splitAt separator text) : separator ∉ piece := by
  induction text generalizing piece with
  | nil =>
    rw [splitAt, List.mem_singleton] at h
    subst h
    exact List.not_mem_nil
  | cons c text ih =>
    rw [splitAt] at h
    split at h
    · rcases List.mem_cons.1 h with rfl | h
      · exact List.not_mem_nil
      · exact ih h
    · rename_i other
      rw [beq_iff_eq] at other
      split at h
      · rw [List.mem_singleton] at h
        subst h
        simpa using Ne.symm other
      · rename_i first rest pieces
        rw [pieces] at ih
        rcases List.mem_cons.1 h with rfl | h
        · have absent := ih List.mem_cons_self
          simpa [Ne.symm other] using absent
        · exact ih (List.mem_cons_of_mem _ h)

theorem normal_ofText (text : String) : (ofText text).Normal := by
  intro part h
  obtain ⟨piece, filtered, rfl⟩ := List.mem_map.1 h
  obtain ⟨member, kept⟩ := List.mem_filter.1 filtered
  rw [IsName, String.toList_ofList]
  exact ⟨kept, not_mem_of_mem_splitAt member⟩

theorem Normal.child {p : Path} (h : p.Normal) {name : String} (isName : IsName name) :
    (p.child name).Normal := by
  intro part member
  rcases List.mem_append.1 member with member | member
  · exact h part member
  · rw [List.mem_singleton] at member
    exact member ▸ isName

theorem rootOf_append (root : Root) {rest : List Char} (h : rest.head? ≠ some '/') :
    rootOf (root.text.toList ++ rest) = root := by
  have none : rest.takeWhile (· == '/') = [] := by
    cases rest with
    | nil => rfl
    | cons c rest =>
      rw [List.takeWhile_cons_of_neg]
      simpa using h
  cases root with
  | none => simp [rootOf, Root.text, none]
  | slash => simp [rootOf, Root.text, none]
  | doubleSlash => simp [rootOf, Root.text, none]

theorem filter_splitAt_append (root : Root) (rest : List Char) :
    (splitAt '/' (root.text.toList ++ rest)).filter isPart = (splitAt '/' rest).filter isPart := by
  cases root with
  | none => simp [Root.text]
  | slash => simp [Root.text, splitAt, isPart]
  | doubleSlash => simp [Root.text, splitAt, isPart]

theorem toList_intercalate (parts : List String) :
    ("/".intercalate parts).toList = ['/'].intercalate (parts.map String.toList) := by
  simp

theorem head?_intercalate {parts : List String} (h : ∀ part ∈ parts, IsName part) :
    ("/".intercalate parts).toList.head? ≠ some '/' := by
  rw [toList_intercalate]
  cases parts with
  | nil => simp
  | cons part parts =>
    obtain ⟨kept, clean⟩ := h part List.mem_cons_self
    cases text : part.toList with
    | nil => simp [text, isPart] at kept
    | cons c rest =>
      have other : c ≠ '/' := fun same => clean (by simp [text, same])
      cases parts with
      | nil => simp [text, other]
      | cons next parts => simp [text, other, List.intercalate_cons_cons]

theorem parts_intercalate {parts : List String} (h : ∀ part ∈ parts, IsName part) :
    ((splitAt '/' ("/".intercalate parts).toList).filter isPart).map String.ofList = parts := by
  cases parts with
  | nil => decide
  | cons part parts =>
    have clean : ∀ piece ∈ (part :: parts).map String.toList, '/' ∉ piece :=
      List.forall_mem_map.2 fun name member => (h name member).2
    have kept : ∀ piece ∈ (part :: parts).map String.toList, isPart piece = true :=
      List.forall_mem_map.2 fun name member => (h name member).1
    rw [toList_intercalate, splitAt_eq_splitOn, List.splitOn_intercalate _ clean (List.cons_ne_nil _ _),
      List.filter_eq_self.2 kept, List.map_map]
    exact List.map_id'' (fun name => String.ofList_toList) _

theorem ofText_shown {p : Path} (h : p.Normal) : ofText p.shown = p := by
  obtain ⟨root, parts⟩ := p
  rw [shown]
  split
  · rename_i here
    simp only [Bool.and_eq_true, decide_eq_true_iff, List.isEmpty_iff] at here
    rw [here.1, here.2]
    decide
  · rw [ofText, String.toList_append, rootOf_append _ (head?_intercalate h), filter_splitAt_append,
      parts_intercalate h]

theorem shown_injective {p q : Path} (hp : p.Normal) (hq : q.Normal) (h : p.shown = q.shown) :
    p = q := by
  rw [← ofText_shown hp, h, ofText_shown hq]

theorem not_mem_intercalate {c : Char} {parts : List String} (other : c ≠ '/')
    (h : ∀ part ∈ parts, c ∉ part.toList) : c ∉ ("/".intercalate parts).toList := by
  rw [toList_intercalate]
  induction parts with
  | nil => simp
  | cons part parts ih =>
    rw [List.forall_mem_cons] at h
    cases parts with
    | nil => simpa using h.1
    | cons next parts =>
      have rest := ih h.2
      simp only [List.map_cons, List.intercalate_cons_cons] at rest ⊢
      simp [h.1, other, rest]

theorem hasNull_of_parts {p : Path} (h : ∀ part ∈ p.parts, '\x00' ∉ part.toList) : p.hasNull = false := by
  have joined := not_mem_intercalate (by decide) h
  have start : '\x00' ∉ p.root.text.toList := by
    cases p.root <;> decide
  have clean : '\x00' ∉ p.shown.toList := by
    rw [shown]
    split
    · decide
    · rw [String.toList_append, List.mem_append, not_or]
      exact ⟨start, joined⟩
  rw [hasNull]
  simpa using clean

end ScopeComplexity.Path
