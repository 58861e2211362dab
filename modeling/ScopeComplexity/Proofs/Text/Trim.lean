import Mathlib.Data.List.DropRight
import ScopeComplexity.Text.Blank

namespace ScopeComplexity.Text

variable {drop : Char → Bool} {text inner left rest : List Char}

structure Bare (drop : Char → Bool) (text : List Char) : Prop where
  head : ∀ c ∈ text.head?, drop c = false
  last : ∀ c ∈ text.getLast?, drop c = false

/-- What stands in a text between characters of a class on either side. -/
structure Strips (drop : Char → Bool) (text inner : List Char) : Prop where
  bare : Bare drop inner
  within : ∃ left right, text = left ++ inner ++ right ∧ (∀ c ∈ left, drop c = true) ∧
    ∀ c ∈ right, drop c = true

theorem dropWhile_append_of_head (dropped : ∀ c ∈ left, drop c = true)
    (head : ∀ c ∈ rest.head?, drop c = false) : (left ++ rest).dropWhile drop = rest := by
  rw [List.dropWhile_append_of_pos dropped]
  cases rest with
  | nil => rfl
  | cons c rest =>
    rw [List.dropWhile_cons_of_neg]
    rw [head c rfl]
    exact Bool.false_ne_true

theorem head_dropWhile (drop : Char → Bool) (text : List Char) :
    ∀ c ∈ (text.dropWhile drop).head?, drop c = false := by
  intro c first
  have stops := List.head?_dropWhile_not drop text
  rw [Option.mem_def.1 first] at stops
  exact stops

theorem Strips.trimEnds_eq (h : Strips drop text inner) : trimEnds drop text = inner := by
  obtain ⟨⟨head, last⟩, left, right, rfl, droppedLeft, droppedRight⟩ := h
  cases inner with
  | nil =>
    have all : ∀ c ∈ left ++ [] ++ right, drop c = true := by
      rw [List.append_nil]
      exact List.forall_mem_append.2 ⟨droppedLeft, droppedRight⟩
    rw [trimEnds, List.dropWhile_eq_nil_iff.2 all]
    rfl
  | cons c inner =>
    have front : (left ++ (c :: inner) ++ right).dropWhile drop = c :: inner ++ right := by
      rw [List.append_assoc]
      exact dropWhile_append_of_head droppedLeft head
    have back : (right.reverse ++ (c :: inner).reverse).dropWhile drop = (c :: inner).reverse := by
      apply dropWhile_append_of_head
      · exact fun d member => droppedRight d (List.mem_reverse.1 member)
      · rwa [List.head?_reverse]
    rw [trimEnds, front, List.reverse_append, back, List.reverse_reverse]

theorem strips_trimEnds (drop : Char → Bool) (text : List Char) : Strips drop text (trimEnds drop text) := by
  have front := List.takeWhile_append_dropWhile (p := drop) (l := text)
  have back := List.rdropWhile_append_rtakeWhile (p := drop) (l := text.dropWhile drop)
  have same : trimEnds drop text = (text.dropWhile drop).rdropWhile drop := rfl
  rw [same]
  refine ⟨⟨?_, ?_⟩, text.takeWhile drop, (text.dropWhile drop).rtakeWhile drop, ?_, ?_, ?_⟩
  · intro c first
    apply head_dropWhile drop text
    rw [← back, List.head?_append, Option.mem_def.1 first]
    rfl
  · rw [List.rdropWhile, List.getLast?_reverse]
    exact head_dropWhile drop _
  · rw [List.append_assoc, back, front]
  · exact fun c => List.mem_takeWhile_imp
  · exact fun c => List.mem_rtakeWhile_imp

theorem trimEnds_eq_iff : trimEnds drop text = inner ↔ Strips drop text inner := by
  constructor
  · rintro rfl
    exact strips_trimEnds drop text
  · exact Strips.trimEnds_eq

theorem Bare.trimEnds_eq (h : Bare drop text) : trimEnds drop text = text :=
  trimEnds_eq_iff.2 ⟨h, [], [], by simp, List.forall_mem_nil _, List.forall_mem_nil _⟩

theorem trimEnds_eq_nil_iff : trimEnds drop text = [] ↔ ∀ c ∈ text, drop c = true := by
  constructor
  · intro nothing
    obtain ⟨-, left, right, rfl, droppedLeft, droppedRight⟩ := trimEnds_eq_iff.1 nothing
    rw [List.append_nil]
    exact List.forall_mem_append.2 ⟨droppedLeft, droppedRight⟩
  · intro dropped
    exact trimEnds_eq_iff.2 ⟨⟨nofun, nofun⟩, text, [], by simp, dropped, List.forall_mem_nil _⟩

end ScopeComplexity.Text
