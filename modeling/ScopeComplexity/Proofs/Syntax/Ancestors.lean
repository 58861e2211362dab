import Mathlib.Order.Basic
import ScopeComplexity.Syntax.Site

namespace ScopeComplexity.Syntax.Site

def ancestor? : Nat → Site → Option Site
  | 0, s => s.parent?
  | i + 1, s => s.parent?.bind (ancestor? i)

def climbOn (found stop : Site → Bool) : List Node → Bool
  | [] => false
  | n :: above =>
    if found ⟨n, above⟩ then true
    else if stop ⟨n, above⟩ then false
    else climbOn found stop above

def hasAncestorAnywhere (s : Site) (found stop : Site → Bool) : Bool := climbOn found stop s.above

def Ends (found stop : Site → Bool) (s : Site) (i : Nat) : Prop :=
  ∃ a, ancestor? i s = some a ∧ (found a = true ∨ stop a = true)

/-- The ancestor with number `i` is found, and no nearer one ends the search. -/
structure FoundAt (found stop : Site → Bool) (s : Site) (i : Nat) : Prop where
  here : ∃ a, ancestor? i s = some a ∧ found a = true
  first : ∀ j < i, ¬ Ends found stop s j

variable {found stop : Site → Bool} {s parent : Site} {i j limit : Nat}

theorem lt_length_of_ancestor? {a : Site} (h : ancestor? i s = some a) : i < s.above.length := by
  obtain ⟨n, above⟩ := s
  induction i generalizing n above with
  | zero =>
    cases above with
    | nil => cases h
    | cons parent above => exact Nat.succ_pos _
  | succ i ih =>
    cases above with
    | nil => cases h
    | cons parent above => exact Nat.succ_lt_succ (ih parent above h)

theorem ancestor?_succ (up : s.parent? = some parent) (i : Nat) :
    ancestor? (i + 1) s = ancestor? i parent := by
  rw [ancestor?, up, Option.bind_some]

theorem ends_zero_iff (up : s.parent? = some parent) :
    Ends found stop s 0 ↔ found parent = true ∨ stop parent = true := by
  simp [Ends, ancestor?, up]

theorem ends_succ_iff (up : s.parent? = some parent) :
    Ends found stop s (i + 1) ↔ Ends found stop parent i := by
  rw [Ends, Ends, ancestor?_succ up]

theorem foundAt_zero_iff (up : s.parent? = some parent) :
    FoundAt found stop s 0 ↔ found parent = true := by
  constructor
  · rintro ⟨⟨a, here, finds⟩, -⟩
    cases up.symm.trans here
    exact finds
  · intro finds
    exact ⟨⟨parent, up, finds⟩, fun j earlier => absurd earlier (Nat.not_lt_zero j)⟩

theorem foundAt_succ_iff (up : s.parent? = some parent) :
    FoundAt found stop s (i + 1) ↔
      ¬ (found parent = true ∨ stop parent = true) ∧ FoundAt found stop parent i := by
  constructor
  · rintro ⟨here, first⟩
    rw [ancestor?_succ up] at here
    refine ⟨(ends_zero_iff up).not.1 (first 0 i.succ_pos), here, fun j earlier => ?_⟩
    exact (ends_succ_iff up).not.1 (first (j + 1) (Nat.succ_lt_succ earlier))
  · rintro ⟨passes, here, first⟩
    rw [← ancestor?_succ up] at here
    refine ⟨here, fun j earlier => ?_⟩
    cases j with
    | zero => exact (ends_zero_iff up).not.2 passes
    | succ j => exact (ends_succ_iff up).not.2 (first j (Nat.lt_of_succ_lt_succ earlier))

theorem FoundAt.lt_length (h : FoundAt found stop s i) : i < s.above.length := by
  obtain ⟨a, here, -⟩ := h.here
  exact lt_length_of_ancestor? here

theorem FoundAt.ends (h : FoundAt found stop s i) : Ends found stop s i := by
  obtain ⟨a, here, finds⟩ := h.here
  exact ⟨a, here, Or.inl finds⟩

theorem FoundAt.le (h : FoundAt found stop s i) (ends : Ends found stop s j) : i ≤ j :=
  Nat.le_of_not_lt fun earlier => h.first j earlier ends

theorem FoundAt.unique (hi : FoundAt found stop s i) (hj : FoundAt found stop s j) : i = j :=
  Nat.le_antisymm (hi.le hj.ends) (hj.le hi.ends)

theorem climb_eq_true_iff :
    climb found stop limit s.above = true ↔ ∃ i < limit, FoundAt found stop s i := by
  obtain ⟨n, above⟩ := s
  induction limit generalizing n above with
  | zero => simp [climb]
  | succ limit ih =>
    cases above with
    | nil =>
      simp only [climb, Bool.false_eq_true, false_iff]
      rintro ⟨i, -, foundAt⟩
      exact absurd foundAt.lt_length (Nat.not_lt_zero i)
    | cons p above =>
      have up : Site.parent? ⟨n, p :: above⟩ = some ⟨p, above⟩ := rfl
      rw [climb, Nat.exists_lt_succ_left, foundAt_zero_iff up]
      simp only [foundAt_succ_iff up]
      by_cases finds : found ⟨p, above⟩ = true
      · simp [finds]
      · by_cases stops : stop ⟨p, above⟩ = true
        · simp [finds, stops]
        · simp [finds, stops, ih p above]

theorem climb_eq_climbOn {above : List Node} (few : above.length ≤ limit) :
    climb found stop limit above = climbOn found stop above := by
  induction above generalizing limit with
  | nil => cases limit <;> rfl
  | cons n above ih =>
    obtain ⟨limit, rfl⟩ := Nat.exists_eq_add_one_of_ne_zero (Nat.ne_zero_of_lt few)
    rw [climb, climbOn, ih (Nat.le_of_succ_le_succ few)]

theorem hasAncestor_eq_true_iff :
    s.hasAncestor found stop = true ↔ ∃ i < searchLimit, FoundAt found stop s i :=
  climb_eq_true_iff

theorem hasAncestorAnywhere_eq_true_iff :
    s.hasAncestorAnywhere found stop = true ↔ ∃ i, FoundAt found stop s i := by
  rw [hasAncestorAnywhere, ← climb_eq_climbOn (Nat.le_refl _), climb_eq_true_iff]
  exact ⟨fun ⟨i, _, foundAt⟩ => ⟨i, foundAt⟩, fun ⟨i, foundAt⟩ => ⟨i, foundAt.lt_length, foundAt⟩⟩

theorem hasAncestor_ne_iff :
    s.hasAncestor found stop ≠ s.hasAncestorAnywhere found stop ↔
      ∃ i, searchLimit ≤ i ∧ FoundAt found stop s i := by
  rw [Ne, Bool.eq_iff_iff, hasAncestor_eq_true_iff, hasAncestorAnywhere_eq_true_iff]
  constructor
  · intro differ
    by_contra none
    refine differ ⟨fun ⟨i, _, foundAt⟩ => ⟨i, foundAt⟩, fun ⟨i, foundAt⟩ => ⟨i, ?_, foundAt⟩⟩
    exact Nat.lt_of_not_le fun far => none ⟨i, far, foundAt⟩
  · rintro ⟨i, far, foundAt⟩ same
    obtain ⟨j, near, foundAt'⟩ := same.2 ⟨i, foundAt⟩
    rw [foundAt.unique foundAt'] at far
    exact absurd near (Nat.not_lt_of_le far)

theorem not_far_of_near (near : (∃ i < limit, Ends found stop s i) ∨ s.above.length ≤ limit) :
    ¬ ∃ i, limit ≤ i ∧ FoundAt found stop s i := by
  rintro ⟨i, far, foundAt⟩
  rcases near with ⟨j, below, ends⟩ | few
  · exact absurd (foundAt.le ends) (Nat.not_le_of_lt (Nat.lt_of_lt_of_le below far))
  · exact absurd foundAt.lt_length (Nat.not_lt_of_le (Nat.le_trans few far))

/-- The search for an ancestor looks at ten thousand of them, the parent first, and finds the first one to be found
or to stop it, if that one is to be found. It agrees with the search that never gives up if one of these ends it
or there are no more of them, and otherwise misses what lies above. -/
theorem hasAncestor_iff_foundAt (s : Site) (found stop : Site → Bool) :
    (s.hasAncestor found stop = true ↔ ∃ i < 10000, FoundAt found stop s i) ∧
    (s.hasAncestorAnywhere found stop = true ↔ ∃ i, FoundAt found stop s i) ∧
    ((∃ i < 10000, Ends found stop s i) ∨ s.above.length ≤ 10000 →
      s.hasAncestor found stop = s.hasAncestorAnywhere found stop) ∧
    (s.hasAncestor found stop ≠ s.hasAncestorAnywhere found stop ↔
      s.hasAncestor found stop = false ∧ ∃ i, 10000 ≤ i ∧ FoundAt found stop s i) := by
  refine ⟨hasAncestor_eq_true_iff, hasAncestorAnywhere_eq_true_iff, fun near => ?_, ?_⟩
  · by_contra differ
    exact not_far_of_near near (hasAncestor_ne_iff.1 differ)
  · rw [hasAncestor_ne_iff, searchLimit]
    refine ⟨fun far => ⟨?_, far⟩, And.right⟩
    rw [← Bool.not_eq_true, hasAncestor_eq_true_iff]
    rintro ⟨i, near, foundAt⟩
    exact not_far_of_near (Or.inl ⟨i, near, foundAt.ends⟩) far

theorem foundAt_replicate {plain top : Node} {above : List Node}
    (passes : ∀ above, ¬ (found ⟨plain, above⟩ = true ∨ stop ⟨plain, above⟩ = true))
    (finds : found ⟨top, above⟩ = true) (n : Node) (count : Nat) :
    FoundAt found stop ⟨n, List.replicate count plain ++ top :: above⟩ count := by
  induction count generalizing n with
  | zero => exact (foundAt_zero_iff rfl).2 finds
  | succ count ih => exact (foundAt_succ_iff rfl).2 ⟨passes _, ih plain⟩

theorem hasAncestor_iff_foundAt_of_deep :
    let block : Node := .node { kind := "block" } []
    let loop : Node := .node { kind := "while_statement" } []
    let inside (blocks : Nat) : Site := ⟨block, List.replicate blocks block ++ [loop]⟩
    let found := kindIn ["while_statement"]
    let stop := kindIn ["lambda"]
    (inside 9999).above.length ≤ 10000 ∧
      (inside 9999).hasAncestor found stop = true ∧
      (inside 9999).hasAncestor found stop = (inside 9999).hasAncestorAnywhere found stop ∧
      (inside 10000).hasAncestor found stop = false ∧
      (inside 10000).hasAncestorAnywhere found stop = true := by
  intro block loop inside found stop
  have foundAt (blocks : Nat) : FoundAt found stop (inside blocks) blocks :=
    foundAt_replicate (fun _ => by simp [found, stop, block, kindIn, Node.kind, Node.label]) rfl block blocks
  have length (blocks : Nat) : (inside blocks).above.length = blocks + 1 := by simp [inside]
  have few : (inside 9999).above.length ≤ 10000 := Nat.le_of_eq (length 9999)
  obtain ⟨finds, -, same, -⟩ := hasAncestor_iff_foundAt (inside 9999) found stop
  obtain ⟨-, anywhere, -, differ⟩ := hasAncestor_iff_foundAt (inside 10000) found stop
  have far := hasAncestor_ne_iff.2 ⟨10000, Nat.le_refl _, foundAt 10000⟩
  exact ⟨few, finds.2 ⟨9999, by decide, foundAt 9999⟩, same (Or.inr few), (differ.1 far).1,
    anywhere.2 ⟨10000, foundAt 10000⟩⟩

end ScopeComplexity.Syntax.Site
