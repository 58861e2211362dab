import ScopeComplexity.Proofs.Path.Normal

namespace ScopeComplexity.Path

variable {p : Path}

theorem shown_of_parts (below : p.parts ≠ []) : p.shown = p.root.text ++ "/".intercalate p.parts := by
  rw [shown, List.isEmpty_eq_false_iff.2 below, Bool.and_false, if_neg Bool.false_ne_true]

theorem shown_singleton (root : Root) (name : String) : shown ⟨root, [name]⟩ = root.text ++ name := by
  rw [shown_of_parts (List.cons_ne_nil _ _), String.intercalate_singleton]

theorem shown_name (name : String) : shown ⟨.none, [name]⟩ = name := by
  rw [shown_singleton, Root.text, String.empty_append]

theorem utf8ByteSize_replicate (c : Char) (n : Nat) :
    (String.ofList (List.replicate n c)).utf8ByteSize = n * c.utf8Size := by
  rw [String.utf8ByteSize_ofList]
  induction n with
  | zero => rw [Nat.zero_mul, List.replicate_zero, String.utf8Len_nil]
  | succ n ih => rw [List.replicate_succ, String.utf8Len_cons, ih, Nat.succ_mul]

theorem size_child (below : p.parts ≠ []) (name : String) :
    (p.child name).size = p.size + 1 + name.utf8ByteSize := by
  have slash : "/".utf8ByteSize = 1 := by decide
  rw [size, size, shown_of_parts below, shown_of_parts (List.append_ne_nil_of_left_ne_nil below _), child,
    String.intercalate_append_of_ne_nil below (List.cons_ne_nil _ _), String.intercalate_singleton]
  simp only [String.utf8ByteSize_append, slash]
  omega

end ScopeComplexity.Path
