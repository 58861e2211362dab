namespace ScopeComplexity.WorkList

noncomputable def weight {β : Type} [SizeOf β] : List β → Nat
  | [] => 0
  | t :: rest => sizeOf t + weight rest

theorem weight_append {β : Type} [SizeOf β] (ts us : List β) :
    weight (ts ++ us) = weight ts + weight us := by
  induction ts with
  | nil => simp [weight]
  | cons t ts ih => simp [weight, ih, Nat.add_assoc]

theorem weight_lt_sizeOf {β : Type} [SizeOf β] (ts : List β) : weight ts < sizeOf ts := by
  induction ts with
  | nil => simp [weight]
  | cons t ts ih =>
    simp only [weight, List.cons.sizeOf_spec]
    omega

end ScopeComplexity.WorkList
