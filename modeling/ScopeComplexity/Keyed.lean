namespace ScopeComplexity

abbrev Keyed (β : Type) := List (String × β)

namespace Keyed

def get? (m : Keyed β) (key : String) : Option β := m.lookup key

def put (key : String) (value : β) : Keyed β → Keyed β
  | [] => [(key, value)]
  | (k, v) :: rest => if k = key then (key, value) :: rest else (k, v) :: put key value rest

def keys (m : Keyed β) : List String := m.map (·.1)

def erase (m : Keyed β) (key : String) : Keyed β := m.filter (·.1 != key)

def update (m later : Keyed β) : Keyed β :=
  later.foldl (fun merged (key, value) => merged.put key value) m

def sorted (m : Keyed β) : Keyed β := m.mergeSort fun a b => a.1 ≤ b.1

theorem get?_put (m : Keyed β) (key : String) (value : β) (k : String) :
    (m.put key value).get? k = if k = key then some value else m.get? k := by
  induction m with
  | nil => by_cases h : k = key <;> simp [put, get?, List.lookup_cons, h, beq_eq_false_iff_ne.2]
  | cons entry rest ih =>
    obtain ⟨k', v⟩ := entry
    simp only [get?] at ih
    by_cases h' : k' = key
    · subst h'
      by_cases h : k = k' <;> simp [put, get?, List.lookup_cons, h, beq_eq_false_iff_ne.2]
    · by_cases h : k = k'
      · subst h
        simp [put, get?, h']
      · simp [put, get?, List.lookup_cons, h', beq_eq_false_iff_ne.2 h, ih]

end Keyed

end ScopeComplexity
