import Mathlib.Data.List.Nodup
import ScopeComplexity.Toml.Document

namespace ScopeComplexity

namespace Toml.Entries

def Distinct (entries : Entries) : Prop :=
  ∃ names : List String, names.Nodup ∧ entries.map (·.1) = names.map .text

end Toml.Entries

namespace Value

def inner : Value → List Value
  | .list items => items
  | .table entries => entries.map (·.2)
  | _ => []

/-- No table at or below a value has a key twice. -/
inductive Distinct : Value → Prop where
  | value {v : Value} (keys : ∀ entries, v = .table entries → Toml.Entries.Distinct entries)
      (below : ∀ w ∈ v.inner, Distinct w) : Distinct v

theorem distinct_of_leaf {v : Value} (noTable : ∀ entries, v ≠ .table entries) (alone : v.inner = []) : v.Distinct :=
  ⟨fun entries same => (noTable entries same).elim, by simp [alone]⟩

theorem distinct_list_iff {items : List Value} :
    (Value.list items).Distinct ↔ ∀ v ∈ items, v.Distinct := by
  constructor
  · rintro ⟨-, below⟩
    exact below
  · intro below
    exact ⟨fun entries same => Value.noConfusion same, below⟩

theorem distinct_table_iff {entries : Toml.Entries} :
    (Value.table entries).Distinct
      ↔ Toml.Entries.Distinct entries ∧ ∀ e ∈ entries, e.2.Distinct := by
  constructor
  · rintro ⟨keys, below⟩
    exact ⟨keys entries rfl, fun e member => below e.2 (List.mem_map_of_mem member)⟩
  · rintro ⟨keys, below⟩
    refine ⟨?_, List.forall_mem_map.2 below⟩
    rintro _ ⟨⟩
    exact keys

theorem distinct_table_nil : (Value.table []).Distinct :=
  distinct_table_iff.2 ⟨⟨[], List.nodup_nil, rfl⟩, List.forall_mem_nil _⟩

end Value

namespace Toml.Entries

theorem isText_iff {v : Value} {name : String} : v.isText name = true ↔ v = .text name := by
  cases v <;> simp [Value.isText]

theorem mem_of_get? {entries : Entries} {name : String} {v : Value}
    (h : get? entries name = some v) : (.text name, v) ∈ entries := by
  obtain ⟨⟨key, w⟩, found, rfl⟩ := Option.map_eq_some_iff.1 h
  have same := List.find?_some found
  obtain rfl : key = .text name := isText_iff.1 same
  exact List.mem_of_find?_eq_some found

theorem not_mem_of_get? {entries : Entries} {name : String} (h : get? entries name = none) :
    .text name ∉ entries.map (·.1) := by
  rintro member
  obtain ⟨e, member, key⟩ := List.mem_map.1 member
  have := List.find?_eq_none.1 (Option.map_eq_none_iff.1 h) e member
  exact this (isText_iff.2 key)

theorem map_fst_put {entries : Entries} {name : String} {v : Value} :
    (put entries name v).map (·.1)
      = entries.map (·.1) ++ if (get? entries name).isSome then [] else [.text name] := by
  rw [put]
  split
  · rw [List.map_map, List.append_nil]
    apply List.map_congr_left
    intro e _
    simp only [Function.comp_apply]
    split <;> rfl
  · rw [List.map_append]
    rfl

theorem mem_put {entries : Entries} {name : String} {v : Value} {e : Value × Value}
    (h : e ∈ put entries name v) : e.2 = v ∨ e ∈ entries := by
  rw [put] at h
  split at h
  · obtain ⟨e', member, rfl⟩ := List.mem_map.1 h
    split
    · exact .inl rfl
    · exact .inr member
  · rcases List.mem_append.1 h with member | member
    · exact .inr member
    · exact .inl (congrArg Prod.snd (List.mem_singleton.1 member))

theorem distinct_put {entries : Entries} (h : (Value.table entries).Distinct) (name : String) {v : Value}
    (hv : v.Distinct) : (Value.table (put entries name v)).Distinct := by
  rw [Value.distinct_table_iff] at h ⊢
  obtain ⟨⟨names, nodup, keys⟩, below⟩ := h
  constructor
  · rw [Distinct, map_fst_put, keys]
    cases found : get? entries name with
    | some w => exact ⟨names, nodup, List.append_nil _⟩
    | none =>
      have fresh := not_mem_of_get? found
      rw [keys] at fresh
      refine ⟨names ++ [name], ?_, by rw [List.map_append]; rfl⟩
      rw [List.nodup_append_comm, List.singleton_append, List.nodup_cons]
      exact ⟨fun member => fresh (List.mem_map_of_mem member), nodup⟩
  · intro e member
    rcases mem_put member with rfl | member
    · exact hv
    · exact below e member

theorem distinct_of_get? {entries : Entries} (h : (Value.table entries).Distinct) {name : String}
    {v : Value} (found : get? entries name = some v) : v.Distinct :=
  (Value.distinct_table_iff.1 h).2 _ (mem_of_get? found)

theorem distinct_changeAt {intoArrays : Bool} {change : Entries → Option Entries}
    (changes : ∀ entries changed, (Value.table entries).Distinct → change entries = some changed →
      (Value.table changed).Distinct) {path : Key} {entries changed : Entries}
    (h : (Value.table entries).Distinct) (made : changeAt intoArrays change path entries = some changed) :
    (Value.table changed).Distinct := by
  induction path generalizing entries changed with
  | nil => exact changes entries changed h made
  | cons name path ih =>
    rw [changeAt] at made
    split at made
    · obtain ⟨inner, below, rfl⟩ := Option.map_eq_some_iff.1 made
      exact distinct_put h name (ih Value.distinct_table_nil below)
    · rename_i inner found
      obtain ⟨inner', below, rfl⟩ := Option.map_eq_some_iff.1 made
      exact distinct_put h name (ih (distinct_of_get? h found) below)
    · rename_i items found
      have each := Value.distinct_list_iff.1 (distinct_of_get? h found)
      split at made
      · rename_i inner last
        split at made
        · obtain ⟨inner', below, rfl⟩ := Option.map_eq_some_iff.1 made
          have own := ih (each _ (List.mem_of_getLast? last)) below
          apply distinct_put h name
          rw [Value.distinct_list_iff, List.forall_mem_append]
          exact ⟨fun v member => each v (List.dropLast_subset items member), List.forall_mem_singleton.2 own⟩
        · cases made
      · cases made
    · cases made

theorem distinct_addNew {name : String} {v : Value} (hv : v.Distinct) {entries changed : Entries}
    (h : (Value.table entries).Distinct) (made : addNew name v entries = some changed) :
    (Value.table changed).Distinct := by
  rw [addNew] at made
  split at made
  · cases made
  · cases made
    exact distinct_put h name hv

theorem distinct_addTable {name : String} {entries changed : Entries}
    (h : (Value.table entries).Distinct) (made : addTable name entries = some changed) :
    (Value.table changed).Distinct := by
  have empty := Value.distinct_table_nil
  rw [addTable] at made
  split at made
  · cases made
    exact distinct_put h name (Value.distinct_list_iff.2 (List.forall_mem_singleton.2 empty))
  · rename_i items found
    cases made
    apply distinct_put h name
    rw [Value.distinct_list_iff, List.forall_mem_append]
    exact ⟨Value.distinct_list_iff.1 (distinct_of_get? h found), List.forall_mem_singleton.2 empty⟩
  · cases made

end Toml.Entries

namespace Toml.Reader

variable {β γ : Type}

def Yields (P : β → Prop) (r : Reader β) : Prop :=
  ∀ size text b rest, (r.run size).run text = .ok (b, rest) → P b

theorem Yields.pure {P : β → Prop} {b : β} (h : P b) : Yields P (pure b) := by
  intro size text b' rest given
  cases given
  exact h

theorem Yields.bind {P : β → Prop} {Q : γ → Prop} {r : Reader β} {f : β → Reader γ} (first : Yields P r)
    (next : ∀ b, P b → Yields Q (f b)) : Yields Q (r >>= f) := by
  intro size text c rest given
  change ((r.run size).run text >>= fun p => ((f p.1).run size).run p.2) = .ok (c, rest) at given
  cases taken : (r.run size).run text with
  | error e =>
    rw [taken] at given
    cases given
  | ok p =>
    rw [taken] at given
    exact next p.1 (first size text p.1 p.2 taken) size p.2 c rest given

theorem Yields.after {Q : γ → Prop} {r : Reader β} {f : β → Reader γ} (next : ∀ b, Yields Q (f b)) :
    Yields Q (r >>= f) :=
  Yields.bind (P := fun _ => True) (fun _ _ _ _ _ => trivial) fun b _ => next b

theorem yields_throw {P : β → Prop} (e : Refusal) : Yields P (throw e : Reader β) := by
  intro size text b rest given
  cases given

theorem Yields.checked {Q : β → Prop} {c : Prop} [Decidable c] {stop : Reader Unit}
    {rest : Unit → Reader β} (next : ∀ u, Yields Q (rest u)) :
    Yields Q (if c then stop >>= rest else rest ()) := by
  split
  · exact .after next
  · exact next ()

theorem Yields.either {Q : β → Prop} {c : Prop} [Decidable c] {r r' : Reader β} (yes : Yields Q r)
    (no : Yields Q r') : Yields Q (if c then r else r') := by
  split
  · exact yes
  · exact no

theorem distinct_of_basedNumber? {text rest : List Char} {v : Value}
    (h : basedNumber? text = some (v, rest)) : v.Distinct := by
  rw [basedNumber?.eq_def] at h
  dsimp only at h
  split at h
  case h_4 => cases h
  all_goals split at h
  all_goals cases h
  all_goals exact Value.distinct_of_leaf (by simp) rfl

theorem distinct_of_decimalNumber? {text rest : List Char} {v : Value}
    (h : decimalNumber? text = some (.ok v, rest)) : v.Distinct := by
  rw [decimalNumber?] at h
  dsimp only at h
  split at h
  · cases h
  · split at h
    · split at h
      · cases h
      · cases h
        exact Value.distinct_of_leaf (by simp) rfl
    · cases h
      exact Value.distinct_of_leaf (by simp) rfl

theorem yields_number : Yields Value.Distinct number := by
  rw [number]
  refine .after fun text => ?_
  split
  · rename_i found
    exact .after fun _ => .pure (distinct_of_basedNumber? found)
  · split
    · rename_i v rest found
      refine .after fun _ => ?_
      intro size text w rest' given
      cases v with
      | error e => cases given
      | ok v =>
        cases given
        exact distinct_of_decimalNumber? found
    · split
      · exact .after fun _ => .pure (Value.distinct_of_leaf (by simp) rfl)
      · exact yields_throw _

structure Rounds (n : Nat) : Prop where
  value : ∀ room, Yields Value.Distinct (value n room)
  items : ∀ room, Yields (fun items => ∀ v ∈ items, v.Distinct) (items n room)
  pair : ∀ room, Yields (fun p => p.2.Distinct) (pair n room)
  inlineEntries : ∀ room entries marks, (Value.table entries).Distinct →
    Yields (fun entries => (Value.table entries).Distinct) (inlineEntries n room entries marks)

theorem Rounds.value_succ {n : Nat} (h : Rounds n) (room : Nat) :
    Yields Value.Distinct (Reader.value (n + 1) room) := by
  rw [Reader.value]
  refine .after fun text => ?_
  split
  · exact .after fun _ => .pure (Value.distinct_of_leaf (by simp) rfl)
  · exact .after fun _ => .pure (Value.distinct_of_leaf (by simp) rfl)
  · exact .after fun _ => .pure (Value.distinct_of_leaf (by simp) rfl)
  · exact .after fun _ => .pure (Value.distinct_of_leaf (by simp) rfl)
  · refine .checked fun _ => .after fun _ => .after fun _ => .after fun _ => .either ?_ ?_
    · exact .pure (Value.distinct_list_iff.2 (List.forall_mem_nil _))
    · exact (h.items _).bind fun _ each => .pure (Value.distinct_list_iff.2 each)
  · refine .checked fun _ => .after fun _ => .after fun _ => .after fun _ => .either ?_ ?_
    · exact .pure Value.distinct_table_nil
    · exact (h.inlineEntries _ _ _ Value.distinct_table_nil).bind fun _ own => .pure own
  · refine .after fun _ => .either (.pure (Value.distinct_of_leaf (by simp) rfl)) ?_
    refine .after fun _ => .either (.pure (Value.distinct_of_leaf (by simp) rfl)) ?_
    split
    · exact .checked fun _ => .after fun _ => .pure (Value.distinct_of_leaf (by simp) rfl)
    · exact yields_number

theorem Rounds.items_succ {n : Nat} (h : Rounds n) (room : Nat) :
    Yields (fun items => ∀ v ∈ items, v.Distinct) (Reader.items (n + 1) room) := by
  rw [Reader.items]
  refine (h.value room).bind fun v own => .after fun _ => .after fun _ => .either ?_ ?_
  · exact .pure (List.forall_mem_singleton.2 own)
  · refine .after fun _ => .after fun _ => .after fun _ => .either ?_ ?_
    · exact .pure (List.forall_mem_singleton.2 own)
    · exact (h.items room).bind fun _ others => .pure (List.forall_mem_cons.2 ⟨own, others⟩)

theorem Rounds.pair_succ {n : Nat} (h : Rounds n) (room : Nat) :
    Yields (fun p => p.2.Distinct) (Reader.pair (n + 1) room) := by
  rw [Reader.pair]
  refine .after fun _ => .after fun _ => .after fun _ => ?_
  exact (h.value room).bind fun _ own => .pure own

theorem Rounds.inlineEntries_succ {n : Nat} (h : Rounds n) (room : Nat) (entries : Entries)
    (marks : Marks) (distinct : (Value.table entries).Distinct) :
    Yields (fun entries => (Value.table entries).Distinct)
      (Reader.inlineEntries (n + 1) room entries marks) := by
  rw [Reader.inlineEntries]
  refine (h.pair room).bind fun p own => ?_
  obtain ⟨name, v⟩ := p
  refine .checked fun _ => ?_
  dsimp only
  split
  · exact yields_throw _
  · rename_i changed made
    have kept := Entries.distinct_changeAt
      (fun _ _ distinct made => Entries.distinct_addNew own distinct made) distinct made
    refine .after fun _ => .after fun _ => .either (.pure kept) ?_
    exact .after fun _ => .after fun _ => h.inlineEntries room changed _ kept

theorem yields_rounds (n : Nat) : Rounds n := by
  induction n with
  | zero =>
    constructor
    · intro room
      rw [Reader.value]
      exact yields_throw _
    · intro room
      rw [Reader.items]
      exact yields_throw _
    · intro room
      rw [Reader.pair]
      exact yields_throw _
    · intro room entries marks _
      rw [Reader.inlineEntries]
      exact yields_throw _
  | succ n ih => exact ⟨ih.value_succ, ih.items_succ, ih.pair_succ, ih.inlineEntries_succ⟩

def State.Distinct (s : State) : Prop := (Value.table s.entries).Distinct

variable {s : State}

theorem yields_tableHeader (h : s.Distinct) : Yields State.Distinct (tableHeader s) := by
  rw [tableHeader]
  refine .after fun _ => .after fun _ => .after fun name => .checked fun _ => ?_
  split
  · exact yields_throw _
  · rename_i entries made
    refine .after fun _ => .pure (Entries.distinct_changeAt ?_ h made)
    rintro _ _ distinct ⟨⟩
    exact distinct

theorem yields_arrayHeader (h : s.Distinct) : Yields State.Distinct (arrayHeader s) := by
  rw [arrayHeader]
  refine .after fun _ => .after fun _ => .after fun name => .checked fun _ => ?_
  dsimp only
  split
  · exact yields_throw _
  · rename_i entries made
    exact .after fun _ => .pure (Entries.distinct_changeAt (fun _ _ => Entries.distinct_addTable) h made)

theorem yields_keyValue (h : s.Distinct) : Yields State.Distinct (keyValue s) := by
  rw [keyValue]
  refine .after fun n => ((yields_rounds n).pair _).bind fun p own => ?_
  obtain ⟨name, v⟩ := p
  refine .checked fun _ => ?_
  dsimp only
  split
  · exact yields_throw _
  · rename_i entries made
    exact .pure (Entries.distinct_changeAt (fun _ _ => Entries.distinct_addNew own) h made)

theorem yields_statement (h : s.Distinct) : Yields State.Distinct (statement s) := by
  rw [statement]
  refine .after fun text => ?_
  split
  · exact yields_arrayHeader h
  · exact yields_tableHeader h
  · exact .pure h
  · exact yields_keyValue h

theorem yields_lines (n : Nat) (h : s.Distinct) : Yields State.Distinct (lines n s) := by
  induction n generalizing s with
  | zero => exact .pure h
  | succ n ih =>
    rw [lines]
    refine .after fun _ => .after fun text => .either (.pure h) (.after fun _ => .either (ih h) ?_)
    refine (yields_statement h).bind fun s' own => ?_
    refine .after fun _ => .after fun _ => .after fun text => .either (.pure own) ?_
    exact .after fun _ => ih own

end Toml.Reader

theorem Toml.distinct_read {text : String} {entries : Entries} (h : read text = .ok entries) :
    (Value.table entries).Distinct := by
  rw [read] at h
  cases run : ((Reader.lines ((joinLineEnds text.toList).length + 1) {}).run
      (joinLineEnds text.toList).length).run (joinLineEnds text.toList) with
  | error e =>
    simp only [run] at h
    cases h
  | ok p =>
    simp only [run] at h
    cases h
    have empty : Reader.State.Distinct {} := Value.distinct_table_nil
    exact Reader.yields_lines _ empty _ _ p.1 p.2 run

end ScopeComplexity
