import Mathlib.Data.List.Nodup
import ScopeComplexity.Grammar.Pool

namespace ScopeComplexity.Grammar

namespace Pool

variable {p : Pool} {slot : Slot}

theorem request_of_not_loaded (h : p.grammars.get? slot.grammar = none) : p.request slot = (none, p) := by
  rw [request, h]

theorem request_of_kept {handle : String} {parser : Parser} (loaded : p.grammars.get? slot.grammar = some handle)
    (kept : p.kept? slot = some parser) : p.request slot = (some parser, p) := by
  rw [request, loaded]
  simp only [kept]

theorem request_of_first {handle : String} (loaded : p.grammars.get? slot.grammar = some handle)
    (first : p.kept? slot = none) : p.request slot = (some (p.make slot handle).1, (p.make slot handle).2) := by
  rw [request, loaded]
  simp only [first]

theorem kept?_eq_none_iff : p.kept? slot = none ↔ slot ∉ p.kept.map (·.1) := by
  rw [kept?, List.lookup_eq_none_iff, List.mem_map]
  grind

theorem mem_of_kept?_eq_some {parser : Parser} (h : p.kept? slot = some parser) : (slot, parser) ∈ p.kept := by
  obtain ⟨before, after, split, -⟩ := List.lookup_eq_some_iff.1 h
  rw [split]
  exact List.mem_append_right _ List.mem_cons_self

end Pool

/-- How answers to requests go with the grammars and with the parsers that were made for them. -/
structure Separate (grammars : Keyed String) (made : List (Slot × Parser))
    (answers : List (Slot × Option Parser)) : Prop where
  missing : ∀ slot answer, (slot, answer) ∈ answers → (answer = none ↔ grammars.get? slot.grammar = none)
  language : ∀ slot parser, (slot, parser) ∈ made → grammars.get? slot.grammar = some parser.handle
  distinct : (made.map (·.1)).Nodup ∧ (made.map (·.2.number)).Nodup
  once : ∀ slot parser, (slot, some parser) ∈ answers → (slot, parser) ∈ made ∧ (made.map (·.1)).count slot = 1
  same : ∀ slot parser parser', (slot, some parser) ∈ answers → (slot, some parser') ∈ answers → parser = parser'
  apart : ∀ slot slot' parser parser', (slot, some parser) ∈ answers → (slot', some parser') ∈ answers →
    slot.thread ≠ slot'.thread ∨ slot.grammar ≠ slot'.grammar → parser.number ≠ parser'.number

theorem Separate.mono {grammars : Keyed String} {made : List (Slot × Parser)} {answers fewer : List (Slot × Option Parser)}
    (h : Separate grammars made answers) (subset : fewer ⊆ answers) : Separate grammars made fewer where
  missing slot answer member := h.missing slot answer (subset member)
  language := h.language
  distinct := h.distinct
  once slot parser member := h.once slot parser (subset member)
  same slot parser parser' member member' := h.same slot parser parser' (subset member) (subset member')
  apart slot slot' parser parser' member member' :=
    h.apart slot slot' parser parser' (subset member) (subset member')

structure Session where
  pool : Pool
  answers : List (Slot × Option Parser) := []

namespace Session

def request (s : Session) (slot : Slot) : Session :=
  let (answer, pool) := s.pool.request slot
  ⟨pool, (slot, answer) :: s.answers⟩

def serve (s : Session) (slots : List Slot) : Session := slots.foldl request s

def Fits (pool : Pool) (slot : Slot) : Option Parser → Prop
  | none => pool.grammars.get? slot.grammar = none
  | some parser => (slot, parser) ∈ pool.kept

structure Sound (s : Session) : Prop where
  made : s.pool.made = s.pool.kept.map (·.2)
  numbers : (s.pool.kept.map (·.2.number)).Nodup
  bound : ∀ entry ∈ s.pool.kept, entry.2.number ≤ s.pool.kept.length
  slots : (s.pool.kept.map (·.1)).Nodup
  language : ∀ entry ∈ s.pool.kept, s.pool.grammars.get? entry.1.grammar = some entry.2.handle
  answers : ∀ entry ∈ s.answers, Fits s.pool entry.1 entry.2

variable {s : Session}

theorem sound_start (grammars : Keyed String) : Sound { pool := { grammars } } where
  made := rfl
  numbers := List.nodup_nil
  bound := List.forall_mem_nil _
  slots := List.nodup_nil
  language := List.forall_mem_nil _
  answers := List.forall_mem_nil _

theorem Sound.request (h : s.Sound) (slot : Slot) : (s.request slot).Sound := by
  rw [Session.request]
  cases loaded : s.pool.grammars.get? slot.grammar with
  | none =>
    rw [Pool.request_of_not_loaded loaded]
    exact { h with answers := List.forall_mem_cons.2 ⟨loaded, h.answers⟩ }
  | some handle =>
    cases kept : s.pool.kept? slot with
    | some parser =>
      rw [Pool.request_of_kept loaded kept]
      exact { h with answers := List.forall_mem_cons.2 ⟨Pool.mem_of_kept?_eq_some kept, h.answers⟩ }
    | none =>
      have length : s.pool.made.length = s.pool.kept.length := by rw [h.made, List.length_map]
      have fresh : s.pool.kept.length + 1 ∉ s.pool.kept.map (·.2.number) := by
        intro member
        obtain ⟨entry, member, same⟩ := List.mem_map.1 member
        have bound := h.bound entry member
        omega
      rw [Pool.request_of_first loaded kept, Pool.make, length]
      exact {
        made := congrArg (_ :: ·) h.made
        numbers := List.nodup_cons.2 ⟨fresh, h.numbers⟩
        bound := List.forall_mem_cons.2 ⟨Nat.le_refl _, fun entry member => Nat.le_succ_of_le (h.bound entry member)⟩
        slots := List.nodup_cons.2 ⟨Pool.kept?_eq_none_iff.1 kept, h.slots⟩
        language := List.forall_mem_cons.2 ⟨loaded, h.language⟩
        answers := List.forall_mem_cons.2 ⟨List.mem_cons_self, fun (slot', answer) member => by
          have fits := h.answers _ member
          cases answer with
          | none => exact fits
          | some parser => exact List.mem_cons_of_mem _ fits⟩ }

theorem Sound.serve (h : s.Sound) (slots : List Slot) : (s.serve slots).Sound := by
  induction slots generalizing s with
  | nil => exact h
  | cons slot slots ih => exact ih (h.request slot)

theorem grammars_request (s : Session) (slot : Slot) : (s.request slot).pool.grammars = s.pool.grammars := by
  rw [Session.request]
  cases loaded : s.pool.grammars.get? slot.grammar with
  | none => rw [Pool.request_of_not_loaded loaded]
  | some handle =>
    cases kept : s.pool.kept? slot with
    | some parser => rw [Pool.request_of_kept loaded kept]
    | none =>
      rw [Pool.request_of_first loaded kept]
      rfl

theorem grammars_serve (s : Session) (slots : List Slot) : (s.serve slots).pool.grammars = s.pool.grammars := by
  induction slots generalizing s with
  | nil => rfl
  | cons slot slots ih => exact (ih (s.request slot)).trans (s.grammars_request slot)

theorem Sound.separate (h : s.Sound) : Separate s.pool.grammars s.pool.kept s.answers := by
  have kept : ∀ slot parser, (slot, some parser) ∈ s.answers → (slot, parser) ∈ s.pool.kept := fun _ _ member =>
    h.answers _ member
  exact {
    missing := fun slot answer member => by
      cases answer with
      | none => exact iff_of_true rfl (h.answers _ member)
      | some parser =>
        rw [h.language _ (kept slot parser member)]
        exact iff_of_false (Option.some_ne_none _) (Option.some_ne_none _)
    language := fun slot parser member => h.language _ member
    distinct := ⟨h.slots, h.numbers⟩
    once := fun slot parser member =>
      ⟨kept slot parser member, List.count_eq_one_of_mem h.slots (List.mem_map_of_mem (kept slot parser member))⟩
    same := fun slot parser parser' member member' =>
      congrArg Prod.snd (List.inj_on_of_nodup_map h.slots (kept slot parser member) (kept slot parser' member') rfl)
    apart := fun slot slot' parser parser' member member' other same => by
      cases List.inj_on_of_nodup_map h.numbers (kept slot parser member) (kept slot' parser' member') same
      exact other.elim (· rfl) (· rfl) }

theorem separate_serve (grammars : Keyed String) (slots : List Slot) :
    let s := serve { pool := { grammars } } slots
    Separate grammars s.pool.kept s.answers := by
  intro s
  have sound : s.Sound := (sound_start grammars).serve slots
  have same : s.pool.grammars = grammars := grammars_serve _ slots
  have separate := sound.separate
  rwa [same] at separate

end Session

end ScopeComplexity.Grammar
