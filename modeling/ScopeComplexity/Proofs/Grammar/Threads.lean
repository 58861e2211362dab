import ScopeComplexity.Grammar.Threads
import ScopeComplexity.Proofs.Grammar.Pool
import ScopeComplexity.Proofs.Keyed

namespace ScopeComplexity.Grammar

def Stage.ready? : Stage → Option (String × Parser)
  | .made grammar parser => some (grammar, parser)
  | _ => none

def Stage.grammar? : Stage → Option String
  | .idle => none
  | .asked grammar | .loaded grammar _ | .mapless grammar _ | .mapped grammar _ | .missing grammar _
  | .made grammar _ => some grammar

def Stage.left : Stage → Nat
  | .idle => 0
  | .made _ _ => 1
  | .missing _ _ => 2
  | .mapped _ _ => 3
  | .mapless _ _ => 4
  | .loaded _ _ => 5
  | .asked _ => 6

def ofThread (thread : Nat) (answers : List (Slot × Option Parser)) : List (Slot × Option Parser) :=
  answers.filter (·.1.thread = thread)

theorem ofThread_cons_self (slot : Slot) (answer : Option Parser) (answers : List (Slot × Option Parser)) :
    ofThread slot.thread ((slot, answer) :: answers) = (slot, answer) :: ofThread slot.thread answers :=
  List.filter_cons_of_pos (decide_eq_true rfl)

theorem ofThread_cons_of_ne {thread : Nat} {slot : Slot} (other : thread ≠ slot.thread) (answer : Option Parser)
    (answers : List (Slot × Option Parser)) : ofThread thread ((slot, answer) :: answers) = ofThread thread answers :=
  List.filter_cons_of_neg (by simpa using other.symm)

theorem lookup_cons_slot (slot other : Slot) (parser : Parser) (kept : List (Slot × Parser)) :
    List.lookup other ((slot, parser) :: kept) = if other = slot then some parser else kept.lookup other := by
  by_cases same : other = slot
  · simp [same]
  · simp [List.lookup_cons, same, beq_eq_false_iff_ne.2 same]

theorem Session.pool_request {s : Session} {slot : Slot} {answer : Option Parser}
    (served : s.pool.request slot = (answer, s.pool)) : (s.request slot).pool = s.pool := by
  rw [Session.request, served]

namespace Threads

def stored? (w : Threads) (slot : Slot) : Option Parser := (w.maps slot.thread).bind (·.get? slot.grammar)

def held? (w : Threads) (slot : Slot) : Option Parser :=
  match (w.stages slot.thread).ready? with
  | some (grammar, parser) => if slot.grammar = grammar then some parser else w.stored? slot
  | none => w.stored? slot

def pending (w : Threads) (thread : Nat) : List (Slot × Option Parser) :=
  (w.stages thread).ready?.toList.map fun (grammar, parser) => (⟨thread, grammar⟩, some parser)

def Holds (w : Threads) (thread : Nat) : Stage → Prop
  | .idle | .asked _ | .made _ _ => True
  | .loaded grammar handle | .mapped grammar handle => w.grammars.get? grammar = some handle
  | .mapless grammar handle => w.grammars.get? grammar = some handle ∧ w.maps thread = none
  | .missing grammar handle => w.grammars.get? grammar = some handle ∧ w.stored? ⟨thread, grammar⟩ = none

def pool (w : Threads) : Pool := ⟨w.grammars, w.made, w.made.map (·.2)⟩

/-- A thread stands where requests in one go have brought it, but for an answer that it is still to get. -/
structure Follows (w : Threads) (s : Session) (thread : Nat) : Prop where
  holds : w.Holds thread (w.stages thread)
  held : ∀ grammar, w.pool.kept? ⟨thread, grammar⟩ = w.held? ⟨thread, grammar⟩
  answers : ofThread thread s.answers = w.pending thread ++ ofThread thread w.answers

/-- Every thread stands where requests in one go have brought it. -/
structure Simulated (w : Threads) (s : Session) : Prop where
  pool : s.pool = w.pool
  threads : ∀ thread, w.Follows s thread

variable {w : Threads} {s : Session} {thread : Nat} {grammar handle : String}

@[simp] theorem stages_moveTo (w : Threads) (thread : Nat) (stage : Stage) :
    (w.moveTo thread stage).stages thread = stage := if_pos rfl

theorem stages_moveTo_of_ne (w : Threads) {thread other : Nat} (ne : other ≠ thread) (stage : Stage) :
    (w.moveTo thread stage).stages other = w.stages other := if_neg ne

@[simp] theorem maps_keepMap (w : Threads) (thread : Nat) (parsers : Keyed Parser) :
    (w.keepMap thread parsers).maps thread = some parsers := if_pos rfl

theorem maps_keepMap_of_ne (w : Threads) {thread other : Nat} (ne : other ≠ thread) (parsers : Keyed Parser) :
    (w.keepMap thread parsers).maps other = w.maps other := if_neg ne

inductive Takes (w : Threads) (thread : Nat) : Move → Threads → Prop
  | ask {grammar : String} : w.stages thread = .idle → w.Takes thread (.ask grammar) (w.moveTo thread (.asked grammar))
  | busy {grammar : String} : w.stages thread ≠ .idle → w.Takes thread (.ask grammar) w
  | idle : w.stages thread = .idle → w.Takes thread .goOn w
  | refuse {grammar : String} : w.stages thread = .asked grammar → w.grammars.get? grammar = none →
      w.Takes thread .goOn (w.answer ⟨thread, grammar⟩ none)
  | load {grammar handle : String} : w.stages thread = .asked grammar → w.grammars.get? grammar = some handle →
      w.Takes thread .goOn (w.moveTo thread (.loaded grammar handle))
  | noMap {grammar handle : String} : w.stages thread = .loaded grammar handle → w.maps thread = none →
      w.Takes thread .goOn (w.moveTo thread (.mapless grammar handle))
  | map {grammar handle : String} {parsers : Keyed Parser} : w.stages thread = .loaded grammar handle →
      w.maps thread = some parsers → w.Takes thread .goOn (w.moveTo thread (.mapped grammar handle))
  | makeMap {grammar handle : String} : w.stages thread = .mapless grammar handle →
      w.Takes thread .goOn ((w.keepMap thread []).moveTo thread (.mapped grammar handle))
  | miss {grammar handle : String} : w.stages thread = .mapped grammar handle →
      w.stored? ⟨thread, grammar⟩ = none → w.Takes thread .goOn (w.moveTo thread (.missing grammar handle))
  | find {grammar handle : String} {parser : Parser} : w.stages thread = .mapped grammar handle →
      w.stored? ⟨thread, grammar⟩ = some parser →
      w.Takes thread .goOn (w.answer ⟨thread, grammar⟩ (some parser))
  | make {grammar handle : String} : w.stages thread = .missing grammar handle →
      w.Takes thread .goOn ((w.make ⟨thread, grammar⟩ handle).2.moveTo thread
        (.made grammar (w.make ⟨thread, grammar⟩ handle).1))
  | keep {grammar : String} {parser : Parser} : w.stages thread = .made grammar parser →
      w.Takes thread .goOn ((w.keepMap thread (((w.maps thread).getD []).put grammar parser)).answer
        ⟨thread, grammar⟩ (some parser))

theorem takes_next (w : Threads) (event : Event) : w.Takes event.thread event.move (w.next event) := by
  obtain ⟨thread, move⟩ := event
  cases move with
  | ask grammar =>
    rw [next]
    dsimp only
    split
    next idle => exact .ask idle
    next busy => exact .busy busy
  | goOn =>
    change w.Takes thread .goOn (w.goOn thread)
    rw [goOn]
    cases stage : w.stages thread with
    | idle => exact .idle stage
    | asked grammar =>
      dsimp only
      split
      next unknown => exact .refuse stage unknown
      next loaded => exact .load stage loaded
    | loaded grammar handle =>
      dsimp only
      split
      next mapless => exact .noMap stage mapless
      next mapped => exact .map stage mapped
    | mapless grammar handle => exact .makeMap stage
    | mapped grammar handle =>
      dsimp only
      split
      next missing => exact .miss stage missing
      next found => exact .find stage found
    | missing grammar handle => exact .make stage
    | made grammar parser => exact .keep stage

theorem held?_of_quiet {slot : Slot} (quiet : (w.stages slot.thread).ready? = none) :
    w.held? slot = w.stored? slot := by
  rw [held?, quiet]

theorem pending_of_quiet (quiet : (w.stages thread).ready? = none) : w.pending thread = [] := by
  rw [pending, quiet]
  rfl

namespace Follows

theorem kept?_of_quiet (h : w.Follows s thread) (quiet : (w.stages thread).ready? = none) (grammar : String) :
    w.pool.kept? ⟨thread, grammar⟩ = w.stored? ⟨thread, grammar⟩ := by
  rw [h.held, held?_of_quiet quiet]

theorem answers_of_quiet (h : w.Follows s thread) (quiet : (w.stages thread).ready? = none) :
    ofThread thread s.answers = ofThread thread w.answers := by
  rw [h.answers, pending_of_quiet quiet]
  rfl

theorem of_quiet (holds : w.Holds thread (w.stages thread)) (quiet : (w.stages thread).ready? = none)
    (kept : ∀ grammar, w.pool.kept? ⟨thread, grammar⟩ = w.stored? ⟨thread, grammar⟩)
    (answers : ofThread thread s.answers = ofThread thread w.answers) : w.Follows s thread where
  holds
  held grammar := by rw [held?_of_quiet quiet, kept]
  answers := by rw [pending_of_quiet quiet, answers, List.nil_append]

theorem moveTo (h : w.Follows s thread) (quiet : (w.stages thread).ready? = none) {stage : Stage}
    (still : stage.ready? = none) (holds : w.Holds thread stage) : (w.moveTo thread stage).Follows s thread := by
  refine of_quiet ?_ ?_ (h.kept?_of_quiet quiet) (h.answers_of_quiet quiet)
  · rw [stages_moveTo]
    cases stage <;> exact holds
  · rwa [stages_moveTo]

theorem makeMap (h : w.Follows s thread) (quiet : (w.stages thread).ready? = none) (mapless : w.maps thread = none)
    (loaded : w.grammars.get? grammar = some handle) :
    ((w.keepMap thread []).moveTo thread (.mapped grammar handle)).Follows s thread := by
  refine of_quiet ?_ ?_ (fun grammar => ?_) (h.answers_of_quiet quiet)
  · rw [stages_moveTo]
    exact loaded
  · rw [stages_moveTo]
    rfl
  · have before : w.stored? ⟨thread, grammar⟩ = none := by rw [stored?, mapless, Option.bind_none]
    have after : (w.keepMap thread []).stored? ⟨thread, grammar⟩ = none := by
      rw [stored?, maps_keepMap, Option.bind_some]
      rfl
    exact (h.kept?_of_quiet quiet grammar).trans (before.trans after.symm)

theorem answer (h : w.Follows s thread) (quiet : (w.stages thread).ready? = none) {answer : Option Parser}
    (served : s.pool.request ⟨thread, grammar⟩ = (answer, s.pool)) :
    (w.answer ⟨thread, grammar⟩ answer).Follows (s.request ⟨thread, grammar⟩) thread := by
  have idle : (w.answer ⟨thread, grammar⟩ answer).stages thread = .idle := stages_moveTo ..
  refine of_quiet ?_ ?_ (h.kept?_of_quiet quiet) ?_
  · rw [idle]
    trivial
  · rw [idle]
    rfl
  · rw [Session.request, served]
    refine (ofThread_cons_self ⟨thread, grammar⟩ answer s.answers).trans ?_
    rw [h.answers_of_quiet quiet]
    exact (ofThread_cons_self ⟨thread, grammar⟩ answer w.answers).symm

theorem make (h : w.Follows s thread) (pool : s.pool = w.pool) (quiet : (w.stages thread).ready? = none)
    (loaded : w.grammars.get? grammar = some handle) (missing : w.stored? ⟨thread, grammar⟩ = none) :
    let made := w.make ⟨thread, grammar⟩ handle
    (s.request ⟨thread, grammar⟩).pool = (made.2.moveTo thread (.made grammar made.1)).pool ∧
      (made.2.moveTo thread (.made grammar made.1)).Follows (s.request ⟨thread, grammar⟩) thread := by
  have first : s.pool.kept? ⟨thread, grammar⟩ = none := by rw [pool, h.kept?_of_quiet quiet, missing]
  have loaded : s.pool.grammars.get? grammar = some handle := by rwa [pool]
  have length : s.pool.made.length = w.made.length := by rw [pool, Threads.pool, List.length_map]
  intro made
  have stage : (made.2.moveTo thread (.made grammar made.1)).stages thread = .made grammar made.1 := stages_moveTo ..
  rw [Session.request, Pool.request_of_first loaded first, Pool.make, length, pool]
  refine ⟨rfl, ?holds, ?held, ?answers⟩
  case holds =>
    rw [stage]
    trivial
  case held =>
    intro grammar'
    rw [held?, stage]
    refine (lookup_cons_slot _ _ _ _).trans ?_
    simp only [Slot.mk.injEq, true_and]
    exact congrArg (if grammar' = grammar then some made.1 else ·) (h.kept?_of_quiet quiet grammar')
  case answers =>
    refine (ofThread_cons_self ⟨thread, grammar⟩ _ s.answers).trans ?_
    rw [h.answers_of_quiet quiet, pending, stage]
    rfl

theorem kept?_of_made (h : w.Follows s thread) {parser : Parser} (ready : w.stages thread = .made grammar parser)
    (other : String) :
    w.pool.kept? ⟨thread, other⟩ = if other = grammar then some parser else w.stored? ⟨thread, other⟩ := by
  rw [h.held, held?, ready]
  rfl

theorem keep (h : w.Follows s thread) {parser : Parser} (ready : w.stages thread = .made grammar parser) :
    ((w.keepMap thread (((w.maps thread).getD []).put grammar parser)).answer ⟨thread, grammar⟩ (some parser)).Follows
      s thread := by
  let w' := w.keepMap thread (((w.maps thread).getD []).put grammar parser)
  have idle : (w'.answer ⟨thread, grammar⟩ (some parser)).stages thread = .idle := stages_moveTo ..
  refine of_quiet ?holds ?quiet ?kept ?answers
  case holds =>
    rw [idle]
    trivial
  case quiet =>
    rw [idle]
    rfl
  case kept =>
    intro other
    have stored : w'.stored? ⟨thread, other⟩ = if other = grammar then some parser else w.stored? ⟨thread, other⟩ := by
      rw [stored?, maps_keepMap, Option.bind_some, Keyed.get?_put, stored?]
      cases w.maps thread <;> rfl
    exact (h.kept?_of_made ready other).trans stored.symm
  case answers =>
    rw [h.answers, pending, ready]
    exact (ofThread_cons_self ⟨thread, grammar⟩ _ w.answers).symm

/-- A step of a thread answers at most one of its requests. -/
theorem take (h : w.Follows s thread) (pool : s.pool = w.pool) {move : Move} {w' : Threads}
    (taken : w.Takes thread move w') :
    ∃ slots : List Slot, (∀ slot ∈ slots, slot.thread = thread) ∧ (s.serve slots).pool = w'.pool ∧
      w'.Follows (s.serve slots) thread := by
  have holds := h.holds
  cases taken with
  | ask stage => exact ⟨[], List.forall_mem_nil _, pool, h.moveTo (congrArg Stage.ready? stage) rfl trivial⟩
  | busy => exact ⟨[], List.forall_mem_nil _, pool, h⟩
  | idle => exact ⟨[], List.forall_mem_nil _, pool, h⟩
  | @refuse grammar stage unknown =>
    have served : s.pool.request ⟨thread, grammar⟩ = (none, s.pool) := Pool.request_of_not_loaded (by rwa [pool])
    exact ⟨[⟨thread, grammar⟩], List.forall_mem_singleton.2 rfl, (Session.pool_request served).trans pool,
      h.answer (congrArg Stage.ready? stage) served⟩
  | load stage loaded =>
    exact ⟨[], List.forall_mem_nil _, pool, h.moveTo (congrArg Stage.ready? stage) rfl loaded⟩
  | noMap stage mapless =>
    rw [stage] at holds
    exact ⟨[], List.forall_mem_nil _, pool, h.moveTo (congrArg Stage.ready? stage) rfl ⟨holds, mapless⟩⟩
  | map stage =>
    rw [stage] at holds
    exact ⟨[], List.forall_mem_nil _, pool, h.moveTo (congrArg Stage.ready? stage) rfl holds⟩
  | makeMap stage =>
    rw [stage] at holds
    exact ⟨[], List.forall_mem_nil _, pool, h.makeMap (congrArg Stage.ready? stage) holds.2 holds.1⟩
  | miss stage missing =>
    rw [stage] at holds
    exact ⟨[], List.forall_mem_nil _, pool, h.moveTo (congrArg Stage.ready? stage) rfl ⟨holds, missing⟩⟩
  | @find grammar handle parser stage found =>
    have quiet := congrArg Stage.ready? stage
    rw [stage] at holds
    have kept : s.pool.kept? ⟨thread, grammar⟩ = some parser := by rw [pool, h.kept?_of_quiet quiet, found]
    have served := Pool.request_of_kept (by rwa [pool]) kept
    exact ⟨[⟨thread, grammar⟩], List.forall_mem_singleton.2 rfl, (Session.pool_request served).trans pool,
      h.answer quiet served⟩
  | @make grammar handle stage =>
    rw [stage] at holds
    exact ⟨[⟨thread, grammar⟩], List.forall_mem_singleton.2 rfl,
      h.make pool (congrArg Stage.ready? stage) holds.1 holds.2⟩
  | keep stage => exact ⟨[], List.forall_mem_nil _, pool, h.keep stage⟩

end Follows

structure Untouched (w w' : Threads) (thread : Nat) : Prop where
  grammars : w'.grammars = w.grammars
  map : w'.maps thread = w.maps thread
  stage : w'.stages thread = w.stages thread
  made : ∀ grammar, w'.made.lookup ⟨thread, grammar⟩ = w.made.lookup ⟨thread, grammar⟩
  answers : ofThread thread w'.answers = ofThread thread w.answers

namespace Untouched

variable {other : Nat} {w' : Threads}

theorem moveTo (h : Untouched w w' thread) (ne : thread ≠ other) (stage : Stage) :
    Untouched w (w'.moveTo other stage) thread :=
  { h with stage := (stages_moveTo_of_ne w' ne stage).trans h.stage }

theorem keepMap (h : Untouched w w' thread) (ne : thread ≠ other) (parsers : Keyed Parser) :
    Untouched w (w'.keepMap other parsers) thread :=
  { h with map := (maps_keepMap_of_ne w' ne parsers).trans h.map }

theorem answer (h : Untouched w w' thread) (ne : thread ≠ other) (grammar : String) (answer : Option Parser) :
    Untouched w (w'.answer ⟨other, grammar⟩ answer) thread :=
  { h.moveTo ne .idle with answers := (ofThread_cons_of_ne ne answer _).trans h.answers }

theorem make (h : Untouched w w' thread) (ne : thread ≠ other) (grammar handle : String) :
    Untouched w (w'.make ⟨other, grammar⟩ handle).2 thread :=
  { h with made := fun _ =>
      (lookup_cons_slot ..).trans ((if_neg fun same => ne (congrArg Slot.thread same)).trans (h.made _)) }

end Untouched

theorem Takes.untouched {other : Nat} {move : Move} {w' : Threads} (taken : w.Takes other move w')
    (ne : thread ≠ other) : Untouched w w' thread := by
  have same : Untouched w w thread := ⟨rfl, rfl, rfl, fun _ => rfl, rfl⟩
  cases taken with
  | busy | idle => exact same
  | ask | load | noMap | map | miss => exact same.moveTo ne _
  | refuse | find => exact same.answer ne _ _
  | makeMap => exact (same.keepMap ne _).moveTo ne _
  | make => exact (same.make ne _ _).moveTo ne _
  | keep => exact (same.keepMap ne _).answer ne _ _

theorem Untouched.stored? {w' : Threads} (same : Untouched w w' thread) (grammar : String) :
    w'.stored? ⟨thread, grammar⟩ = w.stored? ⟨thread, grammar⟩ := by
  rw [Threads.stored?, same.map, Threads.stored?]

theorem Untouched.holds_iff {w' : Threads} (same : Untouched w w' thread) (stage : Stage) :
    w'.Holds thread stage ↔ w.Holds thread stage := by
  cases stage <;> simp only [Holds, same.grammars, same.map, same.stored?]

theorem Follows.of_untouched {w' : Threads} {s' : Session} (h : w.Follows s thread) (same : Untouched w w' thread)
    (answers : ofThread thread s'.answers = ofThread thread s.answers) : w'.Follows s' thread where
  holds := by
    rw [same.holds_iff, same.stage]
    exact h.holds
  held grammar := by
    rw [held?, same.stage, same.stored?]
    exact (same.made grammar).trans (h.held grammar)
  answers := by rw [answers, h.answers, pending, pending, same.stage, same.answers]

theorem ofThread_serve (s : Session) {slots : List Slot} (other : ∀ slot ∈ slots, thread ≠ slot.thread) :
    ofThread thread (s.serve slots).answers = ofThread thread s.answers := by
  induction slots generalizing s with
  | nil => rfl
  | cons slot slots ih =>
    rw [List.forall_mem_cons] at other
    exact (ih (s.request slot) other.2).trans (ofThread_cons_of_ne other.1 _ _)

namespace Simulated

theorem start (grammars : Keyed String) : Simulated { grammars } { pool := { grammars } } where
  pool := rfl
  threads _ := ⟨trivial, fun _ => rfl, rfl⟩

theorem next (h : w.Simulated s) (event : Event) : ∃ slots, (w.next event).Simulated (s.serve slots) := by
  obtain ⟨slots, own, pool, follows⟩ := (h.threads event.thread).take h.pool (w.takes_next event)
  refine ⟨slots, pool, fun thread => ?_⟩
  by_cases same : thread = event.thread
  · subst same
    exact follows
  · refine (h.threads thread).of_untouched ((w.takes_next event).untouched same) (ofThread_serve s fun slot member => ?_)
    rwa [own slot member]

theorem run (h : w.Simulated s) (events : List Event) : ∃ slots, (w.run events).Simulated (s.serve slots) := by
  induction events generalizing w s with
  | nil => exact ⟨[], h⟩
  | cons event events ih =>
    obtain ⟨slots, first⟩ := h.next event
    obtain ⟨others, rest⟩ := ih first
    refine ⟨slots ++ others, ?_⟩
    rwa [Session.serve, List.foldl_append]

theorem subset (h : w.Simulated s) : w.answers ⊆ s.answers := by
  rintro ⟨slot, answer⟩ member
  have own : (slot, answer) ∈ ofThread slot.thread w.answers := List.mem_filter.2 ⟨member, decide_eq_true rfl⟩
  have found : (slot, answer) ∈ ofThread slot.thread s.answers := by
    rw [(h.threads slot.thread).answers]
    exact List.mem_append_right _ own
  exact List.mem_of_mem_filter found

end Simulated

section Progress

theorem suffix_next (w : Threads) (event : Event) : w.answers <:+ (w.next event).answers := by
  have taken := w.takes_next event
  obtain ⟨_, _⟩ := event
  generalize w.next _ = w' at taken
  cases taken with
  | refuse | find | keep => exact List.suffix_cons _ _
  | _ => exact List.suffix_rfl

theorem suffix_run (w : Threads) (events : List Event) : w.answers <:+ (w.run events).answers := by
  induction events generalizing w with
  | nil => exact List.suffix_rfl
  | cons event events ih => exact (w.suffix_next event).trans (ih (w.next event))

theorem Takes.closer {w' : Threads} (taken : w.Takes thread .goOn w')
    (waits : (w.stages thread).grammar? = some grammar) :
    (∃ answer, w'.answers = (⟨thread, grammar⟩, answer) :: w.answers) ∨
      (w'.stages thread).grammar? = some grammar ∧ (w'.stages thread).left < (w.stages thread).left := by
  cases taken with
  | idle stage =>
    rw [stage] at waits
    cases waits
  | refuse stage | find stage | keep stage =>
    rw [stage] at waits
    cases waits
    exact .inl ⟨_, rfl⟩
  | load stage | noMap stage | map stage | makeMap stage | miss stage | make stage =>
    right
    rw [stages_moveTo, stage]
    rw [stage] at waits
    exact ⟨waits, by simp [Stage.left]⟩

theorem stage_next_of_ne (w : Threads) (waits : (w.stages thread).grammar? = some grammar) {event : Event}
    (other : event ≠ ⟨thread, .goOn⟩) : (w.next event).stages thread = w.stages thread := by
  have taken := w.takes_next event
  by_cases same : thread = event.thread
  · obtain ⟨_, move⟩ := event
    subst same
    generalize w.next ⟨thread, move⟩ = w' at taken
    cases taken with
    | ask stage =>
      rw [stage] at waits
      cases waits
    | busy => rfl
    | _ => exact absurd rfl other
  · exact (taken.untouched same).stage

/-- Whatever the others do, a thread has its answer after so many steps of its own. -/
theorem answered_of_left_le (w : Threads) {thread : Nat} {grammar : String}
    (waits : (w.stages thread).grammar? = some grammar) {events : List Event}
    (steps : (w.stages thread).left ≤ events.count ⟨thread, .goOn⟩) :
    ∃ answer new, (w.run events).answers = new ++ w.answers ∧ (⟨thread, grammar⟩, answer) ∈ new := by
  induction events generalizing w with
  | nil =>
    cases stage : w.stages thread <;> rw [stage] at waits steps
    case idle => cases waits
    all_goals cases steps
  | cons event events ih =>
    obtain ⟨between, grown⟩ := w.suffix_next event
    by_cases own : event = ⟨thread, .goOn⟩
    · subst own
      rw [List.count_cons_self] at steps
      have taken : w.Takes thread .goOn (w.next ⟨thread, .goOn⟩) := w.takes_next ⟨thread, .goOn⟩
      rcases taken.closer waits with ⟨answer, answered⟩ | ⟨waits', less⟩
      · obtain ⟨new, grown⟩ := (w.next ⟨thread, .goOn⟩).suffix_run events
        refine ⟨answer, new ++ [(⟨thread, grammar⟩, answer)], ?_, List.mem_append_right _ (List.mem_singleton_self _)⟩
        rw [List.append_assoc, List.singleton_append, ← answered]
        exact grown.symm
      · obtain ⟨answer, new, answers, member⟩ := ih (w.next ⟨thread, .goOn⟩) waits' (by omega)
        refine ⟨answer, new ++ between, ?_, List.mem_append_left _ member⟩
        rw [List.append_assoc, grown]
        exact answers
    · rw [List.count_cons_of_ne own] at steps
      have stage := w.stage_next_of_ne waits own
      obtain ⟨answer, new, answers, member⟩ := ih (w.next event) (by rwa [stage]) (by rwa [stage])
      refine ⟨answer, new ++ between, ?_, List.mem_append_left _ member⟩
      rw [List.append_assoc, grown]
      exact answers

end Progress

theorem grammars_next (w : Threads) (event : Event) : (w.next event).grammars = w.grammars :=
  ((w.takes_next event).untouched (Nat.succ_ne_self event.thread)).grammars

structure Refused (w : Threads) (thread : Nat) : Prop where
  mapless : w.maps thread = none
  stage : w.stages thread = .idle ∨ ∃ grammar, w.stages thread = .asked grammar ∧ w.grammars.get? grammar = none

theorem Refused.next (h : w.Refused thread) {event : Event}
    (unknown : ∀ grammar, event = ⟨thread, .ask grammar⟩ → w.grammars.get? grammar = none) :
    (w.next event).Refused thread := by
  have taken := w.takes_next event
  by_cases own : thread = event.thread
  · obtain ⟨_, move⟩ := event
    subst own
    generalize w.next ⟨thread, move⟩ = w' at taken
    cases taken with
    | ask => exact ⟨h.mapless, .inr ⟨_, stages_moveTo .., unknown _ rfl⟩⟩
    | busy | idle => exact h
    | refuse => exact ⟨h.mapless, .inl (stages_moveTo ..)⟩
    | load stage loaded =>
      rcases h.stage with idle | ⟨grammar, asked, unloaded⟩
      · rw [idle] at stage
        cases stage
      · rw [asked] at stage
        cases stage
        rw [unloaded] at loaded
        cases loaded
    | noMap stage | map stage | makeMap stage | miss stage | find stage | make stage | keep stage =>
      rcases h.stage with idle | ⟨grammar, asked, -⟩
      · rw [idle] at stage
        cases stage
      · rw [asked] at stage
        cases stage
  · have same := taken.untouched own
    refine ⟨same.map.trans h.mapless, ?_⟩
    rw [same.stage, same.grammars]
    exact h.stage

theorem Refused.run {thread : Nat} (h : w.Refused thread) {events : List Event}
    (unknown : ∀ grammar, ⟨thread, .ask grammar⟩ ∈ events → w.grammars.get? grammar = none) :
    (w.run events).Refused thread := by
  induction events generalizing w with
  | nil => exact h
  | cons event events ih =>
    refine ih (h.next fun grammar same => unknown grammar (same ▸ List.mem_cons_self)) fun grammar member => ?_
    rw [grammars_next]
    exact unknown grammar (List.mem_cons_of_mem _ member)

end Threads

structure InTurn (grammars : Keyed String) (s : Session) : Prop where
  separate : Separate grammars s.pool.kept s.answers
  refused : ∀ slot, grammars.get? slot.grammar = none →
    s.request slot = { s with answers := (slot, none) :: s.answers }

/-- What holds after requests for parsers whose steps are mixed in any order. -/
structure AtOnce (grammars : Keyed String) (events : List Event) (w : Threads) : Prop where
  separate : Separate grammars w.made w.answers
  refused : ∀ thread grammar, w.stages thread = .asked grammar → grammars.get? grammar = none →
    (w.goOn thread).answers = (⟨thread, grammar⟩, none) :: w.answers ∧ (w.goOn thread).maps = w.maps ∧
      (w.goOn thread).made = w.made
  unmapped : ∀ thread, (∀ grammar, ⟨thread, .ask grammar⟩ ∈ events → grammars.get? grammar = none) →
    w.maps thread = none
  /-- Every request has its answer after at most six steps of its thread, whatever the others do. -/
  answered : ∀ thread grammar, w.stages thread = .asked grammar → ∀ later : List Event,
    6 ≤ later.count ⟨thread, .goOn⟩ →
      ∃ answer new, (w.run later).answers = new ++ w.answers ∧ (⟨thread, grammar⟩, answer) ∈ new
  /-- The threads could as well have had their answers in turn, up to those that they are still to get. -/
  inTurn : ∃ slots, (Session.serve { pool := { grammars } } slots).pool = w.pool ∧ ∀ thread,
    ofThread thread (Session.serve { pool := { grammars } } slots).answers
      = w.pending thread ++ ofThread thread w.answers

/-- Whatever the order of the steps of several threads, they get what they would get if each request were answered in one
go, and so never share a parser. -/
theorem parsers_kept_apart (grammars : Keyed String) :
    (∀ slots, InTurn grammars (Session.serve { pool := { grammars } } slots)) ∧
      ∀ events, AtOnce grammars events (Threads.run { grammars } events) := by
  constructor
  · intro slots
    have loaded : (Session.serve { pool := { grammars } } slots).pool.grammars = grammars := Session.grammars_serve _ slots
    refine ⟨Session.separate_serve grammars slots, fun slot unknown => ?_⟩
    rw [Session.request, Pool.request_of_not_loaded (by rwa [loaded])]
  · intro events
    obtain ⟨slots, simulated⟩ := (Threads.Simulated.start grammars).run events
    have pool := simulated.pool
    have separate : Separate grammars (Threads.run { grammars } events).pool.kept
        (Session.serve { pool := { grammars } } slots).answers := by
      rw [← pool]
      exact Session.separate_serve grammars slots
    exact {
      separate := separate.mono simulated.subset
      refused := fun thread grammar asked unknown => by
        have loaded : (Threads.run { grammars } events).grammars = grammars :=
          (congrArg Pool.grammars pool).symm.trans (Session.grammars_serve _ slots)
        rw [Threads.goOn, asked]
        dsimp only
        rw [loaded, unknown]
        exact ⟨rfl, rfl, rfl⟩
      unmapped := fun thread unknown => (Threads.Refused.run ⟨rfl, .inl rfl⟩ unknown).mapless
      answered := fun thread grammar asked later steps =>
        Threads.answered_of_left_le _ (by rw [asked]; rfl) (by rwa [asked])
      inTurn := ⟨slots, pool, fun thread => (simulated.threads thread).answers⟩ }

example :
    (Threads.run { grammars := [("go", "language")] }
        ([⟨0, .ask "go"⟩, ⟨1, .ask "go"⟩] ++ (List.replicate 6 [⟨0, .goOn⟩, ⟨1, .goOn⟩]).flatten)).answers
      = [(⟨1, "go"⟩, some ⟨2, "language"⟩), (⟨0, "go"⟩, some ⟨1, "language"⟩)] := by
  decide

end ScopeComplexity.Grammar
