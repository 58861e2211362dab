import ScopeComplexity.Log

namespace ScopeComplexity

inductive Event where
  | logged (record : Log.Record)
  | asked (grammar : String) (code : ByteArray)

namespace Event

def record? : Event → Option Log.Record
  | .logged record => some record
  | .asked .. => none

def request? : Event → Option (String × ByteArray)
  | .logged _ => none
  | .asked grammar code => some (grammar, code)

end Event

structure Journal (ε α : Type) where
  result : Except ε α
  events : List Event

namespace Journal

variable {ε α β : Type}

protected def pure (a : α) : Journal ε α := ⟨.ok a, []⟩

protected def bind (x : Journal ε α) (f : α → Journal ε β) : Journal ε β :=
  match x.result with
  | .error e => ⟨.error e, x.events⟩
  | .ok a =>
    let y := f a
    ⟨y.result, x.events ++ y.events⟩

instance : Monad (Journal ε) where
  pure := Journal.pure
  bind := Journal.bind

instance : MonadExcept ε (Journal ε) where
  throw e := ⟨.error e, []⟩
  tryCatch x handle :=
    match x.result with
    | .ok _ => x
    | .error e =>
      let y := handle e
      ⟨y.result, x.events ++ y.events⟩

def ofExcept (result : Except ε α) : Journal ε α := ⟨result, []⟩

def note (event : Event) : Journal ε Unit := ⟨.ok (), [event]⟩

def log (severity : Severity) (part message : String) : Journal ε Unit :=
  note (.logged (.of severity part message))

def records (x : Journal ε α) : List Log.Record := x.events.filterMap Event.record?

def requests (x : Journal ε α) : List (String × ByteArray) := x.events.filterMap Event.request?

/-- The result as a value, so that what follows sees a failure and goes on. -/
def attempt (x : Journal ε α) : Journal ε (Except ε α) := ⟨.ok x.result, x.events⟩

@[simp] theorem pure_eq (a : α) : (pure a : Journal ε α) = ⟨.ok a, []⟩ := rfl

theorem events_bind_of_ok {x : Journal ε α} {a : α} (h : x.result = .ok a) (f : α → Journal ε β) :
    (x >>= f).events = x.events ++ (f a).events := by
  simp only [bind, Journal.bind, h]

theorem events_bind_of_error {x : Journal ε α} {e : ε} (h : x.result = .error e)
    (f : α → Journal ε β) : (x >>= f).events = x.events := by
  simp only [bind, Journal.bind, h]

end Journal

end ScopeComplexity
