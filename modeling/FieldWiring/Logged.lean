import FieldWiring.Resolution

/-!
# Computations with a log

A computation that may fail yields its result together with what it reported until then, also
where it fails.
-/

namespace FieldWiring

/-! ## Events

Generation reports what it does as a sequence of events.  An event is kept as a value
of its kind with its data; its level, message and details are views of that value.
-/

inductive Level where
  | debug
  | info
  | warn
deriving DecidableEq, Repr

inductive Datum where
  | text (value : String)
  | count (value : Nat)
deriving DecidableEq, Repr

/-- What can happen while injectors are generated. -/
inductive Event where
  /-- The owner of a target was found under the name asked for. -/
  | generating (component target : String)
  /-- A marked field was resolved, possibly to nothing. -/
  | resolved (field typeName : String) (resolution : Resolution)
  /-- A marked field of the target could not be resolved. -/
  | aborting (target field : String) (cause : UnresolvableType)
  /-- An injector is complete, with this many assignments. -/
  | generated (injector : String) (statements : Nat)
  /-- So many registered targets are about to be generated. -/
  | found (count : Nat)
  /-- So many injectors were published together. -/
  | published (count : Nat)
deriving DecidableEq, Repr

namespace Event

/-- Single steps are for debugging, whole runs for information; only a failure warns. -/
def level : Event → Level
  | generating .. | resolved .. | generated .. => .debug
  | aborting .. => .warn
  | found .. | published .. => .info

def message : Event → String
  | generating .. => "Generating injector."
  | resolved .. => "Resolved injected field."
  | aborting .. => "Aborting injector generation."
  | generated .. => "Generated injector."
  | found count => "Found " ++ toString count ++ " registered injection targets."
  | published count => "Generated " ++ toString count ++ " injectors."

def details : Event → List (String × Datum)
  | generating component target =>
      [("component", .text component), ("injection_target", .text target)]
  | resolved field typeName resolution =>
      [("field", .text field), ("type_name", .text typeName),
        ("resolution", .text resolution.text)]
  | aborting target field cause =>
      [("injection_target", .text target), ("field", .text field),
        ("error", .text cause.message)]
  | generated injector statements =>
      [("injector", .text injector), ("statements", .count statements)]
  | found _ | published _ => []

end Event

structure Line where
  level : Level
  message : String
  details : List (String × Datum)
deriving DecidableEq, Repr

def Event.line (event : Event) : Line := ⟨event.level, event.message, event.details⟩

/-! ## Computations

A computation yields its events together with its result.  A failure ends the
computation but keeps the events so far, so the log of a run and its outcome can be
compared in one value.
-/

/-- The events of a computation, in order, and how it ended. -/
structure Logged (ε α : Type) where
  events : List Event
  result : Except ε α

namespace Logged

variable {ε ε' α β : Type}

def lines (computation : Logged ε α) : List Line := computation.events.map Event.line

def log (event : Event) : Logged ε Unit := ⟨[event], .ok ()⟩

def fail (fault : ε) : Logged ε α := ⟨[], .error fault⟩

/-- A result that was reached without any event. -/
def ofExcept (result : Except ε α) : Logged ε α := ⟨[], result⟩

/-- Goes on with the value of the first computation, if it has one. -/
def bind (first : Logged ε α) (next : α → Logged ε β) : Logged ε β :=
  match first.result with
  | .error fault => ⟨first.events, .error fault⟩
  | .ok value => ⟨first.events ++ (next value).events, (next value).result⟩

instance : Monad (Logged ε) where
  pure value := ⟨[], .ok value⟩
  bind := bind

def mapError (restate : ε → ε') (computation : Logged ε α) : Logged ε' α :=
  ⟨computation.events, computation.result.mapError restate⟩

/-- Runs the step on each element in order, up to the first failure. -/
def traverse (step : α → Logged ε β) : List α → Logged ε (List β)
  | [] => pure []
  | head :: tail => do
      let first ← step head
      let others ← traverse step tail
      pure (first :: others)

@[simp]
theorem pure_eq (value : α) : (pure value : Logged ε α) = ⟨[], .ok value⟩ := rfl

@[simp]
theorem bind_ok (events : List Event) (value : α) (next : α → Logged ε β) :
    ((⟨events, .ok value⟩ : Logged ε α) >>= next) =
      ⟨events ++ (next value).events, (next value).result⟩ := rfl

@[simp]
theorem bind_error (events : List Event) (fault : ε) (next : α → Logged ε β) :
    ((⟨events, .error fault⟩ : Logged ε α) >>= next) = ⟨events, .error fault⟩ := rfl

@[simp]
theorem log_bind (event : Event) (next : Unit → Logged ε β) :
    (log event >>= next) = ⟨event :: (next ()).events, (next ()).result⟩ := rfl

@[simp]
theorem traverse_nil (step : α → Logged ε β) : traverse step [] = ⟨[], .ok []⟩ := rfl

/-- A first step that fails is the end of the traversal. -/
theorem traverse_cons_error {step : α → Logged ε β} {head : α} {events : List Event} {fault : ε}
    (hstep : step head = ⟨events, .error fault⟩) (tail : List α) :
    traverse step (head :: tail) = ⟨events, .error fault⟩ := by
  rw [traverse, hstep, bind_error]

/-- After a first step that succeeds, the rest of the traversal follows. -/
theorem traverse_cons_ok {step : α → Logged ε β} {head : α} {events : List Event} {value : β}
    (hstep : step head = ⟨events, .ok value⟩) (tail : List α) :
    traverse step (head :: tail) =
      ⟨events ++ (traverse step tail).events,
        (traverse step tail).result.map (value :: ·)⟩ := by
  rw [traverse, hstep, bind_ok]
  rcases traverse step tail with ⟨later, result⟩
  cases result with
  | error fault => rfl
  | ok others => simp [Except.map]

end Logged

end FieldWiring
