import Tablewright.Issue
import Tablewright.Value

namespace Tablewright

/-- Why calling a function of a definition failed: with an error of one of the kinds that are told
apart, or with the issues of a validation of its own. The two signals by which a function can tell
the validator to leave a value out, or to take the default, are not among them. -/
inductive Fault
  | value (text : String)
  | assertion (text : String)
  | invalid (issues : Issues)
  | key (text : String)
  | mistyped
  | other (kind text : String)
  deriving DecidableEq, Repr, Inhabited

/-- What is said of an integer that has too many digits to be written. -/
def Fault.tooManyDigits : Fault :=
  .value ("Exceeds the limit (4300 digits) for integer string conversion; "
    ++ "use sys.set_int_max_str_digits() to increase the limit")

/-- What a function does: whether it finds a value in order, and which value it gives when it has
been called `n` times before. -/
structure Behaviour where
  test : Value → Except Fault Bool
  source : Nat → Except Fault Value

instance : Inhabited Behaviour := ⟨⟨fun _ => .error .mistyped, fun _ => .error .mistyped⟩⟩

abbrev Functions := Nat → Behaviour

def Functions.none : Functions := fun _ => default

/-- A function of a definition, told apart from others by its slot. -/
structure Callable extends Behaviour where
  slot : Nat
  deriving Inhabited

def Callable.ofTest (slot : Nat) (test : Value → Except Fault Bool) : Callable :=
  { test, source := fun _ => .error .mistyped, slot }

def Callable.ofSource (slot : Nat) (source : Nat → Except Fault Value) : Callable :=
  { test := fun _ => .error .mistyped, source, slot }

def Functions.callable (fs : Functions) (slot : Nat) : Callable := { fs slot with slot }

abbrev Calls := List Nat

def Calls.times (calls : Calls) (slot : Nat) : Nat := calls.count slot

def Run (α : Type) := Calls → Except Fault α × Calls

namespace Run

def pure (a : α) : Run α := fun calls => (.ok a, calls)

def fail (f : Fault) : Run α := fun calls => (.error f, calls)

def bind (r : Run α) (next : α → Run β) : Run β := fun calls =>
  match r calls with
  | (.ok a, calls) => next a calls
  | (.error f, calls) => (.error f, calls)

instance : Monad Run where
  pure := pure
  bind := bind

end Run

namespace Callable

def supply (c : Callable) : Run Value := fun calls =>
  (c.source (calls.times c.slot), c.slot :: calls)

def ask (c : Callable) (v : Value) : Run Bool := fun calls => (c.test v, c.slot :: calls)

end Callable

end Tablewright
