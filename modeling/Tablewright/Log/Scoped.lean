import Tablewright.Log.Event
import Tablewright.Function

namespace Tablewright.Log

/-- A computation among open scopes: it may call functions, write records and fail, and it leaves
scopes behind. -/
def Scoped (ε α : Type) := Scopes → Calls → Except ε α × Calls × List Record × Scopes

namespace Scoped

def pure (a : α) : Scoped ε α := fun s calls => (.ok a, calls, [], s)

def fail (e : ε) : Scoped ε α := fun s calls => (.error e, calls, [], s)

def bind (m : Scoped ε α) (next : α → Scoped ε β) : Scoped ε β := fun s calls =>
  match m s calls with
  | (.error e, calls, records, s) => (.error e, calls, records, s)
  | (.ok a, calls, records, s) =>
    let (result, calls, more, s) := next a s calls
    (result, calls, records ++ more, s)

instance : Monad (Scoped ε) where
  pure := pure
  bind := bind

def ofExcept : Except ε α → Scoped ε α
  | .ok a => pure a
  | .error e => fail e

def ofRun (failure : Fault → ε) (r : Run α) : Scoped ε α := fun s calls =>
  let (result, calls) := r calls
  (result.mapError failure, calls, [], s)

def report (e : Event) : Scoped ε Unit := fun s calls => (.ok (), calls, [e.record s.current], s)

/-- Work in a scope, which is left when the work is done and also when it fails. -/
def within (e : Entry) (body : Scoped ε α) : Scoped ε α := fun s calls =>
  let (result, calls, records, s) := body (s.enter e) calls
  (result, calls, records, s.leave)

end Scoped

end Tablewright.Log
