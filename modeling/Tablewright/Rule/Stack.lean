import Tablewright.Rule.Basic

namespace Tablewright

structure Stack where
  leaf : Rule
  nullable : Bool
  default : Option (Value × Option Callable)
  deriving Inhabited

namespace Rule

def admitsNull : Layer → Bool
  | .optional | .nullable => true
  | .default .. => false

def stack : Rule → Stack
  | .layer _ l r =>
    let below := r.stack
    { below with
      nullable := admitsNull l || below.nullable
      default := match below.default, l with
        | some d, _ => some d
        | none, .default v f => some (v, f)
        | none, _ => none }
  | r => ⟨r, false, none⟩

@[simp]
theorem leaf_stack (r : Rule) : r.stack.leaf = r.leaf := by
  fun_induction Rule.leaf r with
  | case1 _ _ _ ih => simpa [Rule.stack] using ih
  | case2 r h => unfold Rule.stack; split <;> simp_all

def factories : Rule → List Callable
  | .layer _ (.default _ (some f)) r => f :: r.factories
  | .layer _ _ r => r.factories
  | _ => []

end Rule

structure Unwrapped where
  leaf : Rule
  nullable : Bool
  default : Option Value
  deriving Inhabited

/-- The value of a default: a factory is called once, and takes precedence over a value. -/
def resolveDefault : Value × Option Callable → Run Value
  | (_, some f) => f.supply
  | (v, none) => .pure v

def Rule.unwrap (r : Rule) : Run Unwrapped :=
  let s := r.stack
  match s.default with
  | none => .pure ⟨s.leaf, s.nullable, none⟩
  | some d => do
    let v ← resolveDefault d
    return ⟨s.leaf, s.nullable, some v⟩

end Tablewright
