import Tablewright.Coercion

namespace Tablewright

abbrev Entries := List (Value × Value)

namespace Entries

def step : Value → Step
  | .text s => .key s
  | .int n => .index n
  | .bool b => .index (if b then 1 else 0)
  | v => .key v.display

def unknown (known : List String) (entries : Entries) : Issues :=
  entries.filterMap fun (k, _) =>
    match k with
    | .text s => if known.contains s then none else some ⟨.extraForbidden, [.key s]⟩
    | _ => some ⟨.invalidKey, [step k]⟩

def below? (entries : Entries) (name : String) :
    Option { v : Value // sizeOf v < sizeOf entries } :=
  match entries with
  | [] => none
  | (k, v) :: rest =>
    if k.isText name then some ⟨v, by simp; omega⟩
    else (below? rest name).map fun ⟨w, h⟩ => ⟨w, by simp; omega⟩

end Entries

abbrev Read (α : Type) := Except Issues α

namespace Read

def both (f : α → β → γ) : Read α → Read β → Read γ
  | .ok a, .ok b => .ok (f a b)
  | .error es, .ok _ => .error es
  | .ok _, .error es => .error es
  | .error es, .error fs => .error (es ++ fs)

theorem both_eq_ok {f : α → β → γ} {a : Read α} {b : Read β} {c : γ} :
    both f a b = .ok c ↔ ∃ x y, a = .ok x ∧ b = .ok y ∧ f x y = c := by
  cases a <;> cases b <;> simp [both]

def fail (cause : Cause) : Read α := .error [.here cause]

def under (step : Step) : Read α → Read α
  | .ok a => .ok a
  | .error es => .error (es.under step)

@[simp]
theorem under_eq_ok {step : Step} {r : Read α} {a : α} : under step r = .ok a ↔ r = .ok a := by
  cases r <;> simp [under]

def andIssues (r : Read α) (issues : Issues) : Read α :=
  match r, issues with
  | .ok a, [] => .ok a
  | .ok _, es => .error es
  | .error es, fs => .error (es ++ fs)

def ofCoerced : Coerced α → Read α
  | .ok (a, _) => .ok a
  | .error c => fail c

def items (read : Value → Read α) (start : Nat) : List Value → Read (List α)
  | [] => .ok []
  | v :: vs => both (· :: ·) (under (.index start) (read v)) (items read (start + 1) vs)

def fieldOr (entries : Entries) (name : String) (absent : Read α) (read : Value → Read α) :
    Read α :=
  under (.key name)
    (match Value.field? entries name with
    | none => absent
    | some v => read v)

def orNull (read : Value → Read α) : Value → Read (Option α)
  | .null => .ok none
  | v => (read v).map some

def choice (all : List α) (text : α → String) (v : Value) : Read α :=
  match v with
  | .text s =>
    match all.find? (fun a => text a == s) with
    | some a => .ok a
    | none => fail (.notChoice (all.map text))
  | _ => fail (.notChoice (all.map text))

def text (v : Value) : Read String := ofCoerced (Coercion.toText v)

def name (v : Value) : Read String :=
  match text v with
  | .error es => .error es
  | .ok s => if s.isEmpty then fail (.textTooShort 1) else .ok s

def flag (v : Value) : Read Bool := ofCoerced (Coercion.toBool v)

def list (read : Value → Read α) (v : Value) : Read (List α) :=
  match Coercion.toItems v with
  | none => fail .notList
  | some (xs, _) => items read 0 xs

def tuple (read : Value → Read α) (v : Value) : Read (List α) :=
  match Coercion.toItems v with
  | none => fail .notTuple
  | some (xs, _) => items read 0 xs

def sequence (start : Nat) : List (Read α) → Read (List α)
  | [] => .ok []
  | r :: rs => both (· :: ·) (under (.index start) r) (sequence (start + 1) rs)

end Read

end Tablewright
