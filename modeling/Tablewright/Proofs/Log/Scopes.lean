import Tablewright.Log.Context
import Tablewright.Proofs.Value.Entries

namespace Tablewright.Log

/-- What happens to scopes: one is entered, or the innermost one is left, maybe because its work
failed. -/
inductive Move
  | enter (e : Entry)
  | exit (failed : Bool)
  deriving Inhabited

def Scopes.move (s : Scopes) : Move → Scopes
  | .enter e => s.enter e
  | .exit _ => s.leave

def Scopes.after (s : Scopes) (moves : List Move) : Scopes := moves.foldl Scopes.move s

def stillOpen (opened : List Entry) : List Move → List Entry
  | [] => opened
  | .enter e :: moves => stillOpen (e :: opened) moves
  | .exit _ :: moves => stillOpen opened.tail moves

def Scopes.opening : List Entry → Scopes
  | [] => []
  | e :: outer => (opening outer).enter e

namespace Scopes

theorem after_append (s : Scopes) (ms ns : List Move) :
    s.after (ms ++ ns) = (s.after ms).after ns := by
  simp [after]

theorem after_opening (opened : List Entry) (moves : List Move) :
    (opening opened).after moves = opening (stillOpen opened moves) := by
  induction moves generalizing opened with
  | nil => rfl
  | cons m moves ih =>
    cases m with
    | enter e => exact ih (e :: opened)
    | exit failed =>
      have htail : (opening opened).leave = opening opened.tail := by
        cases opened <;> rfl
      rw [stillOpen, ← ih, ← htail]
      rfl

end Scopes

theorem field?_merge (outer inner : List (Value × Value)) (name : String) :
    Value.field? (Context.merge outer inner) name =
      (Value.field? inner.reverse name).or (Value.field? outer name) := by
  induction inner generalizing outer with
  | nil => simp [Context.merge, Value.field?]
  | cons entry rest ih =>
    obtain ⟨k, v⟩ := entry
    have hstep : Context.merge outer ((k, v) :: rest) =
        Context.merge (Value.insertKey k v outer) rest := rfl
    rw [hstep, ih, Value.field?_insertKey]
    by_cases hk : k.isText name = true <;>
      cases hr : rest.reverse.find? (·.1.isText name) <;>
      simp [Value.field?, List.find?_append, hk, hr]

/-- A context that is told by the entries that are open, the innermost first. -/
structure DeterminedBy (opened : List Entry) (c : Context) : Prop where
  table : c.table = (opened.findSome? (·.table)).getD .null
  column : c.column = (opened.findSome? (·.column)).getD .null
  source : c.source = (opened.findSome? (·.source)).getD .null
  operation : c.operation = (opened.findSome? (·.operation)).getD .null
  extra : c.extra = opened.foldr (fun e outer => Context.merge outer e.extra) []
  /-- Of several values for a further field the innermost counts. -/
  further : ∀ name, Value.field? c.extra name =
    opened.findSome? fun e => Value.field? e.extra.reverse name

theorem determinedBy_opening (opened : List Entry) :
    DeterminedBy opened (Scopes.opening opened).current := by
  induction opened with
  | nil => exact ⟨rfl, rfl, rfl, rfl, rfl, fun _ => rfl⟩
  | cons e outer ih =>
    have hcurrent : (Scopes.opening (e :: outer)).current =
        (Scopes.opening outer).current.enter e := rfl
    obtain ⟨htable, hcolumn, hsource, hoperation, hextra, hfurther⟩ := ih
    rw [hcurrent]
    refine ⟨?_, ?_, ?_, ?_, ?_, fun name => ?_⟩
    · cases he : e.table <;> simp [Context.enter, he, htable]
    · cases he : e.column <;> simp [Context.enter, he, hcolumn]
    · cases he : e.source <;> simp [Context.enter, he, hsource]
    · cases he : e.operation <;> simp [Context.enter, he, hoperation]
    · simp [Context.enter, hextra]
    · have hmerge := field?_merge (Scopes.opening outer).current.extra e.extra name
      cases he : Value.field? e.extra.reverse name <;>
        simp [Context.enter, hmerge, he, hfurther]

/-- Moves in which every scope that is entered is left again, and no other one. -/
inductive Nested : List Move → Prop
  | nil : Nested []
  | block (e : Entry) {inner rest : List Move} (failed : Bool) (hinner : Nested inner)
      (hrest : Nested rest) : Nested (.enter e :: inner ++ .exit failed :: rest)

theorem Nested.after_eq {moves : List Move} (h : Nested moves) (s : Scopes) :
    s.after moves = s := by
  induction h generalizing s with
  | nil => rfl
  | @block e inner rest failed _ _ ihinner ihrest =>
    have hopen : s.after (.enter e :: inner) = s.enter e := ihinner (s.enter e)
    rw [Scopes.after_append, hopen]
    exact ihrest s

end Tablewright.Log
