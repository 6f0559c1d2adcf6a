import Mathlib.Data.List.Infix
import Tablewright.Database

namespace Tablewright.Database

open Log (Context Event)

def Action.sql? : Action → Option String
  | .execute sql | .run sql => some sql
  | _ => none

def sent (actions : List Action) : List String := actions.filterMap Action.sql?

@[simp]
theorem sent_append (as bs : List Action) : sent (as ++ bs) = sent as ++ sent bs :=
  List.filterMap_append

theorem sent_flatMap (xs : List α) (f : α → List Action) :
    sent (xs.flatMap f) = xs.flatMap fun x => sent (f x) := by
  rw [sent, List.filterMap_flatMap]
  rfl

@[simp]
theorem sent_map_run (statements : List String) : sent (statements.map .run) = statements := by
  rw [sent, List.filterMap_map]
  exact List.filterMap_some

namespace Connection

variable {c : Connection} {statements : List String} {message : String} {k m n : Nat}

/-- After n more statements, the next one is refused. -/
def Refuses (c : Connection) (n : Nat) (message : String) : Prop :=
  c.refusal = some ⟨c.count + n + 1, message⟩

def Spares (c : Connection) (n : Nat) : Prop := ∀ k < n, ∀ message, ¬c.Refuses k message

def after (c : Connection) (n : Nat) : Connection := { c with count := c.count + n }

theorem spares_or_refuses (c : Connection) (n : Nat) :
    c.Spares n ∨ ∃ k < n, ∃ message, c.Refuses k message := by
  by_cases h : ∃ k < n, ∃ message, c.Refuses k message
  · exact .inr h
  · exact .inl fun k hk message hr => h ⟨k, hk, message, hr⟩

theorem refuses_after : (c.after m).Refuses n message ↔ c.Refuses (m + n) message := by
  simp only [Refuses, after, Nat.add_assoc]

theorem Spares.mono (h : c.Spares n) (hm : m ≤ n) : c.Spares m :=
  fun k hk => h k (Nat.lt_of_lt_of_le hk hm)

theorem Spares.after (h : c.Spares (m + n)) : (c.after m).Spares n :=
  fun k hk message hr => h (m + k) (Nat.add_lt_add_left hk m) message (refuses_after.mp hr)

theorem Refuses.spares (h : c.Refuses k message) : c.Spares k := by
  intro j hj other hr
  obtain ⟨hp, -⟩ := Refusal.mk.inj (Option.some.inj (hr.symm.trans h))
  omega

theorem against_of_spares (h : c.Spares (n + 1)) : c.against = none := by
  rw [against]
  split
  · rename_i r hr
    refine if_neg fun hp => h 0 (Nat.succ_pos n) r.message ?_
    rw [Refuses, hr, Nat.add_zero, ← hp]
  · rfl

theorem against_of_refuses (h : c.Refuses 0 message) : c.against = some message := by
  rw [against, h]
  exact if_pos rfl

theorem runAll_of_spares (h : c.Spares statements.length) :
    c.runAll statements = (.ok (), c.after statements.length, statements.map .run) := by
  induction statements generalizing c with
  | nil => rfl
  | cons s ss ih =>
    have hrest : (c.after 1).Spares ss.length :=
      Spares.after (by rwa [List.length_cons, Nat.add_comm] at h)
    rw [runAll, against_of_spares h]
    change (_, _, Action.run s :: _) = _
    rw [← after, ih hrest]
    simp only [after, List.length_cons, List.map_cons, Nat.add_assoc, Nat.add_comm 1]

theorem runAll_of_refuses (h : c.Refuses k message) (hk : k < statements.length) :
    c.runAll statements =
      (.error message, c.after (k + 1), (statements.take (k + 1)).map .run) := by
  induction statements generalizing c k with
  | nil => cases hk
  | cons s ss ih =>
    rw [runAll]
    cases k with
    | zero =>
      rw [against_of_refuses h]
      rfl
    | succ k =>
      have hnext : (c.after 1).Refuses k message :=
        refuses_after.mpr (by rwa [Nat.add_comm])
      rw [against_of_spares (h.spares.mono (Nat.succ_le_succ (Nat.zero_le k)))]
      change (_, _, Action.run s :: _) = _
      rw [← after, ih hnext (Nat.lt_of_succ_lt_succ hk)]
      simp only [after, List.take_succ_cons, List.map_cons, Nat.add_assoc, Nat.add_comm 1]

end Connection

def attempt (statements : List String) : List Action :=
  .openCursor :: statements.map .run ++ [.closeCursor]

@[simp]
theorem sent_attempt (statements : List String) : sent (attempt statements) = statements := by
  rw [attempt, List.cons_append, ← List.singleton_append, sent_append, sent_append, sent_map_run]
  exact List.append_nil statements

/-- Where a connection stands: before it is opened, free, taken by a cursor, or closed. -/
inductive Phase
  | unopened | free | taken | closed
  deriving DecidableEq, Repr

namespace Phase

/-- Statements of a table need a cursor, and nothing is committed or closed over one. -/
def next? : Phase → Action → Option Phase
  | unopened, .connect _ => some free
  | free, .execute _ | free, .commit => some free
  | free, .openCursor => some taken
  | taken, .run _ => some taken
  | taken, .closeCursor => some free
  | free, .close => some closed
  | _, _ => none

def run? (p : Phase) (actions : List Action) : Option Phase := actions.foldlM next? p

theorem run?_append (p : Phase) (as bs : List Action) :
    p.run? (as ++ bs) = (p.run? as).bind (·.run? bs) :=
  List.foldlM_append

theorem run?_map_run (statements : List String) :
    taken.run? (statements.map .run) = some taken := by
  induction statements with
  | nil => rfl
  | cons s ss ih => exact ih

theorem run?_attempt (statements : List String) : free.run? (attempt statements) = some free := by
  have hruns : taken.run? (statements.map .run ++ [.closeCursor]) = some free := by
    rw [run?_append, run?_map_run]
    rfl
  exact hruns

theorem run?_flatMap {f : α → List Action} {p : Phase} (h : ∀ x, p.run? (f x) = some p)
    (xs : List α) : p.run? (xs.flatMap f) = some p := by
  induction xs with
  | nil => rfl
  | cons x xs ih =>
    rw [List.flatMap_cons, run?_append, h]
    exact ih

theorem count_of_run? {p q : Phase} {actions : List Action} (h : p.run? actions = some q) :
    actions.count .openCursor + (if p = taken then 1 else 0) =
        actions.count .closeCursor + (if q = taken then 1 else 0) ∧
      actions.count .close + (if p = closed then 1 else 0) = if q = closed then 1 else 0 := by
  induction actions generalizing p with
  | nil =>
    cases h
    simp
  | cons a as ih =>
    obtain ⟨mid, hmid, hrest⟩ := Option.bind_eq_some_iff.mp h
    obtain ⟨hcursors, hcloses⟩ := ih hrest
    -- A cursor is open in one phase, so every action keeps both sides in balance.
    cases p <;> cases a <;> cases hmid <;>
      simp only [List.count_cons, reduceCtorEq, ite_true, ite_false, beq_iff_eq] at * <;> omega

end Phase

section

variable (context : Context) {t : Compiled} {c : Connection} {message : String} {k : Nat}

theorem deploy_of_spares (h : c.Spares t.statements.length) :
    deploy context t c =
      (.ok t.statements.length, c.after t.statements.length, attempt t.statements ++ [.commit],
        [(Event.executed t.statements.length t.name).record context]) := by
  rw [deploy, Connection.runAll_of_spares h]
  rfl

theorem deploy_of_refuses (h : c.Refuses k message) (hk : k < t.statements.length) :
    deploy context t c =
      (.error message, c.after (k + 1), attempt (t.statements.take (k + 1)), []) := by
  rw [deploy, Connection.runAll_of_refuses h hk]
  rfl

end

end Tablewright.Database
