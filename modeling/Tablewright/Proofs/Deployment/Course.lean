import Tablewright.Deployment
import Tablewright.Proofs.Deployment.Connection

namespace Tablewright

open Database (Connection Phase Refusals attempt sent)

/-- Among all that is sent, from setting the connection up, the place of what is refused first. -/
def Database.Refusals.first? (r : Refusals) (total : Nat) : Option Nat :=
  match r.setting, r.statement with
  | some _, _ => some 0
  | none, some s => if 0 < s.position ∧ s.position ≤ total then some s.position else none
  | none, none => none

namespace Deployment

def statements (cs : List Compiled) : List String := cs.flatMap Compiled.statements

def whole (t : Compiled) : List Database.Action := attempt t.statements ++ [.commit]

theorem statements_cons (t : Compiled) (ts : List Compiled) :
    statements (t :: ts) = t.statements ++ statements ts :=
  List.flatMap_cons

theorem statements_append (as bs : List Compiled) :
    statements (as ++ bs) = statements as ++ statements bs :=
  List.flatMap_append

theorem sent_whole (t : Compiled) : sent (whole t) = t.statements := by
  rw [whole, Database.sent_append, Database.sent_attempt]
  exact List.append_nil t.statements

theorem sent_flatMap_whole (cs : List Compiled) : sent (cs.flatMap whole) = statements cs := by
  rw [Database.sent_flatMap, statements]
  exact List.flatMap_congr fun t _ => sent_whole t

theorem run?_whole (t : Compiled) : Phase.free.run? (whole t) = some .free := by
  rw [whole, Phase.run?_append, Phase.run?_attempt]
  rfl

section

variable {c : Connection} {cs : List Compiled} {message : String} {k : Nat}

theorem runAll_of_spares (h : c.Spares (statements cs).length) :
    ∃ records, runAll cs c = (.ok (statements cs).length, cs.flatMap whole, records) := by
  induction cs generalizing c with
  | nil => exact ⟨[], rfl⟩
  | cons t ts ih =>
    rw [statements_cons, List.length_append] at h
    obtain ⟨records, hrest⟩ := ih h.after
    rw [runAll, Database.deploy_of_spares _ (h.mono (Nat.le_add_right ..))]
    dsimp only
    rw [hrest, statements_cons, List.length_append, List.flatMap_cons]
    exact ⟨_, rfl⟩

theorem runAll_of_refuses {done : List Compiled} {t : Compiled} (rest : List Compiled)
    (h : c.Refuses ((statements done).length + k) message) (hk : k < t.statements.length) :
    ∃ records, runAll (done ++ t :: rest) c =
      (.error message, done.flatMap whole ++ attempt (t.statements.take (k + 1)), records) := by
  induction done generalizing c with
  | nil =>
    rw [statements, List.flatMap_nil, List.length_nil, Nat.zero_add] at h
    rw [List.nil_append, runAll, Database.deploy_of_refuses _ h hk]
    exact ⟨_, rfl⟩
  | cons u us ih =>
    rw [statements_cons, List.length_append, Nat.add_assoc] at h
    obtain ⟨records, hrest⟩ := ih (Connection.refuses_after.mpr h)
    rw [List.cons_append, runAll,
      Database.deploy_of_spares _ (h.spares.mono (Nat.le_add_right ..))]
    dsimp only
    rw [hrest, List.flatMap_cons, List.append_assoc (whole u)]
    exact ⟨_, rfl⟩

theorem exists_split (h : k < (statements cs).length) :
    ∃ done t rest, cs = done ++ t :: rest ∧
      ∃ j < t.statements.length, k = (statements done).length + j := by
  induction cs generalizing k with
  | nil => cases h
  | cons t ts ih =>
    by_cases hk : k < t.statements.length
    · exact ⟨[], t, ts, rfl, k, hk, (Nat.zero_add k).symm⟩
    · rw [statements_cons, List.length_append] at h
      obtain ⟨done, u, rest, rfl, j, hj, hsum⟩ := ih (k := k - t.statements.length) (by omega)
      refine ⟨t :: done, u, rest, rfl, j, hj, ?_⟩
      rw [statements_cons, List.length_append]
      omega

end

/-- Of statements that are sent in order, those up to the first that is refused. -/
def sentUntil : Option Nat → List String → List String
  | none, all => all
  | some k, all => all.take (k + 1)

/-- What is done for tables after the connection is set up, by what is refused first: the status
at the end, and the actions. -/
inductive Course (cs : List Compiled) : Option Nat → Nat → List Database.Action → Prop
  | unset : Course cs (some 0) 1 []
  | whole : Course cs none 0 (cs.flatMap whole)
  | cut (done : List Compiled) (t : Compiled) (rest : List Compiled) (j : Nat)
      (split : cs = done ++ t :: rest) (bound : j < t.statements.length) :
      Course cs (some ((statements done).length + j + 1)) 1
        (done.flatMap Deployment.whole ++ attempt (t.statements.take (j + 1)))

theorem course_execute (database : String) (cs : List Compiled) (refusals : Refusals) :
    ∃ actions, (execute database cs refusals).actions =
        .connect database :: .execute foreignKeysOn :: (actions ++ [.close]) ∧
      Course cs (refusals.first? (statements cs).length) (execute database cs refusals).status
        actions := by
  obtain ⟨setting, statement⟩ := refusals
  cases setting with
  | some message => exact ⟨[], rfl, .unset⟩
  | none =>
    rw [execute, carryOut]
    dsimp only
    obtain hspares | ⟨k, hk, message, hr⟩ :=
      (Connection.ofRefusal statement).spares_or_refuses (statements cs).length
    · have hfirst : Refusals.first? ⟨none, statement⟩ (statements cs).length = none := by
        cases statement with
        | none => rfl
        | some s =>
          -- A refusal in range would be met by the connection.
          refine if_neg fun hs => hspares (s.position - 1) (by omega) s.message ?_
          have hp : 0 + (s.position - 1) + 1 = s.position := by omega
          rw [Connection.Refuses, Connection.ofRefusal, hp]
      obtain ⟨records, hrun⟩ := runAll_of_spares hspares
      rw [hrun, hfirst]
      exact ⟨_, rfl, .whole⟩
    · obtain ⟨done, t, rest, rfl, j, hj, rfl⟩ := exists_split hk
      have hfirst : Refusals.first? ⟨none, statement⟩ (statements (done ++ t :: rest)).length =
          some ((statements done).length + j + 1) := by
        obtain rfl : statement = some ⟨0 + ((statements done).length + j) + 1, message⟩ := hr
        rw [Nat.zero_add]
        exact if_pos ⟨Nat.succ_pos _, hk⟩
      obtain ⟨records, hrun⟩ := runAll_of_refuses rest hr hj
      rw [hrun, hfirst]
      exact ⟨_, rfl, .cut done t rest j rfl hj⟩

namespace Course

variable {cs : List Compiled} {first : Option Nat} {status : Nat} {actions : List Database.Action}

theorem status_eq_zero_iff (h : Course cs first status actions) : status = 0 ↔ first = none := by
  cases h <;> simp

theorem sent_eq (h : Course cs first status actions) :
    foreignKeysOn :: sent actions = sentUntil first (foreignKeysOn :: statements cs) := by
  cases h with
  | unset => rfl
  | whole => rw [sent_flatMap_whole, sentUntil]
  | cut done t rest j split bound =>
    rw [sentUntil, split, statements_append, Database.sent_append, sent_flatMap_whole,
      Database.sent_attempt, List.take_succ_cons, Nat.add_assoc, List.take_length_add_append,
      statements_cons, List.take_append_of_le_length bound]

theorem run?_eq (h : Course cs first status actions) :
    Phase.free.run? actions = some .free := by
  cases h with
  | unset => rfl
  | whole => exact Phase.run?_flatMap run?_whole cs
  | cut done t rest j split bound =>
    rw [Phase.run?_append, Phase.run?_flatMap run?_whole]
    exact Phase.run?_attempt _

end Course

theorem sent_execute (database : String) (cs : List Compiled) (refusals : Refusals) :
    Database.sent (execute database cs refusals).actions =
      sentUntil (refusals.first? (statements cs).length) (foreignKeysOn :: statements cs) := by
  obtain ⟨actions, hactions, h⟩ := course_execute database cs refusals
  have hclose : Database.sent (actions ++ [.close]) = Database.sent actions := by
    rw [Database.sent_append]
    exact List.append_nil _
  rw [hactions, ← h.sent_eq]
  exact congrArg (foreignKeysOn :: ·) hclose

end Deployment

end Tablewright
