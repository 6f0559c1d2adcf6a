import Tablewright.Proofs.Deployment.Course
import Tablewright.Proofs.Deployment.Selection

namespace Tablewright.Deployment

open Database (Phase Refusals attempt sent)

def ranUntil : Option Nat → Nat → Nat
  | none, total => total
  | some k, _ => k - 1

/-- The number of tables all of whose statements are among the first ones of all. -/
def tablesWithin (ran : Nat) (cs : List Compiled) : Nat :=
  (List.range cs.length).countP fun i => (statements (cs.take (i + 1))).length ≤ ran

theorem countP_range {p : Nat → Bool} {d m : Nat} (hd : d ≤ m)
    (h : ∀ i < m, p i = true ↔ i < d) : (List.range m).countP p = d := by
  obtain ⟨e, rfl⟩ := Nat.exists_eq_add_of_le hd
  have hlow : (List.range d).countP p = (List.range d).length := by
    rw [List.countP_eq_length]
    intro i hi
    have hi := List.mem_range.mp hi
    exact (h i (by omega)).mpr hi
  have hhigh : ((List.range e).map (d + ·)).countP p = 0 := by
    rw [List.countP_eq_zero]
    rintro _ hj hp
    obtain ⟨i, hi, rfl⟩ := List.mem_map.mp hj
    have hi := List.mem_range.mp hi
    have hlt := (h (d + i) (by omega)).mp hp
    omega
  rw [List.range_add, List.countP_append, hlow, hhigh, List.length_range, Nat.add_zero]

theorem tablesWithin_append {ran : Nat} {done rest : List Compiled}
    (hdone : (statements done).length ≤ ran)
    (hrest : ∀ t ∈ rest.head?, ran < (statements done).length + t.statements.length) :
    tablesWithin ran (done ++ rest) = done.length := by
  refine countP_range (by simp) fun i hi => ?_
  rw [decide_eq_true_eq]
  constructor
  · intro hle
    -- Were the table among the rest, all of the first of these would have run.
    by_contra hge
    cases rest with
    | nil => exact hge (by simpa using hi)
    | cons t ts =>
      have hmore : i + 1 = done.length + (i - done.length + 1) := by omega
      rw [hmore, List.take_length_add_append, List.take_succ_cons, statements_append,
        statements_cons, List.length_append, List.length_append] at hle
      have hlt := hrest t rfl
      omega
  · intro hlt
    rw [List.take_append_of_le_length (Nat.succ_le_of_lt hlt)]
    have hsplit : (statements (done.take (i + 1))).length ≤ (statements done).length := by
      conv_rhs => rw [← List.take_append_drop (i + 1) done, statements_append, List.length_append]
      exact Nat.le_add_right ..
    exact hsplit.trans hdone

theorem statements_pos (t : Compiled) : 0 < t.statements.length :=
  Nat.succ_pos t.indexes.length

theorem count_commit_attempt (ss : List String) : (attempt ss).count .commit = 0 := by
  simp [attempt, List.count_eq_zero]

theorem count_commit_flatMap_whole (cs : List Compiled) :
    (cs.flatMap whole).count .commit = cs.length := by
  induction cs with
  | nil => rfl
  | cons t ts ih =>
    rw [List.flatMap_cons, List.count_append, ih, whole, List.count_append, count_commit_attempt,
      List.length_cons, Nat.zero_add, Nat.add_comm]
    rfl

/-- What a deployment does at its database, by what is refused first. -/
structure Orderly (database : String) (cs : List Compiled) (first : Option Nat) (status : Nat)
    (actions : List Database.Action) : Prop where
  opened : ∃ rest, actions = .connect database :: .execute foreignKeysOn :: rest
  session : Phase.unopened.run? actions = some .closed
  cursors : actions.count .openCursor = actions.count .closeCursor
  closes : actions.count .close = 1
  /-- Table by table, and of the last one maybe not all. -/
  turns : ∃ done rest last, cs = done ++ rest ∧
    actions = .connect database :: .execute foreignKeysOn ::
      (done.flatMap whole ++ last ++ [.close]) ∧
    (last = [] ∨ ∃ t ∈ rest.head?, ∃ ran, ran <+: t.statements ∧ last = attempt ran)
  sent : sent actions = sentUntil first (foreignKeysOn :: statements cs)
  /-- What is refused is the last that is sent, and nothing is committed after it. -/
  halted : ∀ k, first = some k → ∃ before a after, actions = before ++ a :: after ∧
    (Database.sent before).length = k ∧ a.sql?.isSome = true ∧
    ∀ b ∈ after, b = .closeCursor ∨ b = .close
  commits : actions.count .commit = tablesWithin (ranUntil first (statements cs).length) cs
  status : status = 0 ↔ first = none

namespace Course

variable {cs : List Compiled} {first : Option Nat} {status : Nat}
  {actions : List Database.Action}

theorem turns (h : Course cs first status actions) :
    ∃ done rest last, cs = done ++ rest ∧ actions = done.flatMap Deployment.whole ++ last ∧
      (last = [] ∨ ∃ t ∈ rest.head?, ∃ ran, ran <+: t.statements ∧ last = attempt ran) := by
  cases h with
  | unset => exact ⟨[], cs, [], rfl, rfl, .inl rfl⟩
  | whole => exact ⟨cs, [], [], by simp, by simp, .inl rfl⟩
  | cut done t rest j split bound =>
    exact ⟨done, t :: rest, _, split, rfl, .inr ⟨t, rfl, _, List.take_prefix .., rfl⟩⟩

theorem halted {k : Nat} (h : Course cs (some k) status actions) (database : String) :
    ∃ before a after, .connect database :: .execute foreignKeysOn :: (actions ++ [.close]) =
        before ++ a :: after ∧ (sent before).length = k ∧ a.sql?.isSome = true ∧
      ∀ b ∈ after, b = .closeCursor ∨ b = .close := by
  cases h with
  | unset => exact ⟨[.connect database], .execute foreignKeysOn, [.close], rfl, rfl, rfl, by simp⟩
  | cut done t rest j split bound =>
    refine ⟨[.connect database, .execute foreignKeysOn] ++ done.flatMap Deployment.whole ++
      .openCursor :: (t.statements.take j).map .run, .run t.statements[j], [.closeCursor, .close],
      ?_, ?_, rfl, by simp⟩
    · have hruns : (t.statements.take (j + 1)).map Database.Action.run =
          (t.statements.take j).map .run ++ [.run t.statements[j]] := by
        rw [List.take_succ_eq_append_getElem bound, List.map_append, List.map_singleton]
      rw [attempt, hruns]
      simp
    · have hopen : sent (.openCursor :: (t.statements.take j).map .run) = t.statements.take j :=
        Database.sent_map_run _
      rw [Database.sent_append, Database.sent_append, sent_flatMap_whole, hopen,
        List.length_append, List.length_append, List.length_take_of_le (Nat.le_of_lt bound)]
      change 1 + _ + j = _
      omega

theorem commits (h : Course cs first status actions) :
    actions.count .commit = tablesWithin (ranUntil first (statements cs).length) cs := by
  cases h with
  | unset =>
    have hnone : tablesWithin 0 ([] ++ cs) = 0 :=
      tablesWithin_append (Nat.le_refl 0) fun t _ => by simpa [statements] using statements_pos t
    exact hnone.symm
  | whole =>
    have hall : tablesWithin (statements cs).length (cs ++ []) = cs.length :=
      tablesWithin_append (Nat.le_refl _) (by simp)
    rw [List.append_nil] at hall
    rw [count_commit_flatMap_whole, ranUntil, hall]
  | cut done t rest j split bound =>
    have hwithin : tablesWithin ((statements done).length + j) (done ++ t :: rest) = done.length :=
      tablesWithin_append (Nat.le_add_right ..) fun u hu => by
        cases hu
        exact Nat.add_lt_add_left bound _
    rw [List.count_append, count_commit_flatMap_whole, count_commit_attempt, split, ranUntil]
    exact hwithin.symm

end Course

theorem orderly_execute (database : String) (cs : List Compiled) (refusals : Refusals) :
    Orderly database cs (refusals.first? (statements cs).length)
      (execute database cs refusals).status (execute database cs refusals).actions := by
  obtain ⟨actions, hactions, h⟩ := course_execute database cs refusals
  have hsession : Phase.unopened.run? (execute database cs refusals).actions = some .closed := by
    have hrun : Phase.free.run? (actions ++ [.close]) = some .closed := by
      rw [Phase.run?_append, h.run?_eq]
      rfl
    rw [hactions]
    exact hrun
  obtain ⟨hcursors, hcloses⟩ := Phase.count_of_run? hsession
  obtain ⟨done, rest, last, hcs, hturns, hlast⟩ := h.turns
  refine ⟨⟨_, hactions⟩, hsession, hcursors, hcloses, ⟨done, rest, last, hcs, ?_, hlast⟩,
    sent_execute database cs refusals, ?_, ?_, h.status_eq_zero_iff⟩
  · rw [hactions, hturns]
  · intro k hk
    rw [hk] at h
    rw [hactions]
    exact h.halted database
  · rw [hactions, ← h.commits]
    simp

/-- A deployment that opens no database does nothing at one. -/
structure Careful (r : Request) (source : Source) (folder : Option Entry) (refusals : Refusals) :
    Prop where
  opened : actionsOf (run r source folder refusals) ≠ [] ↔
    (∃ cs, r.compiled? source folder = some cs) ∧ r.database ≠ "" ∧ r.dryRun = false
  selected : ∀ cs, r.compiled? source folder = some cs → r.Selected source folder cs
  orderly : ∀ cs, r.compiled? source folder = some cs →
    actionsOf (run r source folder refusals) ≠ [] →
    Orderly r.database cs (refusals.first? (statements cs).length)
      (exitStatus (run r source folder refusals)) (actionsOf (run r source folder refusals))
  unknown : ∀ name ∈ r.tables, name ∉ (Request.known source folder).names →
    exitStatus (run r source folder refusals) = 1 ∧
      actionsOf (run r source folder refusals) = []

theorem isPreview_eq_false {r : Request} :
    r.isPreview = false ↔ r.database ≠ "" ∧ r.dryRun = false := by
  rw [Request.isPreview, Bool.or_eq_false_iff, and_comm, ← Bool.not_eq_true, String.isEmpty_iff]

/-- Whatever the files, the settings and the request, and whatever the database refuses: nothing is
done before all tables are compiled, and what is begun is brought to its end. -/
theorem careful_run (r : Request) (source : Source) (folder : Option Entry)
    (refusals : Refusals) : Careful r source folder refusals := by
  have hnone (h : r.compiled? source folder = none) := run_of_not_compiled h refusals
  constructor
  · rw [← isPreview_eq_false]
    constructor
    · intro hne
      obtain ⟨cs, hcs⟩ := Option.ne_none_iff_exists'.mp fun h => hne (hnone h).2
      obtain ⟨before, hrun⟩ := run_of_compiled hcs
      refine ⟨⟨cs, hcs⟩, Bool.eq_false_iff.mpr fun hp => hne ?_⟩
      rw [hrun, if_pos hp]
      rfl
    · rintro ⟨⟨cs, hcs⟩, hp⟩
      obtain ⟨before, hrun⟩ := run_of_compiled hcs
      obtain ⟨rest, hrest⟩ := (orderly_execute r.database cs refusals).opened
      rw [hrun, hp]
      intro hnil
      exact List.cons_ne_nil _ _ (hrest.symm.trans hnil)
  · exact fun cs h => Request.selected_of_compiled? h
  · intro cs h hne
    obtain ⟨before, hrun⟩ := run_of_compiled h
    rw [hrun] at hne ⊢
    split at hne
    · exact absurd rfl hne
    · rename_i hp
      rw [if_neg hp]
      exact orderly_execute r.database cs refusals
  · exact fun name hn hu => hnone (Request.compiled?_of_unknown hn hu)

end Tablewright.Deployment
