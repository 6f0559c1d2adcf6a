import Tablewright.Proofs.Rule.Layers
import Tablewright.Proofs.Sql.Definition

namespace Tablewright

/-- A definition of a column that goes on, behind the name and the type, with not being null. -/
def Column.SaysNotNull (c : Column) (text : String) : Prop :=
  (c.name ++ " " ++ (Sql.storage c.rule.leaf).word ++ " NOT NULL").toList <+: text.toList

instance (c : Column) (text : String) : Decidable (c.SaysNotNull text) :=
  inferInstanceAs (Decidable (_ <+: _))

namespace Sql

def laterClauses (c : Column) (u : Unwrapped) : List String :=
  (u.default.map fun v => defaultClause v (storage u.leaf)).toList
    ++ (if c.unique then ["UNIQUE"] else []) ++ (check? c.name c.rule).toList
    ++ referenceClauses c.references

theorem clauses_eq (c : Column) (u : Unwrapped) :
    clauses c u = c.name :: (storage u.leaf).word
      :: ((if u.nullable then [] else ["NOT NULL"]) ++ laterClauses c u) := by
  simp [clauses, laterClauses]

def StartsApart (s : String) : Prop := ∃ ch cs, s.toList = ch :: cs ∧ ch ≠ 'N'

theorem StartsApart.append {s : String} (h : StartsApart s) (t : String) :
    StartsApart (s ++ t) := by
  obtain ⟨ch, cs, hs, hch⟩ := h
  exact ⟨ch, cs ++ t.toList, by rw [String.toList_append, hs, List.cons_append], hch⟩

theorem startsApart_actionText {word : String} (h : StartsApart word)
    (action : Option ReferentialAction) : ∀ s ∈ actionText word action, StartsApart s := by
  intro s hs
  cases action with
  | none => cases hs
  | some a =>
    cases List.mem_singleton.mp hs
    exact (h.append _).append _

theorem startsApart_laterClauses (c : Column) (u : Unwrapped) :
    ∀ s ∈ laterClauses c u, StartsApart s := by
  rw [laterClauses, List.forall_mem_append, List.forall_mem_append, List.forall_mem_append]
  refine ⟨⟨⟨?_, ?_⟩, ?_⟩, ?_⟩
  · intro s hs
    obtain ⟨v, -, rfl⟩ := Option.map_eq_some_iff.mp (Option.mem_toList.mp hs)
    exact StartsApart.append ⟨'D', _, rfl, by decide⟩ _
  · intro s hs
    split at hs
    · cases List.mem_singleton.mp hs
      exact ⟨'U', _, rfl, by decide⟩
    · cases hs
  · intro s hs
    rw [Option.mem_toList, check?] at hs
    unfold checkClause? at hs
    split at hs
    · cases hs
    · cases hs
      exact (StartsApart.append ⟨'C', _, rfl, by decide⟩ _).append _
  · cases c.references with
    | none => simp [referenceClauses]
    | some fk =>
      rw [referenceClauses, List.cons_append, List.forall_mem_cons, List.forall_mem_append]
      refine ⟨?_, startsApart_actionText ⟨'O', _, rfl, by decide⟩ _,
        startsApart_actionText ⟨'O', _, rfl, by decide⟩ _⟩
      exact (((StartsApart.append ⟨'R', _, rfl, by decide⟩ _).append _).append _).append _

theorem intercalate_cons_eq (sep : List α) (x : List α) (xs : List (List α)) :
    sep.intercalate (x :: xs) = x ++ xs.flatMap (sep ++ ·) := by
  induction xs generalizing x with
  | nil => simp
  | cons y ys ih => rw [List.intercalate_cons_cons, ih, List.flatMap_cons]; simp

/-- A definition is the name, the type, and every further clause behind a space. -/
theorem toList_columnText (c : Column) (u : Unwrapped) :
    (columnText c u).toList = (c.name ++ " " ++ (storage u.leaf).word).toList
      ++ ((if u.nullable then [] else ["NOT NULL"]) ++ laterClauses c u).flatMap
        fun s => ' ' :: s.toList := by
  rw [columnText, clauses_eq, String.toList_intercalate, List.map_cons, List.map_cons,
    intercalate_cons_eq, List.flatMap_cons, List.flatMap_map]
  simp

theorem saysNotNull_columnText (c : Column) (nullable : Bool) (default : Option Value) :
    c.SaysNotNull (columnText c ⟨c.rule.leaf, nullable, default⟩) ↔ nullable = false := by
  rw [Column.SaysNotNull, toList_columnText, String.toList_append, List.prefix_append_right_inj]
  cases nullable with
  | false =>
    refine iff_of_true ?_ rfl
    rw [if_neg Bool.false_ne_true, List.singleton_append, List.flatMap_cons]
    exact List.prefix_append " NOT NULL".toList _
  | true =>
    refine iff_of_false ?_ nofun
    rw [if_pos rfl, List.nil_append]
    have hapart := startsApart_laterClauses c ⟨c.rule.leaf, true, default⟩
    generalize laterClauses c ⟨c.rule.leaf, true, default⟩ = clauses at hapart ⊢
    cases clauses with
    | nil => exact fun h => nomatch List.prefix_nil.mp h
    | cons s rest =>
      obtain ⟨ch, cs, hs, hch⟩ := hapart s List.mem_cons_self
      rw [List.flatMap_cons, hs]
      intro h
      exact hch (List.cons_prefix_cons.mp (List.cons_prefix_cons.mp h).2).1.symm

end Sql

/-- A definition says that a column is not null when none of its layers admits null. -/
theorem saysNotNull_iff {c : Column} {calls later : Calls} {text : String} {events : List Log.Event}
    (h : Sql.defineColumn c calls = (.ok (text, events), later)) :
    c.SaysNotNull text ↔ c.rule.layers.any Rule.admitsNull = false := by
  obtain ⟨u, hu, -, rfl, -⟩ := Sql.exists_of_defineColumn h
  rw [Rule.unwrap_eq] at hu
  cases hs : c.rule.source? with
  | none =>
    rw [hs] at hu
    cases hu
    exact Sql.saysNotNull_columnText c _ _
  | some s =>
    rw [hs] at hu
    obtain ⟨v, last, -, hu⟩ := Run.bind_eq_ok.mp hu
    cases hu
    exact Sql.saysNotNull_columnText c _ _

end Tablewright
