import Tablewright.Proofs.Rule.Run
import Tablewright.Sql.Column

namespace Tablewright.Sql

variable {c : Column} {u : Unwrapped} {calls later : Calls}

theorem defineColumn_of_writable (hu : c.rule.unwrap calls = (.ok u, later))
    (hw : isWritable c u = true) :
    defineColumn c calls = (.ok (columnText c u, columnEvents c u), later) := by
  rw [defineColumn, Run.bind_ok hu, if_pos hw]
  rfl

theorem defineColumn_of_unwritable (hu : c.rule.unwrap calls = (.ok u, later))
    (hw : isWritable c u = false) : defineColumn c calls = (.error .tooManyDigits, later) := by
  rw [defineColumn, Run.bind_ok hu, if_neg (by simp [hw])]
  rfl

theorem exists_of_defineColumn {text : String} {events : List Log.Event}
    (h : defineColumn c calls = (.ok (text, events), later)) :
    ∃ u, c.rule.unwrap calls = (.ok u, later) ∧ isWritable c u = true ∧
      text = columnText c u ∧ events = columnEvents c u := by
  obtain ⟨u, mid, hu, h⟩ := Run.bind_eq_ok.mp h
  cases hw : isWritable c u with
  | true =>
    rw [hw] at h
    cases h
    exact ⟨u, hu, hw, rfl, rfl⟩
  | false =>
    rw [hw] at h
    cases h

end Tablewright.Sql
