import Tablewright.Proofs.Rule.Built

namespace Tablewright

namespace Rule

open Read

def setLength (r : StringRule) (length : Option Nat) : Bound → StringRule
  | .minLength => { r with minLength := length }
  | .maxLength => { r with maxLength := length }
  | .exactLength => { r with exactLength := length }
  | _ => r

def setNumber (r : NumberRule) (bound : Option Number) : Bound → NumberRule
  | .minimum => { r with minimum := bound }
  | .maximum => { r with maximum := bound }
  | .exclusiveMinimum => { r with exclusiveMinimum := bound }
  | .exclusiveMaximum => { r with exclusiveMaximum := bound }
  | _ => r

variable {fs : Functions} {kind : Kind} {checks : List Refinement} {fields : Entries}

theorem fieldOr_insertKey {field name : String} {v : Value} {absent : Read α}
    {read : Value → Read α} (hrefinements : name ≠ "refinements") (hkind : name ≠ "kind") :
    fieldOr (nodeEntries kind checks (Value.insertKey (.text field) v fields)) name absent read =
      if field = name then under (.key name) (read v)
      else fieldOr (nodeEntries kind checks fields) name absent read := by
  rw [fieldOr, fieldOr, field?_nodeEntries hrefinements hkind,
    field?_nodeEntries hrefinements hkind, Value.field?_insertKey]
  by_cases h : field = name <;> simp [Value.isText, h]

theorem readString_insertKey {b : Bound} (hb : b.field ∈ fieldNames .string) (s : StringRule)
    (v : Value) :
    readString (nodeEntries kind checks
        (Value.insertKey (.text b.field) v (scalarEntries (.string s)))) =
      (under (.key b.field) (orNull readLength v)).map (setLength s · b) := by
  obtain ⟨hformat, hmin, hmax, hexact⟩ := @string_fields kind checks s
  cases b with
  | minLength | maxLength | exactLength =>
    simp only [readString, Bound.field, fieldOr_insertKey, ne_eq, String.reduceEq,
      not_false_eq_true, if_true, if_false, hformat, hmin, hmax, hexact]
    cases orNull readLength v <;> rfl
  | _ => simp [Bound.field, fieldNames] at hb

theorem readNumber_insertKey {b : Bound} (hb : b.field ∈ fieldNames .number) {n : NumberRule}
    (h : ∀ bound ∈ n.bounds, ∀ x ∈ bound, x.IsFinite) (v : Value) :
    readNumber (nodeEntries kind checks
        (Value.insertKey (.text b.field) v (scalarEntries (.number n)))) =
      (under (.key b.field) (orNull readBound v)).map (setNumber n · b) := by
  obtain ⟨hformat, hmin, hmax, hlower, hupper⟩ := @number_fields kind checks n h
  cases b with
  | minimum | maximum | exclusiveMinimum | exclusiveMaximum =>
    simp only [readNumber, Bound.field, fieldOr_insertKey, ne_eq, String.reduceEq,
      not_false_eq_true, if_true, if_false, hformat, hmin, hmax, hlower, hupper]
    cases orNull readBound v <;> rfl
  | _ => simp [Bound.field, fieldNames] at hb

theorem ne_of_mem_fieldNames {field : String} (h : field ∈ fieldNames kind) :
    field ≠ "refinements" ∧ field ≠ "kind" := by
  cases kind <;> simp only [fieldNames, List.mem_cons, List.not_mem_nil, or_false] at h
  all_goals rcases h with rfl | rfl | rfl | rfl | rfl <;> decide

theorem insertKey_nodeEntries {field : String} (h : field ∈ fieldNames kind) (v : Value) :
    Value.insertKey (.text field) v (nodeEntries kind checks fields) =
      nodeEntries kind checks (Value.insertKey (.text field) v fields) := by
  obtain ⟨hrefinements, hkind⟩ := ne_of_mem_fieldNames h
  simp [nodeEntries, entry, Value.insertKey, Value.sameKey, Ne.symm hrefinements, Ne.symm hkind]

theorem eq_of_checkScalar {s t : Scalar} (h : checkScalar s = .ok t) : s = t := by
  cases s with
  | string r =>
    obtain ⟨r', hr, rfl⟩ := map_eq_ok.mp h
    rw [eq_of_checkString hr]
  | _ => exact Except.ok.inj h

/-- Reading a node again keeps its refinements, and its other fields are left to its scalar. -/
theorem reread_eq_ok (held : Held fs checks) {s : Scalar} {field : String}
    (hfield : field ∈ fieldNames s.kind) {v : Value} {r : Rule} :
    reread fs checks s field v = .ok r ↔
      ∃ t, readScalar (nodeEntries s.kind checks
          (Value.insertKey (.text field) v (scalarEntries s))) s.kind = .ok t ∧
        checkScalar t = .ok t ∧ .scalar checks t = r := by
  have hnames : ∀ e ∈ Value.insertKey (.text field) v (scalarEntries s),
      ∃ name ∈ fieldNames s.kind, e.1 = .text name := by
    intro e he
    rcases Value.key_of_mem_insertKey he with hkey | hkey
    · exact ⟨field, hfield, hkey⟩
    · obtain ⟨e', he', hkey⟩ := List.mem_map.mp hkey
      rw [← hkey]
      exact mem_scalarEntries e' he'
  rw [reread, insertKey_nodeEntries hfield, readNode_scalar, bind_eq_ok]
  constructor
  · rintro ⟨⟨cs, t⟩, hfinish, hcheck⟩
    obtain ⟨cs, t, hcs, ht, hpair⟩ := both_eq_ok.mp (finish_eq_ok.mp hfinish).1
    cases hpair
    rw [readChecks_nodeEntries held] at hcs
    cases hcs
    obtain ⟨u, hu, rfl⟩ := map_eq_ok.mp hcheck
    cases eq_of_checkScalar hu
    exact ⟨t, ht, hu, rfl⟩
  · rintro ⟨t, ht, hcheck, rfl⟩
    exact ⟨(checks, t), finish_both held ht hnames, map_eq_ok.mpr ⟨t, hcheck, rfl⟩⟩

theorem checkString_eq_ok {s : StringRule} :
    checkString s = .ok s ↔ (s.isTemporal = true → s.hasLengthBounds = false) := by
  obtain ⟨format, low, high, exact⟩ := s
  cases format with
  | none => simp [checkString, StringRule.isTemporal]
  | some f =>
    cases ht : f.isTemporal <;>
      simp [checkString, StringRule.isTemporal, ht, fail, StringRule.hasLengthBounds]

/-- A length bound on a string node is set when it can be read, unless the format has no
lengths. -/
theorem setBound_string (held : Held fs checks) {s : StringRule} (hs : checkString s = .ok s)
    {b : Bound} (hb : b.field ∈ fieldNames .string) {v : Value} {r : Rule} :
    setBound fs (scalar checks (.string s)) b v = .ok r ↔
      ∃ l, orNull readLength v = .ok l ∧ (s.isTemporal = true → l = none) ∧
        scalar checks (.string (setLength s l b)) = r := by
  have hcheck (l : Option Nat) : checkString (setLength s l b) = .ok (setLength s l b) ↔
      (s.isTemporal = true → l = none) := by
    have hbare := checkString_eq_ok.mp hs
    rw [checkString_eq_ok]
    cases b with
    | minLength | maxLength | exactLength =>
      simp_all [setLength, StringRule.isTemporal, StringRule.hasLengthBounds]
    | _ => simp [Bound.field, fieldNames] at hb
  rw [setBound, titled_eq_ok, reread_eq_ok held hb]
  constructor
  · rintro ⟨t, ht, hok, rfl⟩
    obtain ⟨s', hs', rfl⟩ := map_eq_ok.mp ht
    rw [readString_insertKey hb, map_eq_ok] at hs'
    obtain ⟨l, hl, rfl⟩ := hs'
    obtain ⟨u, hu, -⟩ := map_eq_ok.mp hok
    cases eq_of_checkString hu
    exact ⟨l, under_eq_ok.mp hl, (hcheck l).mp hu, rfl⟩
  · rintro ⟨l, hl, htemporal, rfl⟩
    refine ⟨.string (setLength s l b), map_eq_ok.mpr ⟨_, ?_, rfl⟩, map_eq_ok.mpr ⟨_, ?_, rfl⟩, rfl⟩
    · rw [readString_insertKey hb, map_eq_ok]
      exact ⟨l, under_eq_ok.mpr hl, rfl⟩
    · exact (hcheck l).mpr htemporal

theorem setBound_number (held : Held fs checks) {n : NumberRule}
    (hn : ∀ bound ∈ n.bounds, ∀ x ∈ bound, x.IsFinite) {b : Bound}
    (hb : b.field ∈ fieldNames .number) {v : Value} {r : Rule} :
    setBound fs (scalar checks (.number n)) b v = .ok r ↔
      ∃ x, orNull readBound v = .ok x ∧ scalar checks (.number (setNumber n x b)) = r := by
  rw [setBound, titled_eq_ok, reread_eq_ok held hb]
  constructor
  · rintro ⟨t, ht, -, rfl⟩
    obtain ⟨n', hn', rfl⟩ := map_eq_ok.mp ht
    rw [readNumber_insertKey hb hn, map_eq_ok] at hn'
    obtain ⟨x, hx, rfl⟩ := hn'
    exact ⟨x, under_eq_ok.mp hx, rfl⟩
  · rintro ⟨x, hx, rfl⟩
    refine ⟨.number (setNumber n x b), map_eq_ok.mpr ⟨_, ?_, rfl⟩, rfl, rfl⟩
    rw [readNumber_insertKey hb hn, map_eq_ok]
    exact ⟨x, under_eq_ok.mpr hx, rfl⟩

end Rule

end Tablewright
