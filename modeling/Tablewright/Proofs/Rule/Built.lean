import Tablewright.Proofs.Rule.Reload
import Tablewright.Proofs.Rule.Run
import Tablewright.Rule.Builder

namespace Tablewright

namespace Rule

open Read

variable {fs : Functions}

theorem titled_eq_ok {title : String} {r : Read α} {a : α} :
    titled title r = .ok a ↔ r = .ok a := by
  cases r <;> simp [titled]

theorem sound_of_mem_plain {p : String × Rule} (h : p ∈ plain) : p.2.Sound fs := by
  have hscalar : ∀ q ∈ plain, ∃ s, q.2 = .scalar [] s ∧ SoundScalar s := by
    simp [plain, string, number, SoundScalar, StringRule.plain, NumberRule.plain, checkString,
      NumberRule.bounds, StringRule.hasLengthBounds]
  obtain ⟨s, hs, hsound⟩ := hscalar p h
  rw [hs]
  exact .scalar held_nil hsound

theorem sound_of_node {title field : String} {kind : Kind} {v : Value} {r : Rule}
    (h : node fs title kind field v = .ok r) : r.Sound fs :=
  sound_of_readNode (fun v _ _ hr => sound_of_read v hr) (titled_eq_ok.mp h)

theorem sound_of_ofItems {title field : String} {kind : Kind} {v : Value} {r : Rule}
    (h : ofItems fs title kind field v = .ok r) : r.Sound fs := by
  unfold ofItems at h
  split at h
  · exact sound_of_node h
  · cases h

theorem sound_of_start {name : String} {arguments : List Value} {r : Rule}
    (h : start fs name arguments = .ok r) : r.Sound fs := by
  unfold start at h
  split at h
  · rename_i q hq
    split at h
    · cases h
      obtain ⟨before, after, hplain, -⟩ := List.lookup_eq_some_iff.mp hq
      exact sound_of_mem_plain (p := (name, r)) (by simp [hplain])
    · cases h
  · split at h
    · exact sound_of_ofItems h
    · exact sound_of_node h
    · exact sound_of_ofItems h
    · exact sound_of_node h
    · exact sound_of_node h
    all_goals cases h

theorem sound_of_setBound {q r : Rule} {bound : Bound} {v : Value}
    (h : setBound fs q bound v = .ok r) : r.Sound fs := by
  unfold setBound at h
  split at h
  · exact sound_of_readNode (fun v _ _ hr => sound_of_read v hr) (titled_eq_ok.mp h)
  · exact sound_of_readNode (fun v _ _ hr => sound_of_read v hr) (titled_eq_ok.mp h)
  · cases h

theorem sound_of_refineWith {q r : Rule} {condition message : Value} (hq : q.Sound fs)
    (h : refineWith fs q condition message = .ok r) : r.Sound fs := by
  obtain ⟨refinement, hread, rfl⟩ := map_eq_ok.mp (titled_eq_ok.mp h)
  obtain ⟨f, _, hf, -, rfl⟩ := both_eq_ok.mp hread
  refine hq.withChecks fun c hc => ?_
  rcases List.mem_append.mp hc with hc | hc
  · exact hq.checks c hc
  · cases List.mem_singleton.mp hc
    exact holds_of_readCallable (under_eq_ok.mp hf)

theorem sound_withDefault {r : Rule} (h : r.Sound fs) (v : Value) :
    (withDefault fs r v).Sound fs := by
  unfold withDefault
  split
  · refine .layer held_nil (fun _ f hf => ?_) h
    cases hf
    exact fs.holds_callable _
  · exact .layer held_nil (by simp) h

theorem sound_of_extend {q r : Rule} {name : String} {arguments : List Value} (hq : q.Sound fs)
    (h : q.extend fs name arguments = .ok r) : r.Sound fs := by
  unfold extend at h
  split at h
  · cases h
    exact .layer held_nil (by simp) hq
  · cases h
    exact .layer held_nil (by simp) hq
  · cases h
    exact .array held_nil hq
  · cases h
    exact sound_withDefault hq _
  · exact sound_of_refineWith hq h
  · exact sound_of_refineWith hq h
  · cases h
  · cases h
  · cases h
  · cases h
  · cases h
  · split at h
    · exact sound_of_setBound h
    · exact sound_of_setBound h
    · cases h
    · cases h

/-- A rule that calls make: from a document, by a first call or by a further one, or around rules
that were made before. -/
inductive Built (fs : Functions) : Rule → Prop
  | read {v : Value} {r : Rule} (h : read fs v = .ok r) : Built fs r
  | start {name : String} {arguments : List Value} {r : Rule}
      (h : start fs name arguments = .ok r) : Built fs r
  | extend {q r : Rule} {name : String} {arguments : List Value} (built : Built fs q)
      (h : q.extend fs name arguments = .ok r) : Built fs r
  | union {options : List Rule} (some : options ≠ []) (each : ∀ r ∈ options, Built fs r) :
      Built fs (.union [] options)
  | array {r : Rule} (items : Built fs r) : Built fs (.array [] r)
  | object {parts : List (String × Rule)} (each : ∀ p ∈ parts, Built fs p.2) :
      Built fs (.object [] (shapeOf parts))

theorem Built.sound {r : Rule} (h : Built fs r) : r.Sound fs := by
  induction h with
  | read h => exact sound_of_read _ h
  | start h => exact sound_of_start h
  | extend _ h ih => exact sound_of_extend ih h
  | union some _ ih => exact .union held_nil some ih
  | array _ ih => exact .array held_nil ih
  | @object parts _ ih =>
    refine .object held_nil (nodup_shapeOf parts) fun p hp => ?_
    obtain ⟨q, hq, hqp⟩ := exists_of_mem_shapeOf hp
    rw [← hqp]
    exact ih q hq

/-- The document of a rule lists its refinements, its kind and every field of that kind. -/
theorem exists_toValue_eq (r : Rule) :
    ∃ fields, r.toValue = nodeValue r.kind r.checks fields ∧
      fields.map (·.1) = (fieldNames r.kind).map .text := by
  cases r with
  | layer checks l inner =>
    cases l <;> exact ⟨_, by rw [toValue]; rfl, rfl⟩
  | scalar checks s =>
    cases s <;> exact ⟨_, by rw [toValue]; rfl, rfl⟩
  | union checks options => exact ⟨_, by rw [toValue]; rfl, rfl⟩
  | array checks items => exact ⟨_, by rw [toValue]; rfl, rfl⟩
  | object checks shape => exact ⟨_, by rw [toValue]; rfl, rfl⟩

/-- The document of a rule names all its fields, and a rule that was read, or that calls made, is
read from its document as it is. -/
theorem survives_reload :
    (∀ r : Rule, ∃ fields, r.toValue = nodeValue r.kind r.checks fields ∧
      fields.map (·.1) = (fieldNames r.kind).map .text) ∧
    ∀ fs : Functions, (∀ v r, read fs v = .ok r → read fs r.toValue = .ok r) ∧
      ∀ r, Built fs r → read fs r.toValue = .ok r :=
  ⟨exists_toValue_eq, fun _ => ⟨fun v _ h => read_toValue (sound_of_read v h),
    fun _ h => read_toValue h.sound⟩⟩

/-- Literals in a tuple that are all equal to zero or null, and a rule that two calls make. -/
theorem survives_reload_literals :
    ∃ v r s, read .evens v = .ok r ∧
      r = .array [] (.scalar [] (.literal [.bool false, .int 0, .float (.finite false 0), .null])) ∧
      read .evens r.toValue = .ok r ∧ Built .evens s ∧
      s = .scalar [⟨Callable.even 0, "Invalid value"⟩] (.number (.plain .int32)) ∧
      read .evens s.toValue = .ok s := by
  have hcheck : checkLiterals [.bool false, .int 0, .float (.finite false 0), .null] =
      .ok [.bool false, .int 0, .float (.finite false 0), .null] := rfl
  have hread : read .evens (.dict [entry "kind" (.text "array"), entry "items" (.dict
      [entry "kind" (.text "literal"), entry "values"
        (.tuple [.bool false, .int 0, .float (.finite false 0), .null])])]) =
      .ok (.array [] (.scalar []
        (.literal [.bool false, .int 0, .float (.finite false 0), .null]))) := by
    simp [entry, read, readKind, Value.field?, Value.isText, Kind.ofText?, Kind.all, Kind.text,
      readNode, readField, Entries.below?, finish, Entries.unknown, andIssues, fieldNames,
      readChecks, fieldOr, both, under, readScalar, tuple, Coercion.toItems, items, readLiteral,
      strictNumber?, checkScalar, Except.map, Except.bind, hcheck]
  have hbuilt : Built .evens
      (.scalar [⟨Callable.even 0, "Invalid value"⟩] (.number (.plain .int32))) :=
    .extend (.start (by rfl : start .evens "int32" [] = .ok (number .int32)))
      (by rfl : (number .int32).extend .evens "refine" [.function 0] = .ok _)
  exact ⟨_, _, _, hread, rfl, (survives_reload.2 .evens).1 _ _ hread, hbuilt, rfl,
    (survives_reload.2 .evens).2 _ hbuilt⟩

end Rule

end Tablewright
