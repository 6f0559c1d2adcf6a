import Mathlib.Data.List.Basic
import Tablewright.Rule.Reading

namespace Tablewright

namespace Read

theorem map_eq_ok {r : Read α} {f : α → β} {b : β} :
    r.map f = .ok b ↔ ∃ a, r = .ok a ∧ f a = b := by
  cases r <;> simp [Except.map]

theorem bind_eq_ok {r : Read α} {f : α → Read β} {b : β} :
    r.bind f = .ok b ↔ ∃ a, r = .ok a ∧ f a = .ok b := by
  cases r <;> simp [Except.bind]

theorem andIssues_eq_ok {r : Read α} {issues : Issues} {a : α} :
    r.andIssues issues = .ok a ↔ r = .ok a ∧ issues = [] := by
  cases r <;> cases issues <;> simp [andIssues]

theorem orNull_eq_ok {read : Value → Read α} {v : Value} {o : Option α}
    (h : orNull read v = .ok o) : ∀ a ∈ o, read v = .ok a := by
  intro a ha
  unfold orNull at h
  split at h
  · cases h
    simp at ha
  · obtain ⟨b, hb, rfl⟩ := map_eq_ok.mp h
    cases ha
    exact hb

end Read

/-- A function that is the one in its slot. -/
def Functions.Holds (fs : Functions) (c : Callable) : Prop := fs.callable c.slot = c

theorem Functions.holds_callable (fs : Functions) (slot : Nat) : fs.Holds (fs.callable slot) := rfl

def Number.IsFinite : Number → Prop
  | .int _ => True
  | .float x => x.isFinite = true

def NumberRule.bounds (r : NumberRule) : List (Option Number) :=
  [r.minimum, r.maximum, r.exclusiveMinimum, r.exclusiveMaximum]

namespace Rule

def SoundScalar : Scalar → Prop
  | .string r => checkString r = .ok r
  | .number r => ∀ bound ∈ r.bounds, ∀ n ∈ bound, n.IsFinite
  | .enum values => checkEnum values = .ok values
  | .literal values => checkLiterals values = .ok values
  | _ => True

/-- Every refinement asks a function that is the one in its slot. -/
def Held (fs : Functions) (checks : List Refinement) : Prop :=
  ∀ c ∈ checks, fs.Holds c.condition

/-- A rule all of whose nodes are well formed, and whose functions are found in their slots. -/
inductive Sound (fs : Functions) : Rule → Prop
  | layer {checks : List Refinement} (held : Held fs checks) {l : Layer}
      (supplied : ∀ v f, l = .default v (some f) → fs.Holds f) {r : Rule} (inner : Sound fs r) :
      Sound fs (.layer checks l r)
  | scalar {checks : List Refinement} (held : Held fs checks) {s : Scalar}
      (fields : SoundScalar s) : Sound fs (.scalar checks s)
  | union {checks : List Refinement} (held : Held fs checks) {options : List Rule}
      (some : options ≠ []) (each : ∀ r ∈ options, Sound fs r) : Sound fs (.union checks options)
  | array {checks : List Refinement} (held : Held fs checks) {r : Rule} (items : Sound fs r) :
      Sound fs (.array checks r)
  | object {checks : List Refinement} (held : Held fs checks) {shape : List (String × Rule)}
      (apart : (shape.map (·.1)).Nodup) (each : ∀ p ∈ shape, Sound fs p.2) :
      Sound fs (.object checks shape)

theorem held_nil {fs : Functions} : Held fs [] := List.forall_mem_nil _

variable {fs : Functions}

theorem Sound.checks {r : Rule} (h : r.Sound fs) : Held fs r.checks := by
  cases h <;> assumption

theorem Sound.withChecks {r : Rule} (h : r.Sound fs) {checks : List Refinement}
    (held : Held fs checks) : (r.withChecks checks).Sound fs := by
  cases h with
  | layer _ supplied inner => exact .layer held supplied inner
  | scalar _ fields => exact .scalar held fields
  | union _ some each => exact .union held some each
  | array _ items => exact .array held items
  | object _ apart each => exact .object held apart each

theorem setPart_of_notMem {name : String} (r : Rule) {shape : List (String × Rule)}
    (h : name ∉ shape.map (·.1)) : setPart name r shape = shape ++ [(name, r)] := by
  induction shape with
  | nil => rfl
  | cons p rest ih =>
    simp only [List.map_cons, List.mem_cons, not_or] at h
    simp [setPart, Ne.symm h.1, ih h.2]

theorem mem_setPart {name : String} {r : Rule} {shape : List (String × Rule)} {p : String × Rule}
    (h : p ∈ setPart name r shape) : p.2 = r ∨ p ∈ shape := by
  induction shape with
  | nil => simp_all [setPart]
  | cons q rest ih =>
    rw [setPart] at h
    split at h
    · rcases List.mem_cons.mp h with rfl | h
      · exact .inl rfl
      · exact .inr (by simp [h])
    · rcases List.mem_cons.mp h with rfl | h
      · exact .inr (by simp)
      · exact (ih h).imp_right (by simp +contextual)

theorem mem_map_fst_setPart {name n : String} {r : Rule} {shape : List (String × Rule)} :
    n ∈ (setPart name r shape).map (·.1) ↔ n = name ∨ n ∈ shape.map (·.1) := by
  induction shape with
  | nil => simp [setPart]
  | cons q rest ih =>
    rw [setPart]
    split
    · simp_all
    · simp only [List.map_cons, List.mem_cons, ih]
      tauto

theorem nodup_setPart {name : String} {r : Rule} {shape : List (String × Rule)}
    (h : (shape.map (·.1)).Nodup) : ((setPart name r shape).map (·.1)).Nodup := by
  induction shape with
  | nil => simp [setPart]
  | cons q rest ih =>
    rw [List.map_cons, List.nodup_cons] at h
    rw [setPart]
    split
    · simpa using h
    · rename_i hne
      rw [List.map_cons, List.nodup_cons, mem_map_fst_setPart]
      exact ⟨by tauto, ih h.2⟩

theorem nodup_setParts {shape : List (String × Rule)} (h : (shape.map (·.1)).Nodup)
    (parts : List (String × Rule)) :
    ((parts.foldl (fun shape p => setPart p.1 p.2 shape) shape).map (·.1)).Nodup := by
  induction parts generalizing shape with
  | nil => exact h
  | cons p rest ih => exact ih (nodup_setPart h)

theorem mem_setParts {shape parts : List (String × Rule)} {p : String × Rule}
    (h : p ∈ parts.foldl (fun shape p => setPart p.1 p.2 shape) shape) :
    p ∈ shape ∨ ∃ q ∈ parts, q.2 = p.2 := by
  induction parts generalizing shape with
  | nil => exact .inl h
  | cons q rest ih =>
    rcases ih h with hp | ⟨q', hq, hr⟩
    · rcases mem_setPart hp with hp | hp
      · exact .inr ⟨q, by simp, hp.symm⟩
      · exact .inl hp
    · exact .inr ⟨q', by simp [hq], hr⟩

theorem setParts_of_nodup {shape parts : List (String × Rule)}
    (h : ((shape ++ parts).map (·.1)).Nodup) :
    parts.foldl (fun shape p => setPart p.1 p.2 shape) shape = shape ++ parts := by
  induction parts generalizing shape with
  | nil => simp
  | cons p rest ih =>
    have hp : p.1 ∉ shape.map (·.1) := by
      rw [List.map_append, List.nodup_append] at h
      intro hm
      exact h.2.2 _ hm p.1 (by simp) rfl
    rw [List.foldl_cons, setPart_of_notMem p.2 hp, ih (by simpa using h), List.append_assoc]
    rfl

theorem nodup_shapeOf (parts : List (String × Rule)) : ((shapeOf parts).map (·.1)).Nodup :=
  @nodup_setParts [] List.nodup_nil parts

theorem exists_of_mem_shapeOf {parts : List (String × Rule)} {p : String × Rule}
    (h : p ∈ shapeOf parts) : ∃ q ∈ parts, q.2 = p.2 :=
  (mem_setParts h).resolve_left List.not_mem_nil

theorem shapeOf_of_nodup {parts : List (String × Rule)} (h : (parts.map (·.1)).Nodup) :
    shapeOf parts = parts :=
  @setParts_of_nodup [] parts h

end Rule

end Tablewright
