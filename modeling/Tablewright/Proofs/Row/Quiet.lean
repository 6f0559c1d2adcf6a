import Tablewright.Proofs.Row.Every

namespace Tablewright

/-- A fault with which a condition finds a value wrong. Every other one ends the run. -/
def Fault.isComplaint : Fault → Bool
  | .value _ | .assertion _ | .invalid _ => true
  | .key _ | .mistyped | .other .. => false

def Refinement.Raises (c : Refinement) (w : Value) (f : Fault) : Prop :=
  f.isComplaint = false ∧ c.condition.test w = .error f

def Callable.Raises (g : Callable) (f : Fault) : Prop := ∃ n, g.source n = .error f

/-- A value that comes to a refinement of a rule: the rule makes it of some value when it only has
the refinements before that one. -/
def Row.Meets (q : Rule) (c : Refinement) (w : Value) : Prop :=
  ∃ base, Asks q base c ∧ ∃ v fit, (judge base v).MayGive (.ok (w, fit))

/-- What the functions of a rule can end a run with, and the slots of those that do. A condition
counts for what it does with the values that come to it. -/
def Rule.Raises (r : Rule) (slot : Nat) (f : Fault) : Prop :=
  (∃ q ∈ r.everyNode, ∃ c w, Row.Meets q c w ∧ c.condition.slot = slot ∧ c.Raises w f) ∨
    ∃ g ∈ r.everyFactory, g.slot = slot ∧ g.Raises f

/-- A rule whose functions end no run on the values that come to them. -/
def Rule.Calm (r : Rule) : Prop := ∀ slot f, ¬ r.Raises slot f

/-- A refinement whose condition fails in no other way than by finding fault with a value. -/
def Refinement.Mild (c : Refinement) : Prop :=
  ∀ v f, c.condition.test v = .error f → f.isComplaint = true

/-- A rule whose conditions and default functions end no run. -/
def Rule.Quiet (r : Rule) : Prop :=
  (∀ c ∈ r.everyCheck, c.Mild) ∧ ∀ f ∈ r.everyFactory, f.Supplies

theorem Refinement.Mild.not_raises {c : Refinement} (h : c.Mild) (w : Value) (f : Fault) :
    ¬ c.Raises w f := by
  rintro ⟨hf, hw⟩
  rw [h w f hw] at hf
  cases hf

theorem Callable.Supplies.not_raises {g : Callable} (h : g.Supplies) (f : Fault) :
    ¬ g.Raises f := by
  rintro ⟨n, hn⟩
  obtain ⟨v, hv⟩ := h n
  rw [hn] at hv
  cases hv

theorem Rule.Quiet.calm {r : Rule} (h : r.Quiet) : r.Calm := by
  rintro slot f (⟨q, hq, c, w, ⟨base, hasks, -⟩, -, hf⟩ | ⟨g, hg, -, hf⟩)
  · exact (h.1 c (hasks.mem_everyCheck hq)).not_raises w f hf
  · exact (h.2 g hg).not_raises f hf

namespace Run

/-- A computation that only ends early when the last function it calls raises a fault. -/
def EndedBy (P : Nat → Fault → Prop) (r : Run α) : Prop :=
  ∀ calls f later, r calls = (.error f, later) →
    ∃ slot before, later = slot :: before ∧ P slot f

theorem EndedBy.bind {P : Nat → Fault → Prop} {r : Run α} {next : α → Run β} (hr : r.EndedBy P)
    (hn : ∀ a, r.MayGive a → (next a).EndedBy P) : (r >>= next).EndedBy P := by
  intro calls f later h
  rw [bind_apply] at h
  cases hc : r calls with
  | mk result mid =>
    rw [hc] at h
    cases result with
    | ok a => exact hn a ⟨calls, mid, hc⟩ mid f later h
    | error g =>
      cases h
      exact hr calls f later hc

theorem endedBy_pure (P : Nat → Fault → Prop) (a : α) : (Pure.pure a : Run α).EndedBy P := by
  rintro calls f later ⟨⟩

theorem closed_endedBy (P : Nat → Fault → Prop) : Closed (EndedBy P) :=
  ⟨endedBy_pure P, EndedBy.bind⟩

theorem EndedBy.mono {P Q : Nat → Fault → Prop} {r : Run α} (h : r.EndedBy P)
    (hpq : ∀ slot f, P slot f → Q slot f) : r.EndedBy Q := by
  intro calls f later hr
  obtain ⟨slot, before, hlater, hp⟩ := h calls f later hr
  exact ⟨slot, before, hlater, hpq slot f hp⟩

theorem EndedBy.returns {P : Nat → Fault → Prop} {r : Run α} (h : r.EndedBy P)
    (hp : ∀ slot f, ¬ P slot f) : r.Returns := by
  intro calls
  cases hr : r calls with
  | mk result later =>
    cases result with
    | ok a => exact ⟨a, later, rfl⟩
    | error f =>
      obtain ⟨slot, before, -, hf⟩ := h calls f later hr
      exact absurd hf (hp slot f)

end Run

theorem Callable.endedBy_supply (g : Callable) :
    g.supply.EndedBy fun slot f => g.slot = slot ∧ g.Raises f := by
  intro calls f later h
  rw [supply, Prod.mk.injEq] at h
  exact ⟨g.slot, calls, h.2.symm, rfl, _, h.1⟩

namespace Row

open Run (Returns EndedBy closed_endedBy)

theorem endedBy_judgeCheck (c : Refinement) (v : Value) (fit : Fit) :
    (judgeCheck c v fit).EndedBy fun slot f => c.condition.slot = slot ∧ c.Raises v f := by
  intro calls f later h
  have hask : c.condition.ask v calls =
      (c.condition.test v, c.condition.slot :: calls) := rfl
  rw [judgeCheck, hask] at h
  cases ha : c.condition.test v with
  | ok accepted => cases accepted <;> rw [ha] at h <;> cases h
  | error g =>
    rw [ha] at h
    cases g <;> cases h <;> exact ⟨_, calls, rfl, rfl, rfl, ha⟩

section

variable {r : Rule}

theorem mayGive_of_refinedBy {s : Schema} {checks : List Refinement} {v : Value} {b : Value × Fit}
    (h : (judge (s.refinedBy checks) v).MayGive (.ok b)) : (judge s v).MayGive (.ok b) := by
  induction checks generalizing s with
  | nil => exact h
  | cons c cs ih =>
    obtain ⟨calls, later, hc⟩ := ih (s := .refined s c) h
    rw [judge_refined] at hc
    obtain ⟨inner, mid, hinner, hask⟩ := Run.bind_eq_ok.mp hc
    cases inner with
    | error es => cases hask
    | ok a =>
      obtain ⟨-, hb, -⟩ := judgeCheck_eq_ok.mp hask
      obtain rfl : b = a := hb
      exact ⟨calls, mid, hinner⟩

/-- The refinements of a leaf are asked only about what it makes of a value itself. -/
theorem calm_scalar {checks : List Refinement} {scalar : Scalar} {s : Schema}
    (hs : scalarSchema? scalar = some s)
    (hc : ∀ c ∈ checks, ∀ v w fit f, judgeLeaf s v = .ok (w, fit) → ¬ c.Raises w f) :
    (Rule.scalar checks scalar).Calm := by
  rintro slot f (⟨q, hq, c, w, ⟨base, hasks, v, fit, hgives⟩, -, hf⟩ | ⟨g, ⟨⟩, -⟩)
  cases List.mem_singleton.mp hq
  obtain ⟨name, before, after, hsplit, hbase⟩ := hasks
  rw [Rule.withChecks, schema?, hs] at hbase
  cases hbase
  obtain ⟨calls, later, hleaf⟩ := mayGive_of_refinedBy hgives
  rw [judge_leaf (isLeaf_scalarSchema? hs)] at hleaf
  injection hleaf with hleaf
  have hmem : c ∈ checks := by
    have hsplit' : checks = before ++ c :: after := hsplit
    simp [hsplit']
  exact hc c hmem v w fit f (Except.ok.inj hleaf) hf

theorem covers_endedBy (r : Rule) : Covers (EndedBy r.Raises)
    (fun base c => ∃ q ∈ r.everyNode, Asks q base c) (· ∈ r.everyFactory) where
  toClosed := closed_endedBy r.Raises
  ask := fun ⟨q, hq, hasks⟩ v w fit hgives => (endedBy_judgeCheck _ w fit).mono fun _ _ hf =>
    .inl ⟨q, hq, _, w, ⟨_, hasks, v, fit, hgives⟩, hf⟩
  call hg := (Callable.endedBy_supply _).mono fun _ _ hf => .inr ⟨_, hg, hf⟩

theorem endedBy_judge {name : String} {s : Schema} (hs : schema? name r = some s) (v : Value) :
    (judge s v).EndedBy r.Raises :=
  closed_judge (covers_endedBy r) s
    (every_schema? name r (fun q hq _ _ h => ⟨q, hq, h⟩) (fun _ hf => r.fieldFactories_subset hf)
      hs) v

end

end Row

end Tablewright
