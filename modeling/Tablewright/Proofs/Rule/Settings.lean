import Mathlib.Data.List.Induction
import Tablewright.Proofs.Rule.Setters
import Tablewright.Sql.Check

namespace Tablewright.Rule

open Read

structure Invocation where
  name : String
  arguments : List Value
  deriving Inhabited

section

variable (fs : Functions)

def accepts (r : Rule) (c : Invocation) : Bool := (r.extend fs c.name c.arguments).isOk

def keep (r : Rule) (c : Invocation) : Rule :=
  match r.extend fs c.name c.arguments with
  | .ok q => q
  | .error _ => r

def keepAll (r : Rule) (calls : List Invocation) : Rule := calls.foldl (keep fs) r

/-- The calls that are accepted, each by the rule that it finds. -/
def accepted (r : Rule) : List Invocation → List Invocation
  | [] => []
  | c :: calls => (if r.accepts fs c then [c] else []) ++ accepted (r.keep fs c) calls

/-- The refinement that a call asks for, if its arguments can be read as one. -/
def given? (c : Invocation) : Option Refinement :=
  let read (condition message : Value) :=
    (both Refinement.mk (under (.key "predicate") (readCallable fs condition))
      (under (.key "message") (Read.text message))).toOption
  match c.name, c.arguments with
  | "refine", [condition] => read condition (.text "Invalid value")
  | "refine", [condition, message] => read condition message
  | _, _ => none

end

/-- What settings leave as it is: the kind of a node and its format. -/
inductive Form
  | string (format : Option StringFormat)
  | number (format : NumberFormat)
  deriving DecidableEq, Repr

def form? : Rule → Option Form
  | .scalar _ (.string s) => some (.string s.format)
  | .scalar _ (.number n) => some (.number n.format)
  | _ => none

def bound? : Rule → Bound → Option Number
  | .scalar _ (.string s), .minLength => s.minLength.map fun n : Nat => .int n
  | .scalar _ (.string s), .maxLength => s.maxLength.map fun n : Nat => .int n
  | .scalar _ (.string s), .exactLength => s.exactLength.map fun n : Nat => .int n
  | .scalar _ (.number n), .minimum => n.minimum
  | .scalar _ (.number n), .maximum => n.maximum
  | .scalar _ (.number n), .exclusiveMinimum => n.exclusiveMinimum
  | .scalar _ (.number n), .exclusiveMaximum => n.exclusiveMaximum
  | _, _ => none

def passed? (c : Invocation) : Option Value :=
  match c.name, c.arguments with
  | "positive", [] | "nonnegative", [] => some (.int 0)
  | "positive", _ | "nonnegative", _ | "refine", _ => none
  | _, [v] => some v
  | _, _ => none

namespace Form

def rule : Form → Rule
  | .string format => Rule.string format
  | .number format => Rule.number format

def settings : Form → List String
  | .string _ => ["min", "max", "length", "refine"]
  | .number _ => ["min", "max", "gt", "lt", "positive", "nonnegative", "refine"]

def target? (f : Form) (c : Invocation) : Option Bound :=
  match f, c.name with
  | .string _, "min" => some .minLength
  | .string _, "max" => some .maxLength
  | .string _, "length" => some .exactLength
  | .number _, "min" | .number _, "nonnegative" => some .minimum
  | .number _, "max" => some .maximum
  | .number _, "gt" | .number _, "positive" => some .exclusiveMinimum
  | .number _, "lt" => some .exclusiveMaximum
  | _, _ => none

def coerce? : Form → Value → Option (Option Number)
  | .string format, v =>
    match orNull readLength v with
    | .ok none => some none
    | .ok (some n) => if format.any StringFormat.isTemporal then none else some (some (.int n))
    | .error _ => none
  | .number _, v => (orNull readBound v).toOption

def setting? (f : Form) (c : Invocation) : Option (Option Number) :=
  (passed? c).bind f.coerce?

/-- A call is accepted for what it passes; for a refinement that is a function and a text. -/
def admits (fs : Functions) (f : Form) (c : Invocation) : Bool :=
  (f.setting? c).isSome || (given? fs c).isSome

end Form

inductive Node (fs : Functions) : Form → Rule → Prop
  | string {checks : List Refinement} (held : Held fs checks) {s : StringRule}
      {format : Option StringFormat} (same : s.format = format)
      (fields : SoundScalar (.string s)) : Node fs (.string format) (.scalar checks (.string s))
  | number {checks : List Refinement} (held : Held fs checks) {n : NumberRule}
      {format : NumberFormat} (same : n.format = format) (fields : SoundScalar (.number n)) :
      Node fs (.number format) (.scalar checks (.number n))

variable {fs : Functions} {f : Form} {p q r : Rule} {c : Invocation}

theorem coerce?_string {format : Option StringFormat} {v : Value} {x : Option Number} :
    (Form.string format).coerce? v = some x ↔
      ∃ l, orNull readLength v = .ok l ∧ (format.any StringFormat.isTemporal = true → l = none) ∧
        l.map (fun n : Nat => Number.int n) = x := by
  rw [Form.coerce?]
  cases orNull readLength v with
  | error es => simp
  | ok l => cases l <;> cases format.any StringFormat.isTemporal <;> simp

theorem coerce?_number {format : NumberFormat} {v : Value} {x : Option Number} :
    (Form.number format).coerce? v = some x ↔ orNull readBound v = .ok x := by
  rw [Form.coerce?]
  cases orNull readBound v <;> simp [Except.toOption]

theorem bound?_setLength {checks : List Refinement} {s : StringRule} {b : Bound}
    (hb : b.field ∈ fieldNames .string) (l : Option Nat) (b' : Bound) :
    (scalar checks (.string (setLength s l b))).bound? b' =
      if b = b' then l.map fun n : Nat => .int n else (scalar checks (.string s)).bound? b' := by
  cases b with
  | minLength | maxLength | exactLength => cases b' <;> rfl
  | _ => simp [Bound.field, fieldNames] at hb

theorem bound?_setNumber {checks : List Refinement} {n : NumberRule} {b : Bound}
    (hb : b.field ∈ fieldNames .number) (x : Option Number) (b' : Bound) :
    (scalar checks (.number (setNumber n x b))).bound? b' =
      if b = b' then x else (scalar checks (.number n)).bound? b' := by
  cases b with
  | minimum | maximum | exclusiveMinimum | exclusiveMaximum => cases b' <;> rfl
  | _ => simp [Bound.field, fieldNames] at hb

theorem soundScalar_of_sound {checks : List Refinement} {s : Scalar}
    (h : (scalar checks s).Sound fs) : SoundScalar s := by
  cases h
  assumption

namespace Node

theorem form?_eq (h : Node fs f r) : r.form? = some f := by
  cases h with
  | string _ same _ | number _ same _ => rw [← same, form?]

theorem refine (h : Node fs f r) {refinement : Refinement} (hold : fs.Holds refinement.condition) :
    Node fs f (r.refine refinement) := by
  have hheld {checks : List Refinement} (held : Held fs checks) :
      Held fs (checks ++ [refinement]) := by
    simpa [Held, or_imp, forall_and] using ⟨held, hold⟩
  cases h with
  | string held same fields => exact .string (hheld held) same fields
  | number held same fields => exact .number (hheld held) same fields

/-- Nodes of one form are the same when they agree on the bounds and the refinements. -/
theorem ext (hp : Node fs f p) (hq : Node fs f q) (hbounds : ∀ b, p.bound? b = q.bound? b)
    (hchecks : p.checks = q.checks) : p = q := by
  cases hp with
  | @string cs _ s _ hs _ =>
    cases hq with
    | @string ds _ t _ ht _ =>
      have hinj : Function.Injective fun n : Nat => Number.int n :=
        fun m n h => Int.ofNat.inj (Number.int.inj h)
      have hmin := Option.map_injective hinj (hbounds .minLength)
      have hmax := Option.map_injective hinj (hbounds .maxLength)
      have hexact := Option.map_injective hinj (hbounds .exactLength)
      obtain ⟨⟩ := s
      obtain ⟨⟩ := t
      simp_all [Rule.checks]
  | @number cs _ n _ hn _ =>
    cases hq with
    | @number ds _ m _ hm _ =>
      have hmin := hbounds .minimum
      have hmax := hbounds .maximum
      have hlower := hbounds .exclusiveMinimum
      have hupper := hbounds .exclusiveMaximum
      obtain ⟨⟩ := n
      obtain ⟨⟩ := m
      simp_all [Rule.checks, bound?]

theorem setter?_eq (h : Node fs f r) (name : String) : r.setter? name = f.rule.setter? name := by
  cases h <;> rfl

theorem shorthand?_eq (h : Node fs f r) (name : String) :
    r.shorthand? name = f.rule.shorthand? name := by
  cases h <;> rfl

theorem setBound_eq_ok (h : Node fs f r) {b : Bound} (hb : b.field ∈ fieldNames f.rule.kind)
    {v : Value} {x : Option Number} (hx : f.coerce? v = some x) :
    ∃ q, setBound fs r b v = .ok q ∧ Node fs f q ∧ q.checks = r.checks ∧
      ∀ b', q.bound? b' = if b = b' then x else r.bound? b' := by
  cases h with
  | @string checks held s format same fields =>
    obtain ⟨l, hl, htemporal, rfl⟩ := coerce?_string.mp hx
    rw [← same] at htemporal
    have hq := (@setBound_string fs checks held s fields b hb v _).mpr ⟨l, hl, htemporal, rfl⟩
    have hformat : (setLength s l b).format = s.format := by cases b <;> rfl
    exact ⟨_, hq, .string held (hformat.trans same) (soundScalar_of_sound (sound_of_setBound hq)),
      rfl, bound?_setLength hb l⟩
  | @number checks held n format same fields =>
    have hq := (@setBound_number fs checks held n fields b hb v _).mpr
      ⟨x, coerce?_number.mp hx, rfl⟩
    have hformat : (setNumber n x b).format = n.format := by cases b <;> rfl
    exact ⟨_, hq, .number held (hformat.trans same) (soundScalar_of_sound (sound_of_setBound hq)),
      rfl, bound?_setNumber hb x⟩

theorem coerce?_isSome (h : Node fs f r) {b : Bound} (hb : b.field ∈ fieldNames f.rule.kind)
    {v : Value} (hq : setBound fs r b v = .ok q) : ∃ x, f.coerce? v = some x := by
  cases h with
  | @string checks held s format same fields =>
    obtain ⟨l, hl, htemporal, -⟩ := (setBound_string held fields hb).mp hq
    rw [StringRule.isTemporal, same] at htemporal
    exact ⟨_, coerce?_string.mpr ⟨l, hl, htemporal, rfl⟩⟩
  | @number checks held n format same fields =>
    obtain ⟨x, hx, -⟩ := (setBound_number held fields hb).mp hq
    exact ⟨x, coerce?_number.mpr hx⟩

end Node

/-- A call of a name that wraps nothing sets the bound that the name means on the node. -/
theorem extend_eq_ok (h : c.name ∉ ["optional", "nullable", "array", "default", "refine"]) :
    r.extend fs c.name c.arguments = .ok q ↔
      ∃ b v, ((r.setter? c.name = some b ∧ c.arguments = [v]) ∨
          (r.setter? c.name = none ∧ r.shorthand? c.name = some b ∧ c.arguments = [] ∧
            v = .int 0)) ∧
        setBound fs r b v = .ok q := by
  obtain ⟨name, arguments⟩ := c
  unfold extend
  split
  case h_12 =>
    cases r.setter? name <;> cases r.shorthand? name <;>
      rcases arguments with _ | ⟨v, _ | ⟨w, rest⟩⟩ <;> simp
  all_goals simp_all

theorem extend_setting (hnode : Node fs f r) (hname : c.name ∈ f.settings)
    (hrefine : c.name ≠ "refine") :
    r.extend fs c.name c.arguments = .ok q ↔
      ∃ b v, f.target? c = some b ∧ passed? c = some v ∧ setBound fs r b v = .ok q := by
  obtain ⟨name, arguments⟩ := c
  cases f with
  | string format =>
    simp only [Form.settings, List.mem_cons, List.not_mem_nil, or_false] at hname
    rcases hname with rfl | rfl | rfl | rfl
    case inr.inr.inr => exact absurd rfl hrefine
    all_goals
      rw [extend_eq_ok (by simp), hnode.setter?_eq, hnode.shorthand?_eq]
      rcases arguments with _ | ⟨v, _ | ⟨w, rest⟩⟩ <;>
        simp [Form.rule, string, setter?, shorthand?, List.lookup_cons, Form.target?, passed?]
  | number format =>
    simp only [Form.settings, List.mem_cons, List.not_mem_nil, or_false] at hname
    rcases hname with rfl | rfl | rfl | rfl | rfl | rfl | rfl
    case inr.inr.inr.inr.inr.inr => exact absurd rfl hrefine
    all_goals
      rw [extend_eq_ok (by simp), hnode.setter?_eq, hnode.shorthand?_eq]
      rcases arguments with _ | ⟨v, _ | ⟨w, rest⟩⟩ <;>
        simp [Form.rule, number, setter?, shorthand?, List.lookup_cons, Form.target?, passed?]

theorem field_of_target? {b : Bound} (h : f.target? c = some b) :
    b.field ∈ fieldNames f.rule.kind := by
  unfold Form.target? at h
  split at h <;> cases h <;> simp [Bound.field, fieldNames, Form.rule, string, number, kind,
    Scalar.kind]

theorem target?_refine (h : c.name = "refine") : f.target? c = none := by
  obtain ⟨name, arguments⟩ := c
  subst h
  cases f <;> rfl

theorem passed?_refine (h : c.name = "refine") : passed? c = none := by
  obtain ⟨name, arguments⟩ := c
  subst h
  rfl

theorem exists_target? (hname : c.name ∈ f.settings) (hrefine : c.name ≠ "refine") :
    ∃ b, f.target? c = some b := by
  obtain ⟨name, arguments⟩ := c
  cases f with
  | string format =>
    simp only [Form.settings, List.mem_cons, List.not_mem_nil, or_false] at hname
    rcases hname with rfl | rfl | rfl | rfl
    any_goals exact ⟨_, rfl⟩
    exact absurd rfl hrefine
  | number format =>
    simp only [Form.settings, List.mem_cons, List.not_mem_nil, or_false] at hname
    rcases hname with rfl | rfl | rfl | rfl | rfl | rfl | rfl
    any_goals exact ⟨_, rfl⟩
    exact absurd rfl hrefine

/-- What a call of a setting does to a node of a form. -/
structure Settled (fs : Functions) (f : Form) (r : Rule) (c : Invocation) : Prop where
  accepts : r.accepts fs c = f.admits fs c
  node : Node fs f (r.keep fs c)
  bound : ∀ b, (r.keep fs c).bound? b =
    if r.accepts fs c = true ∧ f.target? c = some b then (f.setting? c).join else r.bound? b
  checks : (r.keep fs c).checks =
    r.checks ++ if r.accepts fs c = true then (given? fs c).toList else []

theorem Settled.of_rejected (hnode : Node fs f r)
    (h : ∀ q, r.extend fs c.name c.arguments ≠ .ok q) (hadmits : f.admits fs c = false) :
    Settled fs f r c := by
  have hrejected : r.accepts fs c = false ∧ r.keep fs c = r := by
    cases he : r.extend fs c.name c.arguments with
    | ok q => exact absurd he (h q)
    | error e => simp [Rule.accepts, keep, he, Except.isOk, Except.toBool]
  obtain ⟨haccepts, hkeep⟩ := hrejected
  exact ⟨haccepts.trans hadmits.symm, by rwa [hkeep], by simp [haccepts, hkeep],
    by simp [haccepts, hkeep]⟩

theorem Settled.of_accepted (hq : Node fs f q) (h : r.extend fs c.name c.arguments = .ok q)
    (hadmits : f.admits fs c = true)
    (hbound : ∀ b, q.bound? b = if f.target? c = some b then (f.setting? c).join else r.bound? b)
    (hchecks : q.checks = r.checks ++ (given? fs c).toList) : Settled fs f r c := by
  have haccepts : r.accepts fs c = true := by simp [Rule.accepts, h, Except.isOk, Except.toBool]
  have hkeep : r.keep fs c = q := by simp [keep, h]
  exact ⟨haccepts.trans hadmits.symm, by rwa [hkeep], by simpa [haccepts, hkeep] using hbound,
    by simpa [haccepts, hkeep] using hchecks⟩

theorem given?_eq_none (h : c.name ≠ "refine") : given? fs c = none := by
  unfold given?
  split <;> simp_all

theorem settled_setter (hnode : Node fs f r) (hname : c.name ∈ f.settings)
    (hrefine : c.name ≠ "refine") : Settled fs f r c := by
  have hgiven : given? fs c = none := given?_eq_none hrefine
  cases hx : f.setting? c with
  | none =>
    apply Settled.of_rejected hnode
    · intro q hq
      obtain ⟨b, v, hb, hv, hset⟩ := (extend_setting hnode hname hrefine).mp hq
      obtain ⟨x, hx'⟩ := hnode.coerce?_isSome (field_of_target? hb) hset
      simp [Form.setting?, hv, hx'] at hx
    · simp [Form.admits, hx, hgiven]
  | some x =>
    obtain ⟨v, hv, hcoerce⟩ := Option.bind_eq_some_iff.mp hx
    obtain ⟨b, hb⟩ := exists_target? hname hrefine
    obtain ⟨q, hset, hq, hchecks, hbound⟩ :=
      hnode.setBound_eq_ok (field_of_target? hb) hcoerce
    have hextend := (extend_setting hnode hname hrefine).mpr ⟨b, v, hb, hv, hset⟩
    apply Settled.of_accepted hq hextend
    · simp [Form.admits, hx]
    · simpa [hb, hx] using hbound
    · simpa [hgiven] using hchecks

theorem refineWith_eq_ok {condition message : Value} :
    refineWith fs r condition message = .ok q ↔
      ∃ refinement, (both Refinement.mk (under (.key "predicate") (readCallable fs condition))
          (under (.key "message") (Read.text message))).toOption = some refinement ∧
        r.refine refinement = q := by
  rw [refineWith, titled_eq_ok, map_eq_ok]
  cases both Refinement.mk (under (.key "predicate") (readCallable fs condition))
    (under (.key "message") (Read.text message)) <;> simp [Except.toOption]

theorem extend_refine (hrefine : c.name = "refine") :
    r.extend fs c.name c.arguments = .ok q ↔
      ∃ refinement, given? fs c = some refinement ∧ r.refine refinement = q := by
  obtain ⟨name, arguments⟩ := c
  subst hrefine
  rcases arguments with _ | ⟨condition, _ | ⟨message, _ | ⟨more, rest⟩⟩⟩
  · simp [extend, given?]
  · exact refineWith_eq_ok
  · exact refineWith_eq_ok
  · simp [extend, given?]

theorem bound?_refine (r : Rule) (refinement : Refinement) (b : Bound) :
    (r.refine refinement).bound? b = r.bound? b := by
  cases r with
  | scalar _ s => cases s <;> cases b <;> rfl
  | _ => rfl

theorem holds_of_given? {refinement : Refinement} (h : given? fs c = some refinement) :
    fs.Holds refinement.condition := by
  obtain ⟨name, arguments⟩ := c
  have hold {condition message : Value}
      (h : (both Refinement.mk (under (.key "predicate") (readCallable fs condition))
        (under (.key "message") (Read.text message))).toOption = some refinement) :
      fs.Holds refinement.condition := by
    cases hread : both Refinement.mk (under (.key "predicate") (readCallable fs condition))
      (under (.key "message") (Read.text message)) with
    | error es =>
      rw [hread] at h
      cases h
    | ok a =>
      rw [hread] at h
      cases h
      obtain ⟨g, _, hg, -, rfl⟩ := both_eq_ok.mp hread
      exact holds_of_readCallable (under_eq_ok.mp hg)
  unfold given? at h
  split at h
  · exact hold h
  · exact hold h
  · cases h

theorem settled_refine (hnode : Node fs f r) (hrefine : c.name = "refine") : Settled fs f r c := by
  have htarget := target?_refine (f := f) hrefine
  have hsetting : f.setting? c = none := by
    rw [Form.setting?, passed?_refine hrefine]
    rfl
  cases hgiven : given? fs c with
  | none =>
    apply Settled.of_rejected hnode
    · intro q hq
      obtain ⟨refinement, href, -⟩ := (extend_refine hrefine).mp hq
      rw [hgiven] at href
      cases href
    · simp [Form.admits, hsetting, hgiven]
  | some refinement =>
    have hextend : r.extend fs c.name c.arguments = .ok (r.refine refinement) :=
      (extend_refine hrefine).mpr ⟨refinement, hgiven, rfl⟩
    apply Settled.of_accepted (hnode.refine (holds_of_given? hgiven)) hextend
    · simp [Form.admits, hgiven]
    · intro b
      rw [bound?_refine, htarget, if_neg (by simp)]
    · rw [hgiven]
      cases hnode <;> rfl

theorem settled (hnode : Node fs f r) (hname : c.name ∈ f.settings) : Settled fs f r c := by
  by_cases hrefine : c.name = "refine"
  · exact settled_refine hnode hrefine
  · exact settled_setter hnode hname hrefine

theorem keepAll_append (r : Rule) (done : List Invocation) (c : Invocation) :
    r.keepAll fs (done ++ [c]) = (r.keepAll fs done).keep fs c := by
  simp [keepAll]

theorem accepted_append (r : Rule) (done : List Invocation) (c : Invocation) :
    r.accepted fs (done ++ [c]) =
      r.accepted fs done ++ if (r.keepAll fs done).accepts fs c then [c] else [] := by
  induction done generalizing r with
  | nil => exact List.append_nil _
  | cons d done ih =>
    rw [List.cons_append, accepted, accepted, ih, List.append_assoc]
    rfl

/-- What calls of settings do to a node of a form. -/
structure AllSettled (fs : Functions) (f : Form) (r : Rule) (calls : List Invocation) : Prop where
  node : Node fs f (r.keepAll fs calls)
  accepted : r.accepted fs calls = calls.filter (f.admits fs)
  bound : ∀ b, (r.keepAll fs calls).bound? b =
    match ((r.accepted fs calls).filter fun c => f.target? c = some b).getLast? with
    | some c => (f.setting? c).join
    | none => r.bound? b
  checks : (r.keepAll fs calls).checks = r.checks ++ (r.accepted fs calls).filterMap (given? fs)

theorem allSettled (hnode : Node fs f r) {calls : List Invocation}
    (hnames : ∀ c ∈ calls, c.name ∈ f.settings) : AllSettled fs f r calls := by
  -- The last call settles what it is about; everything else is as the calls before left it.
  induction calls using List.reverseRecOn with
  | nil => exact ⟨hnode, rfl, fun _ => rfl, by simp [keepAll, Rule.accepted]⟩
  | append_singleton done c ih =>
    obtain ⟨hdone, haccepted, hbound, hchecks⟩ := ih fun d hd => hnames d (by simp [hd])
    obtain ⟨haccepts, hkept, hset, hrefined⟩ := settled hdone (hnames c (by simp))
    refine ⟨?_, ?_, fun b => ?_, ?_⟩
    · rw [keepAll_append]
      exact hkept
    · rw [accepted_append, haccepts, haccepted, List.filter_append]
      cases hc : f.admits fs c <;> simp [hc]
    · rw [keepAll_append, accepted_append, hset, hbound, List.filter_append]
      by_cases hc : (r.keepAll fs done).accepts fs c = true <;>
        by_cases hb : f.target? c = some b <;> simp [hc, hb]
    · rw [keepAll_append, accepted_append, hrefined, hchecks, List.filterMap_append,
        List.append_assoc]
      cases hc : (r.keepAll fs done).accepts fs c <;> cases hg : given? fs c <;> simp [hg]

structure WellBounded (f : Form) (r : Rule) : Prop where
  form : r.form? = some f
  temporal : ∀ format, f = .string (some format) → format.isTemporal = true →
    ∀ b, r.bound? b = none
  length : ∀ format, f = .string format → ∀ b, ∀ x ∈ r.bound? b, ∃ n : Nat, x = .int n
  finite : ∀ b, ∀ x ∈ r.bound? b, x.IsFinite

theorem Node.wellBounded (h : Node fs f r) : WellBounded f r := by
  refine ⟨h.form?_eq, ?_, ?_, ?_⟩
  · rintro format rfl htemporal b
    cases h with
    | @string _ _ s _ same fields =>
      have hbare := checkString_eq_ok.mp fields (by simp [StringRule.isTemporal, same, htemporal])
      simp only [StringRule.hasLengthBounds, Bool.or_eq_false_iff, Option.isSome_eq_false_iff,
        Option.isNone_iff_eq_none] at hbare
      cases b <;> simp [bound?, hbare]
  · rintro format rfl b x hx
    cases h
    cases b <;> simp only [bound?, Option.mem_def, Option.map_eq_some_iff, reduceCtorEq] at hx
    all_goals exact hx.imp fun n hn => hn.2.symm
  · intro b x hx
    cases h with
    | string =>
      cases b <;> simp only [bound?, Option.mem_def, Option.map_eq_some_iff, reduceCtorEq] at hx
      all_goals
        obtain ⟨n, -, rfl⟩ := hx
        trivial
    | @number _ _ n _ _ fields =>
      simp only [SoundScalar, NumberRule.bounds, List.forall_mem_cons] at fields
      obtain ⟨hmin, hmax, hlower, hupper, -⟩ := fields
      cases b with
      | minimum => exact hmin x hx
      | maximum => exact hmax x hx
      | exclusiveMinimum => exact hlower x hx
      | exclusiveMaximum => exact hupper x hx
      | _ => cases hx

theorem Form.node_rule (f : Form) : Node fs f f.rule := by
  cases f with
  | string format => exact .string held_nil rfl (checkString_eq_ok.mpr fun _ => rfl)
  | number format =>
    exact .number held_nil rfl (by simp [SoundScalar, NumberRule.bounds, NumberRule.plain])

theorem form?_of_literal {title field : String} {v : Value}
    (h : node fs title .literal field v = .ok r) : r.form? = none := by
  have hread := titled_eq_ok.mp h
  rw [show Kind.literal = (Scalar.literal []).kind from rfl, readNode_scalar, bind_eq_ok] at hread
  obtain ⟨⟨cs, t⟩, hfinish, hcheck⟩ := hread
  obtain ⟨_, s, -, hs, hpair⟩ := both_eq_ok.mp (finish_eq_ok.mp hfinish).1
  cases hpair
  obtain ⟨values, -, rfl⟩ := map_eq_ok.mp hs
  cases hcheck
  rfl

theorem eq_rule_of_start {name : String} (h : start fs name [] = .ok r) (hform : r.form? = some f) :
    r = f.rule := by
  unfold start at h
  split at h
  · rename_i q hq
    cases h
    obtain ⟨before, after, hplain, -⟩ := List.lookup_eq_some_iff.mp hq
    have hall : ∀ p ∈ plain, ∀ f, p.2.form? = some f → p.2 = f.rule := by
      simp [plain, form?, string, number, StringRule.plain, NumberRule.plain, Form.rule]
    exact hall (name, r) (by simp [hplain]) f hform
  · split at h
    case h_2 =>
      rw [form?_of_literal h] at hform
      cases hform
    all_goals contradiction

theorem setting?_isSome {b : Bound} (hadmits : f.admits fs c = true) (hb : f.target? c = some b) :
    (f.setting? c).isSome = true := by
  have hrefine : c.name ≠ "refine" := by
    intro hrefine
    rw [target?_refine hrefine] at hb
    cases hb
  simpa [Form.admits, given?_eq_none hrefine] using hadmits

/-- A node of a form with the bounds and refinements that calls ask for is what they make. -/
theorem keepAll_eq (hnode : Node fs f r) {calls : List Invocation}
    (hnames : ∀ c ∈ calls, c.name ∈ f.settings) (hq : Node fs f q)
    (hbound : ∀ b,
      (match ((calls.filter (f.admits fs)).filter fun c => f.target? c = some b).getLast? with
      | some c => (f.setting? c).join
      | none => r.bound? b) = q.bound? b)
    (hchecks : r.checks ++ (calls.filter (f.admits fs)).filterMap (given? fs) = q.checks) :
    r.keepAll fs calls = q := by
  obtain ⟨hkept, haccepted, hset, hrefined⟩ := allSettled hnode hnames
  rw [haccepted] at hset hrefined
  exact hkept.ext hq (fun b => (hset b).trans (hbound b)) (hrefined.trans hchecks)

/-- Calls about one bound, or about refinements, decide what a node becomes; how they lie among
the others does not. -/
theorem keepAll_congr (hnode : Node fs f r) {calls others : List Invocation}
    (hcalls : ∀ c ∈ calls, c.name ∈ f.settings) (hothers : ∀ c ∈ others, c.name ∈ f.settings)
    (hbounds : ∀ b, (calls.filter fun c => f.target? c = some b) =
      others.filter fun c => f.target? c = some b)
    (hrefine : (calls.filter fun c => c.name = "refine") =
      others.filter fun c => c.name = "refine") : r.keepAll fs calls = r.keepAll fs others := by
  obtain ⟨hkept, haccepted, hset, hrefined⟩ := allSettled hnode hothers
  have hgiven (cs : List Invocation) :
      cs.filterMap (given? fs) = (cs.filter fun c => c.name = "refine").filterMap (given? fs) := by
    rw [List.filterMap_filter]
    refine List.filterMap_congr fun c _ => ?_
    by_cases hc : c.name = "refine"
    · simp [hc]
    · simp [hc, given?_eq_none hc]
  refine keepAll_eq hnode hcalls hkept (fun b => ?_) ?_
  · rw [hset, haccepted, List.filter_comm, hbounds b, List.filter_comm]
  · rw [hrefined, haccepted, hgiven, hgiven (others.filter _), List.filter_comm, hrefine,
      List.filter_comm]

/-- Calls that set bounds and refinements on a string or a number node, from its first call on. The
node stays well formed; its form and a call alone tell whether the call is accepted; the last call
that is accepted for a bound decides it; and calls about different things may change places. -/
theorem settings_last_win {name : String} {r : Rule} {f : Form} (hstart : start fs name [] = .ok r)
    (hform : r.form? = some f) :
    (∀ calls : List Invocation, (∀ c ∈ calls, c.name ∈ f.settings) →
      WellBounded f (r.keepAll fs calls) ∧
      (∀ c : Invocation, c.name ∈ f.settings → (r.keepAll fs calls).accepts fs c = f.admits fs c) ∧
      (∀ b, match ((r.accepted fs calls).filter fun c => f.target? c = some b).getLast? with
        | some c => f.setting? c = some ((r.keepAll fs calls).bound? b)
        | none => (r.keepAll fs calls).bound? b = none) ∧
      (r.keepAll fs calls).checks = (r.accepted fs calls).filterMap (given? fs)) ∧
    ∀ calls others : List Invocation, (∀ c ∈ calls, c.name ∈ f.settings) →
      (∀ c ∈ others, c.name ∈ f.settings) →
      (∀ b, (calls.filter fun c => f.target? c = some b) =
        others.filter fun c => f.target? c = some b) →
      ((calls.filter fun c => c.name = "refine") = others.filter fun c => c.name = "refine") →
      r.keepAll fs calls = r.keepAll fs others ∧
        ∀ column,
          Sql.check? column (r.keepAll fs calls) = Sql.check? column (r.keepAll fs others) := by
  cases eq_rule_of_start hstart hform
  have hnode : Node fs f f.rule := f.node_rule
  refine ⟨fun calls hnames => ?_, fun calls others hcalls hothers hbounds hrefine => ?_⟩
  · obtain ⟨hkept, haccepted, hbound, hchecks⟩ := allSettled hnode hnames
    refine ⟨hkept.wellBounded, fun c hc => (settled hkept hc).accepts, fun b => ?_, ?_⟩
    · have hb := hbound b
      split at hb
      · rename_i c hlast
        have hmem := List.mem_of_getLast? hlast
        rw [haccepted, List.mem_filter, List.mem_filter, decide_eq_true_eq] at hmem
        obtain ⟨x, hx⟩ := Option.isSome_iff_exists.mp (setting?_isSome hmem.1.2 hmem.2)
        rw [hb, hx]
        rfl
      · rw [hb]
        cases f <;> cases b <;> rfl
    · rw [hchecks]
      cases f <;> rfl
  · have hsame := keepAll_congr hnode hcalls hothers hbounds hrefine
    exact ⟨hsame, fun column => by rw [hsame]⟩

/-- A text is no bound of a number, and the last of the other two calls of `min` counts. -/
theorem settings_last_win_number :
    ∃ q : Rule, q = .scalar [⟨Callable.even 0, "Invalid value"⟩]
        (.number ⟨.number, some (.int 1), some (.int 9), none, none⟩) ∧
      (number .number).keepAll .evens [⟨"min", [.int 5]⟩, ⟨"refine", [.function 0]⟩,
        ⟨"min", [.text "2"]⟩, ⟨"max", [.int 9]⟩, ⟨"min", [.int 1]⟩] = q ∧
      (number .number).keepAll .evens [⟨"max", [.int 9]⟩, ⟨"min", [.int 5]⟩, ⟨"min", [.text "2"]⟩,
        ⟨"min", [.int 1]⟩, ⟨"refine", [.function 0]⟩] = q ∧
      WellBounded (.number .number) q := by
  obtain ⟨hrun, hsame⟩ :=
    @settings_last_win .evens "number" (number .number) (.number .number) rfl rfl
  have hfirst : (number .number).keepAll .evens [⟨"min", [.int 5]⟩,
      ⟨"refine", [.function 0]⟩, ⟨"min", [.text "2"]⟩, ⟨"max", [.int 9]⟩,
      ⟨"min", [.int 1]⟩] = .scalar [⟨Callable.even 0, "Invalid value"⟩]
        (.number ⟨.number, some (.int 1), some (.int 9), none, none⟩) := by
    refine keepAll_eq (Form.number .number).node_rule (by simp [Form.settings])
      (.number (List.forall_mem_singleton.mpr (Functions.evens.holds_callable 0)) rfl ?_)
      (fun b => ?_) rfl
    · simp [SoundScalar, NumberRule.bounds, Number.IsFinite]
    · cases b <;> rfl
  refine ⟨_, rfl, hfirst, ?_, ?_⟩
  · rw [← hfirst]
    refine (hsame _ _ (by simp [Form.settings]) (by simp [Form.settings]) (fun b => ?_) ?_).1
    · cases b <;> rfl
    · rfl
  · rw [← hfirst]
    exact (hrun _ (by simp [Form.settings])).1

end Tablewright.Rule
