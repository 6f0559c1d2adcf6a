import Tablewright.Proofs.Rule.Run
import Tablewright.Rule.Stack

namespace Tablewright

inductive DefaultSource
  | value (v : Value)
  | factory (f : Callable)
  deriving Inhabited

namespace DefaultSource

def ofDefault : Value × Option Callable → DefaultSource
  | (_, some f) => .factory f
  | (v, none) => .value v

def give : DefaultSource → Run Value
  | .value v => Pure.pure v
  | .factory f => f.supply

theorem resolveDefault_eq_give (d : Value × Option Callable) :
    resolveDefault d = (ofDefault d).give := by
  obtain ⟨v, f⟩ := d
  cases f <;> rfl

end DefaultSource

def Layer.source? : Layer → Option DefaultSource
  | .default v f => some (.ofDefault (v, f))
  | .optional | .nullable => none

namespace Rule

@[elab_as_elim]
theorem layerInduction {motive : Rule → Prop}
    (layer : ∀ checks l r, motive r → motive (.layer checks l r))
    (scalar : ∀ checks s, motive (.scalar checks s))
    (union : ∀ checks options, motive (.union checks options))
    (array : ∀ checks items, motive (.array checks items))
    (object : ∀ checks shape, motive (.object checks shape)) : ∀ r, motive r
  | .layer checks l r => layer checks l r (layerInduction layer scalar union array object r)
  | .scalar checks s => scalar checks s
  | .union checks options => union checks options
  | .array checks items => array checks items
  | .object checks shape => object checks shape

def layers : Rule → List Layer
  | .layer _ l r => l :: r.layers
  | _ => []

def source? (r : Rule) : Option DefaultSource := r.layers.reverse.findSome? Layer.source?

theorem nullable_stack (r : Rule) : r.stack.nullable = r.layers.any admitsNull := by
  induction r using layerInduction with
  | layer checks l r ih =>
    rw [layers, List.any_cons, ← ih]
    rfl
  | _ => rfl

theorem source?_layer (checks : List Refinement) (l : Layer) (r : Rule) :
    (layer checks l r).source? = r.source?.or l.source? := by
  rw [source?, layers, List.reverse_cons, List.findSome?_append, ← source?]
  simp

theorem source?_eq_stack (r : Rule) : r.source? = r.stack.default.map .ofDefault := by
  induction r using layerInduction with
  | layer checks l r ih =>
    rw [source?_layer, ih]
    cases hd : r.stack.default with
    | some d => simp [stack, hd]
    | none => cases l <;> simp [stack, hd, Layer.source?]
  | _ => rfl

/-- A rule is unwrapped to its leaf, whether one of its layers admits null, and the value that the
innermost default gives. -/
theorem unwrap_eq (r : Rule) :
    r.unwrap = match r.source? with
      | none => Pure.pure ⟨r.leaf, r.layers.any admitsNull, none⟩
      | some s => do
        let v ← s.give
        return ⟨r.leaf, r.layers.any admitsNull, some v⟩ := by
  rw [source?_eq_stack, ← nullable_stack, ← leaf_stack, unwrap]
  cases r.stack.default with
  | none => rfl
  | some d =>
    rw [Option.map_some]
    dsimp only
    rw [DefaultSource.resolveDefault_eq_give]

theorem mem_factories_of_source? {r : Rule} {f : Callable} (h : r.source? = some (.factory f)) :
    f ∈ r.factories := by
  induction r using layerInduction with
  | layer checks l r ih =>
    rw [source?_layer] at h
    -- The innermost default counts, so this layer has a say only when none is below it.
    cases hs : r.source? with
    | some s =>
      rw [hs] at h
      cases h
      have hf := ih hs
      cases l with
      | default v g => cases g <;> simp [factories, hf]
      | optional | nullable => exact hf
    | none =>
      rw [hs] at h
      cases l with
      | default v g =>
        cases g with
        | none => cases h
        | some g =>
          cases h
          simp [factories]
      | optional | nullable => cases h
  | _ => cases h

theorem returns_unwrap {r : Rule} (h : ∀ f ∈ r.factories, f.Supplies) : r.unwrap.Returns := by
  rw [unwrap_eq]
  cases hs : r.source? with
  | none => exact Run.returns_pure _
  | some s =>
    refine Run.Returns.bind ?_ fun v _ => Run.returns_pure _
    cases s with
    | value v => exact Run.returns_pure v
    | factory f => exact (h f (mem_factories_of_source? hs)).returns

mutual

def everyCheck : Rule → List Refinement
  | .layer cs _ r | .array cs r => cs ++ r.everyCheck
  | .scalar cs _ => cs
  | .union cs rs => cs ++ everyCheckOf rs
  | .object cs shape => cs ++ everyCheckIn shape

def everyCheckOf : List Rule → List Refinement
  | [] => []
  | r :: rs => r.everyCheck ++ everyCheckOf rs

def everyCheckIn : List (String × Rule) → List Refinement
  | [] => []
  | (_, r) :: shape => r.everyCheck ++ everyCheckIn shape

end

mutual

/-- A rule and all the rules below it. -/
def everyNode : Rule → List Rule
  | .layer cs l r => .layer cs l r :: r.everyNode
  | .scalar cs s => [.scalar cs s]
  | .union cs rs => .union cs rs :: everyNodeOf rs
  | .array cs r => .array cs r :: r.everyNode
  | .object cs shape => .object cs shape :: everyNodeIn shape

def everyNodeOf : List Rule → List Rule
  | [] => []
  | r :: rs => r.everyNode ++ everyNodeOf rs

def everyNodeIn : List (String × Rule) → List Rule
  | [] => []
  | (_, r) :: shape => r.everyNode ++ everyNodeIn shape

end

@[simp]
theorem checks_withChecks (r : Rule) (checks : List Refinement) :
    (r.withChecks checks).checks = checks := by
  cases r <;> rfl

@[simp]
theorem withChecks_withChecks (r : Rule) (checks others : List Refinement) :
    (r.withChecks checks).withChecks others = r.withChecks others := by
  cases r <;> rfl

mutual

theorem checks_subset_everyCheck : ∀ r : Rule, ∀ q ∈ r.everyNode, q.checks ⊆ r.everyCheck
  | .layer cs l r, q, hq => by
    obtain rfl | hq := List.mem_cons.mp hq
    · exact List.subset_append_left cs r.everyCheck
    · exact List.subset_append_of_subset_right cs (checks_subset_everyCheck r q hq)
  | .scalar cs s, q, hq => by
    cases List.mem_singleton.mp hq
    exact List.Subset.refl cs
  | .union cs rs, q, hq => by
    obtain rfl | hq := List.mem_cons.mp hq
    · exact List.subset_append_left cs (everyCheckOf rs)
    · exact List.subset_append_of_subset_right cs (checks_subset_everyCheckOf rs q hq)
  | .array cs r, q, hq => by
    obtain rfl | hq := List.mem_cons.mp hq
    · exact List.subset_append_left cs r.everyCheck
    · exact List.subset_append_of_subset_right cs (checks_subset_everyCheck r q hq)
  | .object cs shape, q, hq => by
    obtain rfl | hq := List.mem_cons.mp hq
    · exact List.subset_append_left cs (everyCheckIn shape)
    · exact List.subset_append_of_subset_right cs (checks_subset_everyCheckIn shape q hq)

theorem checks_subset_everyCheckOf : ∀ rs : List Rule, ∀ q ∈ everyNodeOf rs,
    q.checks ⊆ everyCheckOf rs
  | r :: rs, q, hq => by
    obtain hq | hq := List.mem_append.mp hq
    · exact List.subset_append_of_subset_left _ (checks_subset_everyCheck r q hq)
    · exact List.subset_append_of_subset_right _ (checks_subset_everyCheckOf rs q hq)

theorem checks_subset_everyCheckIn : ∀ shape : List (String × Rule), ∀ q ∈ everyNodeIn shape,
    q.checks ⊆ everyCheckIn shape
  | (_, r) :: shape, q, hq => by
    obtain hq | hq := List.mem_append.mp hq
    · exact List.subset_append_of_subset_left _ (checks_subset_everyCheck r q hq)
    · exact List.subset_append_of_subset_right _ (checks_subset_everyCheckIn shape q hq)

end

mutual

def everyFactory : Rule → List Callable
  | .layer _ l r =>
    match l with
    | .default _ (some f) => f :: r.everyFactory
    | _ => r.everyFactory
  | .scalar .. => []
  | .union _ rs => everyFactoryOf rs
  | .array _ r => r.everyFactory
  | .object _ shape => everyFactoryIn shape

def everyFactoryOf : List Rule → List Callable
  | [] => []
  | r :: rs => r.everyFactory ++ everyFactoryOf rs

def everyFactoryIn : List (String × Rule) → List Callable
  | [] => []
  | (_, r) :: shape => r.everyFactory ++ everyFactoryIn shape

end

theorem factories_subset_everyFactory (r : Rule) : r.factories ⊆ r.everyFactory := by
  induction r using layerInduction with
  | layer checks l r ih =>
    cases l with
    | default v f =>
      cases f with
      | some f => exact List.cons_subset_cons f ih
      | none => exact ih
    | optional | nullable => exact ih
  | _ => exact List.nil_subset _

theorem everyCheck_leaf {r : Rule} (h : r.everyCheck = []) : r.leaf.everyCheck = [] := by
  induction r using layerInduction with
  | layer checks l r ih =>
    rw [everyCheck, List.append_eq_nil_iff] at h
    exact ih h.2
  | _ => exact h

end Rule

end Tablewright
