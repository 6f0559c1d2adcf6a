import Tablewright.Proofs.Rule.Layers

namespace Tablewright

def DefaultSource.factory? : DefaultSource → Option Callable
  | .value _ => none
  | .factory f => some f

namespace Rule

/-- The function that stands in for an absent value: the one of the innermost default. -/
def ownFactory? (r : Rule) : Option Callable := r.source?.bind DefaultSource.factory?

theorem ownFactory?_eq_some {r : Rule} {f : Callable} :
    r.ownFactory? = some f ↔ r.source? = some (.factory f) := by
  rw [ownFactory?]
  cases r.source? with
  | none => simp
  | some s => cases s <;> simp [DefaultSource.factory?]

mutual

/-- The functions that stand in for absent fields of objects, at every depth. -/
def fieldFactories : Rule → List Callable
  | .layer _ _ r | .array _ r => r.fieldFactories
  | .scalar .. => []
  | .union _ rs => fieldFactoriesOf rs
  | .object _ shape => fieldFactoriesIn shape

def fieldFactoriesOf : List Rule → List Callable
  | [] => []
  | r :: rs => r.fieldFactories ++ fieldFactoriesOf rs

def fieldFactoriesIn : List (String × Rule) → List Callable
  | [] => []
  | (_, r) :: shape => r.ownFactory?.toList ++ r.fieldFactories ++ fieldFactoriesIn shape

end

mutual

/-- The functions of default layers that have another default below them, at every depth. -/
def shadowed : Rule → List Callable
  | .layer _ l r =>
    (if r.source?.isSome then (l.source?.bind DefaultSource.factory?).toList else []) ++ r.shadowed
  | .scalar .. => []
  | .union _ rs => shadowedOf rs
  | .array _ r => r.shadowed
  | .object _ shape => shadowedIn shape

def shadowedOf : List Rule → List Callable
  | [] => []
  | r :: rs => r.shadowed ++ shadowedOf rs

def shadowedIn : List (String × Rule) → List Callable
  | [] => []
  | (_, r) :: shape => r.shadowed ++ shadowedIn shape

end

theorem everyFactory_layer (checks : List Refinement) (l : Layer) (r : Rule) :
    (layer checks l r).everyFactory =
      (l.source?.bind DefaultSource.factory?).toList ++ r.everyFactory := by
  cases l with
  | default v f => cases f <;> rfl
  | optional | nullable => rfl

theorem ownFactory?_layer (checks : List Refinement) (l : Layer) (r : Rule) :
    (layer checks l r).ownFactory? =
      if r.source?.isSome then r.ownFactory? else l.source?.bind DefaultSource.factory? := by
  rw [ownFactory?, ownFactory?, source?_layer]
  cases r.source? <;> rfl

mutual

/-- No function of a rule stands in for two absent values, nor for one while it is shadowed. -/
theorem countP_factories_le (p : Callable → Bool) : ∀ r : Rule,
    (r.ownFactory?.toList ++ r.fieldFactories ++ r.shadowed).countP p ≤ r.everyFactory.countP p
  | .layer checks l r => by
    have h := countP_factories_le p r
    rw [everyFactory_layer, ownFactory?_layer, fieldFactories, shadowed]
    simp only [List.countP_append] at h ⊢
    -- With a default below, this one is shadowed; without one, it is the one that counts.
    split
    · omega
    · rw [List.countP_nil]
      omega
  | .scalar .. => Nat.le_refl 0
  | .union _ rs => countP_factoriesOf_le p rs
  | .array _ r => by
    have h := countP_factories_le p r
    change (r.fieldFactories ++ r.shadowed).countP p ≤ r.everyFactory.countP p
    simp only [List.countP_append] at h ⊢
    omega
  | .object _ shape => countP_factoriesIn_le p shape

theorem countP_factoriesOf_le (p : Callable → Bool) : ∀ rs : List Rule,
    (fieldFactoriesOf rs ++ shadowedOf rs).countP p ≤ (everyFactoryOf rs).countP p
  | [] => Nat.le_refl 0
  | r :: rs => by
    have hr := countP_factories_le p r
    have hrs := countP_factoriesOf_le p rs
    rw [fieldFactoriesOf, shadowedOf, everyFactoryOf]
    simp only [List.countP_append] at hr hrs ⊢
    omega

theorem countP_factoriesIn_le (p : Callable → Bool) : ∀ shape : List (String × Rule),
    (fieldFactoriesIn shape ++ shadowedIn shape).countP p ≤ (everyFactoryIn shape).countP p
  | [] => Nat.le_refl 0
  | (_, r) :: shape => by
    have hr := countP_factories_le p r
    have hshape := countP_factoriesIn_le p shape
    rw [fieldFactoriesIn, shadowedIn, everyFactoryIn]
    simp only [List.countP_append] at hr hshape ⊢
    omega

end

theorem subset_of_countP_le {xs ys : List α} (h : ∀ p, xs.countP p ≤ ys.countP p) : xs ⊆ ys := by
  classical
  intro x hx
  have hpos : 0 < xs.countP (decide <| · = x) := List.countP_pos_iff.mpr ⟨x, hx, by simp⟩
  obtain ⟨y, hy, he⟩ := List.countP_pos_iff.mp (Nat.lt_of_lt_of_le hpos (h _))
  exact of_decide_eq_true he ▸ hy

theorem fieldFactories_subset (r : Rule) : r.fieldFactories ⊆ r.everyFactory := fun _ hf =>
  subset_of_countP_le (fun p => countP_factories_le p r) (by simp [hf])

def slots (r : Rule) : List Nat :=
  r.everyCheck.map (·.condition.slot) ++ r.everyFactory.map (·.slot)

def ownSlots (r : Rule) : List Nat := r.ownFactory?.toList.map (·.slot)

/-- The slots of the functions that may be called when a value is judged. -/
def judgingSlots (r : Rule) : List Nat :=
  r.everyCheck.map (·.condition.slot) ++ r.fieldFactories.map (·.slot)

theorem count_slots_le (slot : Nat) (r : Rule) :
    r.ownSlots.count slot + r.judgingSlots.count slot + (r.shadowed.map (·.slot)).count slot ≤
      r.slots.count slot := by
  have h := countP_factories_le (fun f => f.slot == slot) r
  simp only [slots, ownSlots, judgingSlots, List.count_eq_countP, List.countP_map,
    List.countP_append, Function.comp_def] at h ⊢
  omega

theorem ownSlots_of_ownFactory? {r : Rule} {f : Callable} (hf : r.ownFactory? = some f) :
    r.ownSlots = [f.slot] := by
  rw [ownSlots, hf]
  rfl

theorem count_ownSlots {r : Rule} {f : Callable} (hf : r.ownFactory? = some f) :
    r.ownSlots.count f.slot = 1 := by
  rw [ownSlots_of_ownFactory? hf]
  exact List.count_singleton_self

theorem count_shadowed_pos {r : Rule} {f : Callable} (hf : f ∈ r.shadowed) :
    0 < (r.shadowed.map (·.slot)).count f.slot :=
  List.count_pos_iff.mpr (List.mem_map_of_mem hf)

/-- A rule none of whose functions that may be called has a slot. -/
def Idle (slot : Nat) (r : Rule) : Prop := slot ∉ r.ownSlots ∧ slot ∉ r.judgingSlots

theorem idle_of_count_eq_zero {slot : Nat} {r : Rule} (h : r.slots.count slot = 0) :
    r.Idle slot := by
  have hle := count_slots_le slot r
  exact ⟨List.count_eq_zero.mp (by omega), List.count_eq_zero.mp (by omega)⟩

section

variable {r : Rule} {f : Callable} (h : r.slots.count f.slot ≤ 1)

include h

/-- A function with a slot of its own that stands in for an absent value is called for no other
reason. -/
theorem notMem_judgingSlots (hf : r.ownFactory? = some f) : f.slot ∉ r.judgingSlots := by
  have hle := count_slots_le f.slot r
  have hown := count_ownSlots hf
  exact List.count_eq_zero.mp (by omega)

theorem idle_of_mem_shadowed (hf : f ∈ r.shadowed) : r.Idle f.slot := by
  have hle := count_slots_le f.slot r
  have hpos := count_shadowed_pos hf
  exact ⟨List.count_eq_zero.mp (by omega), List.count_eq_zero.mp (by omega)⟩

end

end Rule

end Tablewright
