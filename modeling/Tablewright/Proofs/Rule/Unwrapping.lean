import Tablewright.Proofs.Rule.Layers

namespace Tablewright

abbrev Coat := List Refinement × Layer

def Layer.isDefault : Layer → Bool
  | .default .. => true
  | .optional | .nullable => false

/-- The default among some layers, outermost first, that has no other below it. -/
def IsInnermost (coats : List Coat) (v : Value) (f : Option Callable) : Prop :=
  ∃ outer checks inner, coats = outer ++ (checks, .default v f) :: inner ∧
    ∀ c ∈ inner, c.2.isDefault = false

theorem undefaulted_or_isInnermost (coats : List Coat) :
    (∀ c ∈ coats, c.2.isDefault = false) ∨ ∃ v f, IsInnermost coats v f := by
  induction coats with
  | nil => exact .inl fun c hc => nomatch hc
  | cons c cs ih =>
    obtain hnone | ⟨v, f, outer, checks, inner, rfl, hinner⟩ := ih
    · -- With no default below it, this layer decides.
      obtain ⟨checks, l⟩ := c
      cases l with
      | default v f => exact .inr ⟨v, f, [], checks, cs, rfl, hnone⟩
      | optional | nullable => exact .inl (List.forall_mem_cons.mpr ⟨rfl, hnone⟩)
    · exact .inr ⟨v, f, c :: outer, checks, inner, rfl, hinner⟩

theorem exists_isDefault_iff (coats : List Coat) :
    (∃ c ∈ coats, c.2.isDefault = true) ↔ ∃ v f, IsInnermost coats v f := by
  constructor
  · rintro ⟨c, hc, hd⟩
    obtain hnone | hsome := undefaulted_or_isInnermost coats
    · cases (hnone c hc).symm.trans hd
    · exact hsome
  · rintro ⟨v, f, outer, checks, inner, rfl, -⟩
    exact ⟨(checks, .default v f), by simp, rfl⟩

namespace Layer

theorem source?_of_isDefault {l : Layer} (h : l.isDefault = false) : l.source? = none := by
  cases l with
  | default => cases h
  | optional | nullable => rfl

theorem findSome?_source? {coats : List Coat} (h : ∀ c ∈ coats, c.2.isDefault = false) :
    (coats.map (·.2)).reverse.findSome? source? = none := by
  rw [List.findSome?_eq_none_iff]
  intro l hl
  obtain ⟨c, hc, rfl⟩ := List.mem_map.mp (List.mem_reverse.mp hl)
  exact source?_of_isDefault (h c hc)

end Layer

namespace Rule

def isLayer : Rule → Bool
  | .layer .. => true
  | _ => false

def coated (coats : List Coat) (r : Rule) : Rule :=
  coats.foldr (fun c inner => .layer c.1 c.2 inner) r

theorem exists_coated (r : Rule) : ∃ coats, r.leaf.isLayer = false ∧ r = r.leaf.coated coats := by
  induction r using layerInduction with
  | layer checks l r ih =>
    obtain ⟨coats, hleaf, hr⟩ := ih
    exact ⟨(checks, l) :: coats, hleaf, congrArg (layer checks l) hr⟩
  | _ => exact ⟨[], rfl, rfl⟩

section

variable {leaf : Rule} (h : leaf.isLayer = false)

include h

theorem leaf_coated (coats : List Coat) : (leaf.coated coats).leaf = leaf := by
  induction coats with
  | nil =>
    cases leaf with
    | layer => cases h
    | _ => rfl
  | cons c cs ih => exact ih

theorem layers_coated (coats : List Coat) : (leaf.coated coats).layers = coats.map (·.2) := by
  induction coats with
  | nil =>
    cases leaf with
    | layer => cases h
    | _ => rfl
  | cons c cs ih => exact congrArg (c.2 :: ·) ih

theorem source?_coated_of_undefaulted {coats : List Coat}
    (hc : ∀ c ∈ coats, c.2.isDefault = false) : (leaf.coated coats).source? = none := by
  rw [source?, layers_coated h, Layer.findSome?_source? hc]

theorem source?_coated {coats : List Coat} {v : Value} {f : Option Callable}
    (hi : IsInnermost coats v f) : (leaf.coated coats).source? = some (.ofDefault (v, f)) := by
  obtain ⟨outer, checks, inner, rfl, hinner⟩ := hi
  rw [source?, layers_coated h, List.map_append, List.map_cons, List.reverse_append,
    List.reverse_cons, List.findSome?_append, List.findSome?_append,
    Layer.findSome?_source? hinner]
  rfl

end

def coatsAdmitNull (coats : List Coat) : Bool := coats.any fun c => admitsNull c.2

theorem coatsAdmitNull_iff (coats : List Coat) :
    coatsAdmitNull coats = true ↔ ∃ c ∈ coats, c.2 = .optional ∨ c.2 = .nullable := by
  have hiff (l : Layer) : admitsNull l = true ↔ l = .optional ∨ l = .nullable := by
    cases l <;> simp [admitsNull]
  simp only [coatsAdmitNull, List.any_eq_true, hiff]

theorem unwrap_coated_eq {leaf : Rule} (h : leaf.isLayer = false) (coats : List Coat) :
    (leaf.coated coats).unwrap = match (leaf.coated coats).source? with
      | none => Pure.pure ⟨leaf, coatsAdmitNull coats, none⟩
      | some s => do
        let v ← s.give
        return ⟨leaf, coatsAdmitNull coats, some v⟩ := by
  rw [unwrap_eq, leaf_coated h, layers_coated h, List.any_map]
  rfl

/-- Of a stack of layers only this counts: the innermost default, and whether some layer admits
null. -/
theorem unwrap_coated_congr {leaf : Rule} (h : leaf.isLayer = false) {coats others : List Coat}
    (hn : (∃ c ∈ coats, c.2 = .optional ∨ c.2 = .nullable) ↔
      ∃ c ∈ others, c.2 = .optional ∨ c.2 = .nullable)
    (hi : ∀ v f, IsInnermost coats v f ↔ IsInnermost others v f) :
    (leaf.coated others).unwrap = (leaf.coated coats).unwrap := by
  have hnull : coatsAdmitNull others = coatsAdmitNull coats := by
    rw [Bool.eq_iff_iff, coatsAdmitNull_iff, coatsAdmitNull_iff, hn]
  have hsource : (leaf.coated others).source? = (leaf.coated coats).source? := by
    obtain hnone | ⟨v, f, hsome⟩ := undefaulted_or_isInnermost coats
    · have hothers : ∀ c ∈ others, c.2.isDefault = false := by
        obtain hnone' | ⟨v, f, hsome⟩ := undefaulted_or_isInnermost others
        · exact hnone'
        · obtain ⟨c, hc, hd⟩ := (exists_isDefault_iff coats).mpr ⟨v, f, (hi v f).mpr hsome⟩
          cases (hnone c hc).symm.trans hd
      rw [source?_coated_of_undefaulted h hnone, source?_coated_of_undefaulted h hothers]
    · rw [source?_coated h hsome, source?_coated h ((hi v f).mp hsome)]
  rw [unwrap_coated_eq h, unwrap_coated_eq h, hnull, hsource]

/-- A leaf inside layers is unwrapped to that leaf, which may be null when a layer is optional or
nullable. Its default is what the innermost default layer gives; the function of that layer, if it
has one, is called once, and no other function is called. -/
theorem unwrap_coated {leaf : Rule} (h : leaf.isLayer = false) (coats : List Coat) :
    (leaf.coated coats).leaf = leaf ∧
    (∃ n : Bool, (n = true ↔ ∃ c ∈ coats, c.2 = .optional ∨ c.2 = .nullable) ∧
      ((∀ c ∈ coats, c.2.isDefault = false) → ∀ calls,
        (leaf.coated coats).unwrap calls = (.ok ⟨leaf, n, none⟩, calls)) ∧
      (∀ v, IsInnermost coats v none → ∀ calls,
        (leaf.coated coats).unwrap calls = (.ok ⟨leaf, n, some v⟩, calls)) ∧
      ∀ v f, IsInnermost coats v (some f) → ∀ calls,
        (leaf.coated coats).unwrap calls =
          ((f.source (calls.times f.slot)).map fun w => ⟨leaf, n, some w⟩,
            f.slot :: calls)) ∧
    ((∃ c ∈ coats, c.2.isDefault = true) ↔ ∃ v f, IsInnermost coats v f) ∧
    ∀ others : List Coat,
      ((∃ c ∈ coats, c.2 = .optional ∨ c.2 = .nullable) ↔
        ∃ c ∈ others, c.2 = .optional ∨ c.2 = .nullable) →
      (∀ v f, IsInnermost coats v f ↔ IsInnermost others v f) →
      (leaf.coated others).unwrap = (leaf.coated coats).unwrap := by
  refine ⟨leaf_coated h coats, ⟨coatsAdmitNull coats, coatsAdmitNull_iff coats, ?_, ?_, ?_⟩,
    exists_isDefault_iff coats, fun others hn hi => unwrap_coated_congr h hn hi⟩
  · intro hnone calls
    rw [unwrap_coated_eq h, source?_coated_of_undefaulted h hnone]
    rfl
  · intro v hi calls
    rw [unwrap_coated_eq h, source?_coated h hi]
    rfl
  · intro v f hi calls
    rw [unwrap_coated_eq h, source?_coated h hi]
    dsimp only [DefaultSource.ofDefault, DefaultSource.give]
    rw [Run.bind_apply, Callable.supply]
    cases f.source (calls.times f.slot) <;> rfl

def shelves : List Coat :=
  [([], .default .null (some (.ofSource 1 fun _ => .error (.other "RuntimeError" "out of reach")))),
    ([], .nullable), ([⟨.even 2, "odd"⟩], .default (.text "outer") none),
    ([], .default .null (some (.counter 0 7))), ([], .optional)]

theorem unwrap_coated_shelves :
    IsInnermost shelves .null (some (.counter 0 7)) ∧
    ((scalar [] .bigint).coated shelves).unwrap [0] =
      (.ok ⟨scalar [] .bigint, true, some (.int 8)⟩, [0, 0]) := by
  have hi : IsInnermost shelves .null (some (.counter 0 7)) :=
    ⟨shelves.take 3, [], [([], .optional)], rfl, by simp [Layer.isDefault]⟩
  have hleaf : (scalar [] .bigint).isLayer = false := rfl
  obtain ⟨-, ⟨n, hn, -, -, hfactory⟩, -⟩ := unwrap_coated hleaf shelves
  have hnull : n = true := hn.mpr ⟨([], .nullable), by simp [shelves], .inr rfl⟩
  have hu := hfactory _ _ hi [0]
  rw [hnull] at hu
  exact ⟨hi, hu⟩

end Rule

end Tablewright
