import Tablewright.Proofs.Row.Listed
import Tablewright.Proofs.Table.Default

namespace Tablewright

namespace Number

theorem same_eq_true {m n : Number} :
    m.same n = true ↔ ∃ p, m.position? = some p ∧ n.position? = some p := by
  unfold same
  cases m.position? with
  | none => simp
  | some p =>
    cases n.position? with
    | none => simp
    | some q => simp [eq_comm]

theorem same_congr {m n : Number} (h : m.same n = true) (k : Number) : m.same k = n.same k := by
  obtain ⟨p, hm, hn⟩ := same_eq_true.mp h
  rw [same, same, hm, hn]

theorem units_of_position? {n : Number} {side units : Int}
    (h : n.position? = some (side, units)) (hs : side ≠ 0) : units = 0 := by
  cases n with
  | int n =>
    cases h
    exact absurd rfl hs
  | float x =>
    cases x with
    | nan => cases h
    | infinity s =>
      cases h
      rfl
    | finite s u =>
      cases h
      exact absurd rfl hs

end Number

namespace Decimal

/-- Where on the number line a decimal number lies. -/
def LiesAt : Decimal → Int × Int → Prop
  | .finite s digits exponent, (side, units) => side = 0 ∧
    let scaled : Int := (if s then -(digits : Int) else digits) * Binary64.one
    if 0 ≤ exponent then scaled * Nat.pow 10 exponent.toNat = units
    else scaled = units * Nat.pow 10 (-exponent).toNat
  | .infinity s, (side, _) => side = if s then -1 else 1
  | .nan .., _ => False

theorem same_eq_true {d : Decimal} {n : Number} :
    d.same n = true ↔ ∃ p, n.position? = some p ∧ d.LiesAt p := by
  unfold same
  cases hp : n.position? with
  | none => cases d <;> simp
  | some p =>
    obtain ⟨side, units⟩ := p
    have hsome : (∃ p, some (side, units) = some p ∧ d.LiesAt p) ↔ d.LiesAt (side, units) := by simp
    rw [hsome]
    cases d with
    | nan => exact iff_of_false Bool.false_ne_true id
    | infinity s => exact decide_eq_true_iff
    | finite s digits exponent =>
      by_cases hs : side = 0
      · subst hs
        rw [LiesAt, eq_self, true_and]
        by_cases he : 0 ≤ exponent
        · rw [if_pos he]
          exact (congrArg (· = true) (if_pos he)).to_iff.trans decide_eq_true_iff
        · rw [if_neg he]
          exact (congrArg (· = true) (if_neg he)).to_iff.trans decide_eq_true_iff
      · refine iff_of_false ?_ fun h => hs h.1
        split
        · rename_i heq
          cases heq
          exact absurd rfl hs
        · rename_i heq _
          cases heq
        · exact Bool.false_ne_true

theorem units_inj {scaled a b : Int} {k : Nat} (ha : scaled = a * (Nat.pow 10 k : Nat))
    (hb : scaled = b * (Nat.pow 10 k : Nat)) : a = b := by
  have hpos : ((Nat.pow 10 k : Nat) : Int) ≠ 0 :=
    Int.natCast_ne_zero.mpr (Nat.pos_iff_ne_zero.mp (Nat.pow_pos (by decide)))
  exact Int.eq_of_mul_eq_mul_right hpos (ha.symm.trans hb)

theorem same_of_same {d : Decimal} {m n : Number} (hm : d.same m = true) (hn : d.same n = true) :
    m.same n = true := by
  obtain ⟨⟨side, units⟩, hm, hd⟩ := same_eq_true.mp hm
  obtain ⟨⟨other, more⟩, hn, he⟩ := same_eq_true.mp hn
  refine Number.same_eq_true.mpr ⟨(side, units), hm, ?_⟩
  rw [hn, Option.some.injEq, Prod.mk.injEq]
  cases d with
  | nan => cases hd
  | infinity s =>
    have hside : ((if s then -1 else 1) : Int) ≠ 0 := by cases s <;> decide
    rw [LiesAt] at hd he
    subst hd he
    exact ⟨rfl, (Number.units_of_position? hn hside).trans
      (Number.units_of_position? hm hside).symm⟩
  | finite s digits exponent =>
    obtain ⟨rfl, hd⟩ := hd
    obtain ⟨rfl, he⟩ := he
    refine ⟨rfl, ?_⟩
    dsimp only at hd he
    split at hd
    · rename_i hpos
      rw [if_pos hpos] at he
      exact he.symm.trans hd
    · rename_i hneg
      rw [if_neg hneg] at he
      exact units_inj he hd

theorem same_congr {d : Decimal} {n : Number} (h : d.same n = true) (k : Number) :
    d.same k = n.same k := by
  rw [Bool.eq_iff_iff]
  refine ⟨same_of_same h, fun hk => ?_⟩
  obtain ⟨p, hn, hk⟩ := Number.same_eq_true.mp hk
  obtain ⟨q, hq, hd⟩ := same_eq_true.mp h
  cases Option.some.inj (hn.symm.trans hq)
  exact same_eq_true.mpr ⟨p, hk, hd⟩

end Decimal

namespace Row

theorem number?_toValue (l : Literal) : l.toValue.number? = literalNumber? l := by
  cases l <;> rfl

theorem denotesSame_of_number {v : Value} {m : Number} (h : v.number? = some m) (l : Literal) :
    denotesSame v l = (literalNumber? l).any m.same := by
  cases v with
  | bool | int | float =>
    cases h
    cases l <;> rfl
  | _ => cases h

theorem denotesSame_congr {v : Value} {l : Literal} (h : denotesSame v l = true) :
    denotesSame v = denotesSame l.toValue := by
  funext k
  cases hl : literalNumber? l with
  | some n =>
    have hlit := denotesSame_of_number ((number?_toValue l).trans hl) k
    cases hv : v.number? with
    | some m =>
      rw [denotesSame_of_number hv, hl] at h
      rw [denotesSame_of_number hv, hlit]
      exact congrArg (fun p => (literalNumber? k).any p) (funext (Number.same_congr h))
    | none =>
      cases v with
      | decimal d =>
        have hd : d.same n = true := by
          rw [denotesSame, hl] at h
          exact h
        have hdec : denotesSame (.decimal d) k = (literalNumber? k).any d.same := by
          cases k <;> rfl
        rw [hdec, hlit]
        exact congrArg (fun p => (literalNumber? k).any p) (funext (Decimal.same_congr hd))
      | null =>
        cases l with
        | null | text => cases hl
        | bool | int | float => cases h
      | bool | int | float => cases hv
      | _ => cases h
  | none =>
    cases l with
    | null =>
      cases v with
      | null => rfl
      | _ => cases h
    | text => cases v <;> cases h
    | bool | int | float => cases hl

theorem eq_toValue_of_isExactly {v : Value} {l : Literal} (h : isExactly v l = true) :
    v = l.toValue := by
  cases l with
  | text s =>
    cases v with
    | text t => exact congrArg Value.text (beq_iff_eq.mp h)
    | _ => cases h
  | bool a =>
    cases v with
    | bool b => exact congrArg Value.bool (beq_iff_eq.mp h).symm
    | _ => cases h
  | int m =>
    cases v with
    | int n =>
      simp only [isExactly, Bool.and_eq_true, decide_eq_true_eq] at h
      exact congrArg Value.int h.1.symm
    | _ => cases h
  | null | float => cases h

theorem toValue_injective {l k : Literal} (h : l.toValue = k.toValue) : l = k := by
  cases l <;> cases k <;> cases h <;> rfl

/-- The value of a literal is exactly that literal, unless it is only found by what it denotes. -/
theorem isExactly_toValue (l : Literal) : isExactly l.toValue l = !isLoose l := by
  cases l with
  | null | float => rfl
  | bool b | text s => exact beq_self_eq_true _
  | int n =>
    have hint : isExactly (.int n) (.int n) =
        (decide (n = n) && decide (n.natAbs < Coercion.wordLimit)) := rfl
    rw [Literal.toValue.eq_def, hint, decide_eq_true rfl, Bool.true_and, isLoose, ← decide_not]
    exact decide_eq_decide.mpr Nat.not_le.symm

theorem eq_of_isExactly_toValue {l k : Literal} (h : isExactly l.toValue k = true) : k = l :=
  (toValue_injective (eq_toValue_of_isExactly h)).symm

theorem find?_isExactly_of_isLoose {values : List Literal} {l : Literal} (h : isLoose l = true) :
    values.find? (isExactly l.toValue) = none := by
  rw [List.find?_eq_none]
  intro k _ hk
  rw [eq_of_isExactly_toValue hk, isExactly_toValue, h] at hk
  cases hk

theorem find?_isExactly_of_mem {values : List Literal} {l : Literal} (hl : l ∈ values)
    (h : isLoose l = false) : values.find? (isExactly l.toValue) = some l := by
  have hsome : (values.find? (isExactly l.toValue)).isSome = true :=
    List.find?_isSome.mpr ⟨l, hl, by rw [isExactly_toValue, h]; rfl⟩
  obtain ⟨k, hk⟩ := Option.isSome_iff_exists.mp hsome
  rw [hk, eq_of_isExactly_toValue (List.find?_some hk)]

theorem findListed_again {values : List Literal} {v : Value} {l : Literal}
    (h : findListed values v = some l) : findListed values l.toValue = some l := by
  have hl := mem_of_findListed h
  cases hloose : isLoose l with
  | false => rw [findListed, find?_isExactly_of_mem hl hloose]
  | true =>
    rw [findListed, find?_isExactly_of_isLoose hloose]
    unfold findListed at h
    split at h
    · rename_i hexact
      cases h
      have he := List.find?_some hexact
      rw [eq_toValue_of_isExactly he, isExactly_toValue, hloose] at he
      cases he
    · dsimp only at h ⊢
      split at h
      · rename_i hfound
        cases h
        rw [← denotesSame_congr (List.find?_some hfound), hfound]
      · have hfirm := List.mem_reverse.mp (List.mem_of_find?_eq_some h)
        rw [List.partition_eq_filter_filter, List.mem_filter, Function.comp_apply, hloose] at hfirm
        cases hfirm.2

/-- What a reader of one type gives is read as it is and passes the same checks again. -/
theorem settle_again {wrap : α → Value} {against : α → Option Cause} {read : Value → Coerced α}
    (hread : ∀ a, read (wrap a) = .ok (a, .exact)) {v w : Value} {fit : Fit}
    (h : settle wrap against (read v) = .ok (w, fit)) :
    (∃ a, w = wrap a) ∧ settle wrap against (read w) = .ok (w, .exact) := by
  obtain ⟨a, e, -, hagainst, rfl, rfl⟩ := settle_eq_ok h
  refine ⟨⟨a, rfl⟩, ?_⟩
  rw [hread, settle, hagainst]
  rfl

end Row

end Tablewright
