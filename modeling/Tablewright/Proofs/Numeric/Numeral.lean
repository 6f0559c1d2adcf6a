import Tablewright.Numeric.Decimal

namespace Tablewright

def isNumeralChar (c : Char) : Bool := c.isAlphanum || c == '.' || c == '+' || c == '-'

def IsNumeral (s : String) : Prop := s.toList ≠ [] ∧ s.toList.all isNumeralChar = true

def noCapital (cs : List Char) : Bool := cs.all fun c => !c.isUpper

theorem noCapital_append (xs ys : List Char) :
    noCapital (xs ++ ys) = (noCapital xs && noCapital ys) :=
  List.all_append

theorem noCapital_toDigits (n : Nat) : noCapital (Nat.toDigits 10 n) = true := by
  rw [noCapital, List.all_eq_true]
  intro c hc
  have hd : 48 ≤ c.toNat ∧ c.toNat ≤ 57 := by
    simpa [Char.isDigit, UInt32.le_iff_toNat_le] using
      Nat.isDigit_of_mem_toDigits (by decide) (by decide) hc
  have hc : c.isUpper = false := by
    have hnine : c.toNat < 'A'.toNat := Nat.lt_of_le_of_lt hd.2 (by decide)
    refine decide_eq_false fun hc => ?_
    have hletter : 'A'.toNat ≤ c.toNat := UInt32.le_iff_toNat_le.mp hc.1
    omega
  rw [hc]
  rfl

theorem noCapital_numeral (n : Int) : noCapital (numeral n).toList = true := by
  have hd := noCapital_toDigits n.natAbs
  rw [← Nat.toList_repr] at hd
  unfold numeral
  split
  · rw [String.toList_append, noCapital_append, hd]
    rfl
  · exact hd

theorem noCapital_zeros (n : Nat) : noCapital (List.replicate n '0') = true := by
  rw [noCapital, List.all_eq_true]
  intro c hc
  rw [List.eq_of_mem_replicate hc]
  rfl

theorem noCapital_positional {ds : List Char} (h : noCapital ds = true) (point : Int) :
    noCapital (Binary64.positional ds point ".0").toList = true := by
  have hall := List.all_eq_true.mp h
  have htake : noCapital (ds.take point.toNat) = true :=
    List.all_eq_true.mpr fun c hc => hall c (List.mem_of_mem_take hc)
  have hdrop : noCapital (ds.drop point.toNat) = true :=
    List.all_eq_true.mpr fun c hc => hall c (List.mem_of_mem_drop hc)
  unfold Binary64.positional
  split
  · simp only [String.toList_append, String.toList_ofList, noCapital_append, noCapital_zeros, h]
    rfl
  · split
    · simp only [String.toList_append, String.toList_ofList, noCapital_append, noCapital_zeros, h]
      rfl
    · simp only [String.toList_append, String.toList_ofList, noCapital_append, htake, hdrop]
      rfl

theorem noCapital_scientific {ds : List Char} (h : noCapital ds = true) (exponent : Int) :
    noCapital (Binary64.scientific ds exponent).toList = true := by
  have he := noCapital_toDigits exponent.natAbs
  rw [← Nat.toList_repr] at he
  have hsign : noCapital (if exponent < 0 then "-" else "+").toList = true := by split <;> rfl
  have hmark : noCapital "e".toList = true := rfl
  simp only [Binary64.scientific, padLeft, String.toList_append, String.toList_ofList,
    noCapital_append, noCapital_zeros, he, hsign, hmark, Bool.and_true]
  split
  · rwa [String.toList_ofList]
  · rw [String.toList_ofList]
    exact h
  · rfl

theorem noCapital_binary64 (x : Binary64) : noCapital x.text.toList = true := by
  cases x with
  | nan => rfl
  | infinity s => cases s <;> rfl
  | finite s u =>
    have hd : noCapital (Binary64.shortestDigits u).1 = true := by
      unfold Binary64.shortestDigits
      split
      · rfl
      · exact noCapital_toDigits _
    have hbody : noCapital (if -4 < (Binary64.shortestDigits u).2 &&
        (Binary64.shortestDigits u).2 ≤ 16 then
          Binary64.positional (Binary64.shortestDigits u).1 (Binary64.shortestDigits u).2 ".0"
        else Binary64.scientific (Binary64.shortestDigits u).1
          ((Binary64.shortestDigits u).2 - 1)).toList = true := by
      split
      · exact noCapital_positional hd _
      · exact noCapital_scientific hd _
    cases s with
    | false => exact hbody
    | true =>
      have hminus : (Binary64.finite true u).text.toList = "-".toList ++ _ :=
        String.toList_append
      rw [hminus, noCapital_append]
      exact hbody

end Tablewright
