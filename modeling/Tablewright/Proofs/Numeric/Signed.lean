import Tablewright.Proofs.Numeric.Numeral

namespace Tablewright

def IsDigits (ds : List Char) : Prop := ds ≠ [] ∧ ∀ d ∈ ds, d.isDigit = true

namespace IsDigits

theorem toDigits (n : Nat) : IsDigits (Nat.toDigits 10 n) :=
  ⟨Nat.toDigits_ne_nil, fun _ hd => Nat.isDigit_of_mem_toDigits (by decide) (by decide) hd⟩

theorem repr (n : Nat) : IsDigits (Nat.repr n).toList := by
  rw [Nat.toList_repr]
  exact toDigits n

theorem singleton {d : Char} (h : d.isDigit = true) : IsDigits [d] :=
  ⟨List.cons_ne_nil d [], List.forall_mem_singleton.mpr h⟩

theorem isDigit_of_mem_zeros {n : Nat} : ∀ d ∈ List.replicate n '0', d.isDigit = true := by
  intro d hd
  rw [List.eq_of_mem_replicate hd]
  rfl

variable {ds : List Char}

theorem zeros_append (h : IsDigits ds) (n : Nat) : IsDigits (List.replicate n '0' ++ ds) :=
  ⟨List.append_ne_nil_of_right_ne_nil _ h.1,
    List.forall_mem_append.mpr ⟨isDigit_of_mem_zeros, h.2⟩⟩

theorem append_zeros (h : IsDigits ds) (n : Nat) : IsDigits (ds ++ List.replicate n '0') :=
  ⟨List.append_ne_nil_of_left_ne_nil h.1 _,
    List.forall_mem_append.mpr ⟨h.2, isDigit_of_mem_zeros⟩⟩

theorem take (h : IsDigits ds) {n : Nat} (hn : 0 < n) : IsDigits (ds.take n) := by
  refine ⟨?_, fun d hd => h.2 d (List.mem_of_mem_take hd)⟩
  rw [ne_eq, List.take_eq_nil_iff, not_or]
  exact ⟨by omega, h.1⟩

theorem drop (h : IsDigits ds) {n : Nat} (hn : n < ds.length) : IsDigits (ds.drop n) := by
  refine ⟨?_, fun d hd => h.2 d (List.mem_of_mem_drop hd)⟩
  rw [ne_eq, List.drop_eq_nil_iff]
  omega

theorem padLeft (width : Nat) {s : String} (h : IsDigits s.toList) :
    IsDigits (padLeft width s).toList := by
  rw [Tablewright.padLeft, String.toList_append, String.toList_ofList]
  exact h.zeros_append _

end IsDigits

inductive IsSign : List Char → Prop
  | none : IsSign []
  | plus : IsSign ['+']
  | minus : IsSign ['-']

inductive IsFraction : List Char → Prop
  | none : IsFraction []
  | digits {ds : List Char} (h : IsDigits ds) : IsFraction ('.' :: ds)

/-- A mark, perhaps a sign, and digits, or nothing. -/
inductive IsExponent : List Char → Prop
  | none : IsExponent []
  | digits {mark : Char} {sign ds : List Char} (hm : mark = 'e' ∨ mark = 'E') (hs : IsSign sign)
    (hd : IsDigits ds) : IsExponent (mark :: (sign ++ ds))

def IsMantissa (cs : List Char) : Prop :=
  ∃ whole fraction, IsDigits whole ∧ IsFraction fraction ∧ cs = whole ++ fraction

def IsMagnitude (cs : List Char) : Prop :=
  ∃ mantissa exponent, IsMantissa mantissa ∧ IsExponent exponent ∧ cs = mantissa ++ exponent

def IsSigned (cs : List Char) : Prop :=
  ∃ sign magnitude, IsSign sign ∧ IsMagnitude magnitude ∧ cs = sign ++ magnitude

theorem IsDigits.isMantissa {ds : List Char} (h : IsDigits ds) : IsMantissa ds :=
  ⟨ds, [], h, .none, (List.append_nil ds).symm⟩

theorem IsMantissa.isMagnitude {cs : List Char} (h : IsMantissa cs) : IsMagnitude cs :=
  ⟨cs, [], h, .none, (List.append_nil cs).symm⟩

theorem IsMagnitude.isSigned {cs : List Char} (h : IsMagnitude cs) : IsSigned cs :=
  ⟨[], cs, .none, h, rfl⟩

theorem IsMagnitude.isSigned_negative {s : String} (h : IsMagnitude s.toList) (negative : Bool) :
    IsSigned (if negative then "-" ++ s else s).toList := by
  cases negative with
  | true => exact ⟨['-'], s.toList, .minus, h, String.toList_append⟩
  | false => exact h.isSigned

theorem IsSigned.head {cs : List Char} (h : IsSigned cs) :
    ∃ c rest, cs = c :: rest ∧ (c = '+' ∨ c = '-' ∨ c.isDigit = true) := by
  obtain ⟨sign, _, hs, ⟨_, _, ⟨whole, _, ⟨hn, hd⟩, -, rfl⟩, -, rfl⟩, rfl⟩ := h
  cases hs with
  | plus => exact ⟨'+', _, rfl, .inl rfl⟩
  | minus => exact ⟨'-', _, rfl, .inr (.inl rfl)⟩
  | none =>
    cases whole with
    | nil => exact absurd rfl hn
    | cons d ds => exact ⟨d, _, rfl, .inr (.inr (hd d List.mem_cons_self))⟩

theorem isNumeralChar_of_isDigit {c : Char} (h : c.isDigit = true) : isNumeralChar c = true := by
  simp [isNumeralChar, Char.isAlphanum, h]

theorem IsDigits.isNumeralChar {ds : List Char} (h : IsDigits ds) :
    ∀ c ∈ ds, isNumeralChar c = true :=
  fun c hc => isNumeralChar_of_isDigit (h.2 c hc)

theorem IsSign.isNumeralChar {cs : List Char} (h : IsSign cs) :
    ∀ c ∈ cs, isNumeralChar c = true := by
  rw [← List.all_eq_true]
  cases h <;> rfl

theorem IsFraction.isNumeralChar {cs : List Char} (h : IsFraction cs) :
    ∀ c ∈ cs, isNumeralChar c = true := by
  cases h with
  | none => exact fun c hc => nomatch hc
  | digits hd => exact List.forall_mem_cons.mpr ⟨rfl, hd.isNumeralChar⟩

theorem IsExponent.isNumeralChar {cs : List Char} (h : IsExponent cs) :
    ∀ c ∈ cs, isNumeralChar c = true := by
  cases h with
  | none => exact fun c hc => nomatch hc
  | digits hm hs hd =>
    refine List.forall_mem_cons.mpr ⟨?_, List.forall_mem_append.mpr
      ⟨hs.isNumeralChar, hd.isNumeralChar⟩⟩
    obtain rfl | rfl := hm <;> rfl

theorem IsSigned.isNumeral {s : String} (h : IsSigned s.toList) : IsNumeral s := by
  refine ⟨?_, List.all_eq_true.mpr ?_⟩
  · obtain ⟨c, rest, he, -⟩ := h.head
    rw [he]
    exact List.cons_ne_nil c rest
  · obtain ⟨_, _, hs, ⟨_, _, ⟨_, _, hw, hf, rfl⟩, he, rfl⟩, htext⟩ := h
    rw [htext, List.forall_mem_append, List.forall_mem_append, List.forall_mem_append]
    exact ⟨hs.isNumeralChar, ⟨hw.isNumeralChar, hf.isNumeralChar⟩, he.isNumeralChar⟩

theorem isSigned_numeral (n : Int) : IsSigned (numeral n).toList := by
  have h := (IsDigits.repr n.natAbs).isMantissa.isMagnitude
  unfold numeral
  split
  · exact h.isSigned_negative true
  · exact h.isSigned

theorem isMantissa_positional {ds : List Char} (h : IsDigits ds) (point : Int) {tail : String}
    (ht : IsFraction tail.toList) : IsMantissa (Binary64.positional ds point tail).toList := by
  unfold Binary64.positional
  split
  · exact ⟨['0'], _, .singleton rfl, .digits (h.zeros_append (-point).toNat), by simp⟩
  · split
    · exact ⟨_, tail.toList, h.append_zeros (point - ds.length).toNat, ht, by simp⟩
    · have hdrop : IsDigits (ds.drop point.toNat) := h.drop (by omega)
      exact ⟨ds.take point.toNat, _, h.take (by omega), .digits hdrop, by simp⟩

theorem isMagnitude_scientific {ds : List Char} (h : IsDigits ds) (exponent : Int) :
    IsMagnitude (Binary64.scientific ds exponent).toList := by
  have hp := (IsDigits.repr exponent.natAbs).padLeft 2
  have hs : IsSign (if exponent < 0 then "-" else "+").toList := by
    split
    · exact .minus
    · exact .plus
  have he := IsExponent.digits (.inl rfl) hs hp
  unfold Binary64.scientific
  split
  · rename_i d
    exact ⟨[d], _, h.isMantissa, he, by simp⟩
  · rename_i d rest hrest
    have hd : IsDigits [d] := .singleton (h.2 d List.mem_cons_self)
    have hr : IsDigits rest :=
      ⟨fun hnil => hrest (by rw [hnil]), fun c hc => h.2 c (List.mem_cons_of_mem d hc)⟩
    exact ⟨d :: '.' :: rest, _, ⟨[d], _, hd, .digits hr, rfl⟩, he, by simp⟩
  · exact absurd rfl h.1

theorem isDigits_shortestDigits (units : Nat) : IsDigits (Binary64.shortestDigits units).1 := by
  unfold Binary64.shortestDigits
  split
  · exact .singleton rfl
  · exact .toDigits _

theorem isSigned_binary64 {x : Binary64} (h : x.isFinite = true) : IsSigned x.text.toList := by
  cases x with
  | nan | infinity => cases h
  | finite negative units =>
    have hds := isDigits_shortestDigits units
    have hzero : IsFraction ".0".toList := .digits (.singleton rfl)
    unfold Binary64.text
    refine IsMagnitude.isSigned_negative ?_ negative
    split
    · exact (isMantissa_positional hds _ hzero).isMagnitude
    · exact isMagnitude_scientific hds _

theorem isExponent_decimal (left point : Int) :
    IsExponent (if left = point then ""
      else "E" ++ (if left < point then "-" else "+")
        ++ Nat.repr (left - point).natAbs).toList := by
  split
  · exact .none
  · have hs : IsSign (if left < point then "-" else "+").toList := by
      split
      · exact .minus
      · exact .plus
    have he := IsExponent.digits (.inr rfl) hs (.repr (left - point).natAbs)
    simpa using he

theorem isSigned_decimal {d : Decimal} (h : d.isFinite = true) : IsSigned d.text.toList := by
  cases d with
  | infinity | nan => cases h
  | finite negative digits exponent =>
    have hs : IsSign (if negative then "-" else "").toList := by
      cases negative with
      | true => exact .minus
      | false => exact .none
    have hm (point : Int) :
        IsMantissa (Binary64.positional (Nat.toDigits 10 digits) point "").toList :=
      isMantissa_positional (.toDigits digits) point .none
    unfold Decimal.text
    dsimp only
    rw [String.toList_append, String.toList_append, List.append_assoc]
    exact ⟨_, _, hs, ⟨_, _, hm _, isExponent_decimal _ _, rfl⟩, rfl⟩

namespace IsNumeral

theorem repr (n : Nat) : IsNumeral (Nat.repr n) :=
  (IsDigits.repr n).isMantissa.isMagnitude.isSigned.isNumeral

theorem numeral (n : Int) : IsNumeral (numeral n) := (isSigned_numeral n).isNumeral

theorem binary64 (x : Binary64) : IsNumeral x.text := by
  cases x with
  | nan => exact ⟨by decide, rfl⟩
  | infinity s => cases s <;> exact ⟨by decide, rfl⟩
  | finite s u =>
    have h : (Binary64.finite s u).isFinite = true := rfl
    exact (isSigned_binary64 h).isNumeral

end IsNumeral

end Tablewright
