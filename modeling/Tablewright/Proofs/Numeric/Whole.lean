import Mathlib.Algebra.Group.Nat.Defs
import Tablewright.Numeric.Reading
import Tablewright.Proofs.Numeric.Signed
import Tablewright.Proofs.Sql.Evaluation

namespace Tablewright

theorem hasNumeral_iff {n : Int} : hasNumeral n = true ↔ n.natAbs < 10 ^ digitLimit := by
  rw [hasNumeral, decide_eq_true_eq]
  exact Nat.length_toDigits_le_iff (by decide) (by decide)

/-- Decimal digits with single underscores between them. -/
inductive IsGrouped : List Char → Prop
  | single {d : Char} (h : d.isDigit = true) : IsGrouped [d]
  | next {d : Char} {cs : List Char} (h : d.isDigit = true) (rest : IsGrouped cs) :
      IsGrouped (d :: cs)
  | apart {d : Char} {cs : List Char} (h : d.isDigit = true) (rest : IsGrouped cs) :
      IsGrouped (d :: '_' :: cs)

def digitsOf (cs : List Char) : List Char := cs.filter Char.isDigit

theorem digitsOf_cons {d : Char} (h : d.isDigit = true) (cs : List Char) :
    digitsOf (d :: cs) = d :: digitsOf cs := List.filter_cons_of_pos h

theorem digitsOf_underscore (cs : List Char) : digitsOf ('_' :: cs) = digitsOf cs := rfl

theorem isDigit_of_mem_digitsOf {cs : List Char} : ∀ d ∈ digitsOf cs, d.isDigit = true :=
  fun _ hd => (List.mem_filter.mp hd).2

/-- The number that the digits of a text denote. -/
def magnitude (cs : List Char) : Nat := Nat.ofDigitChars 10 (digitsOf cs) 0

/-- An integer as a text may write it, and the number that it denotes: blanks aside, a sign and
grouped digits, which are not too many to be read. -/
def DenotesWhole (s : String) (n : Int) : Prop :=
  ∃ before sign body after, s.toList = before ++ (sign ++ body) ++ after ∧
    (∀ c ∈ before, isBlank c = true) ∧ (∀ c ∈ after, isBlank c = true) ∧ IsSign sign ∧
    IsGrouped body ∧ (digitsOf body).length ≤ 4300 ∧
    n = if sign = ['-'] then -(magnitude body : Int) else magnitude body

/-- The one way to write an integer: digits alone, or behind a minus sign, and no zero in front of
others or behind the sign. -/
inductive IsCanonical : List Char → Prop
  | zero : IsCanonical ['0']
  | positive {d : Char} {ds : List Char} (hd : d.isDigit = true) (hz : d ≠ '0')
      (hds : ∀ c ∈ ds, c.isDigit = true) : IsCanonical (d :: ds)
  | negative {d : Char} {ds : List Char} (hd : d.isDigit = true) (hz : d ≠ '0')
      (hds : ∀ c ∈ ds, c.isDigit = true) : IsCanonical ('-' :: d :: ds)

theorem toNat_of_isDigit {c : Char} (h : c.isDigit = true) : 48 ≤ c.toNat ∧ c.toNat ≤ 57 := by
  simpa [Char.isDigit, UInt32.le_iff_toNat_le] using h

theorem isBlank_of_isDigit {c : Char} (h : c.isDigit = true) : isBlank c = false := by
  obtain ⟨hlow, hhigh⟩ := toNat_of_isDigit h
  simp only [isBlank, isWhiteSpace, Bool.or_eq_false_iff, Bool.and_eq_false_iff,
    decide_eq_false_iff_not, beq_eq_false_iff_ne]
  omega

namespace IsGrouped

variable {cs : List Char}

theorem head (h : IsGrouped cs) : ∃ d rest, cs = d :: rest ∧ d.isDigit = true := by
  cases h with
  | single h => exact ⟨_, _, rfl, h⟩
  | next h _ => exact ⟨_, _, rfl, h⟩
  | apart h _ => exact ⟨_, _, rfl, h⟩

theorem last (h : IsGrouped cs) : ∃ front d, cs = front ++ [d] ∧ d.isDigit = true := by
  induction h with
  | single h => exact ⟨[], _, rfl, h⟩
  | @next d cs _ _ ih =>
    obtain ⟨front, e, rfl, he⟩ := ih
    exact ⟨d :: front, e, rfl, he⟩
  | @apart d cs _ _ ih =>
    obtain ⟨front, e, rfl, he⟩ := ih
    exact ⟨d :: '_' :: front, e, rfl, he⟩

theorem of_digits {ds : List Char} (hn : ds ≠ []) (h : ∀ d ∈ ds, d.isDigit = true) :
    IsGrouped ds := by
  induction ds with
  | nil => exact absurd rfl hn
  | cons d ds ih =>
    have hd := h d List.mem_cons_self
    cases ds with
    | nil => exact .single hd
    | cons e es => exact .next hd (ih (by simp) fun c hc => h c (List.mem_cons_of_mem d hc))

end IsGrouped

theorem ofDigits_map (ds : List Char) :
    ofDigits (ds.map fun d => d.toNat - '0'.toNat) = Nat.ofDigitChars 10 ds 0 := by
  rw [ofDigits, List.foldl_map, Nat.ofDigitChars_eq_foldl]

theorem takeSign_append {sign body : List Char} (hs : IsSign sign) (hb : IsGrouped body) :
    takeSign (sign ++ body) = (decide (sign = ['-']), body) := by
  cases hs with
  | plus => rfl
  | minus => rfl
  | none =>
    obtain ⟨d, rest, rfl, hd⟩ := hb.head
    have hminus : d ≠ '-' := by
      rintro rfl
      exact absurd hd (by decide)
    have hplus : d ≠ '+' := by
      rintro rfl
      exact absurd hd (by decide)
    rw [List.nil_append, takeSign]
    · rfl
    · exact fun _ he => hminus (List.cons.inj he).1
    · exact fun _ he => hplus (List.cons.inj he).1

section

variable {digit? : DigitReader}
  (hdigit : ∀ c : Char, c.isDigit = true → digit? c = some (c.toNat - '0'.toNat))

include hdigit

theorem dropSeparators_digit {d : Char} (h : d.isDigit = true) (b : Bool) (cs : List Char) :
    digit?.dropSeparators b (d :: cs) = (digit?.dropSeparators true cs).map (d :: ·) := by
  have hd : d ≠ '_' := by
    rintro rfl
    exact absurd h (by decide)
  rw [DigitReader.dropSeparators, if_neg hd, hdigit d h, Option.isSome_some]
  exact fun _ _ he => absurd he hd

theorem dropSeparators_apart {d : Char} (h : d.isDigit = true) (b : Bool) (cs : List Char) :
    digit?.dropSeparators true ('_' :: d :: cs) = digit?.dropSeparators b (d :: cs) := by
  rw [dropSeparators_digit hdigit h, DigitReader.dropSeparators, hdigit d h]
  rfl

theorem dropSeparators_grouped {cs : List Char} (h : IsGrouped cs) (b : Bool) :
    digit?.dropSeparators b cs = some (digitsOf cs) := by
  induction h generalizing b with
  | single h =>
    rw [dropSeparators_digit hdigit h, digitsOf_cons h]
    rfl
  | next h _ ih =>
    rw [dropSeparators_digit hdigit h, ih, digitsOf_cons h]
    rfl
  | apart h rest ih =>
    obtain ⟨e, es, rfl, he⟩ := rest.head
    rw [dropSeparators_digit hdigit h, dropSeparators_apart hdigit he false, ih, digitsOf_cons h,
      digitsOf_underscore]
    rfl

theorem digits_eq {ds : List Char} (h : ∀ d ∈ ds, d.isDigit = true) :
    digit?.digits ds = (ds.map fun d => d.toNat - '0'.toNat, []) := by
  induction ds with
  | nil => rfl
  | cons d ds ih =>
    rw [DigitReader.digits, hdigit d (h d List.mem_cons_self),
      ih fun c hc => h c (List.mem_cons_of_mem d hc)]
    rfl

theorem readInt?_grouped {sign body : List Char} (hs : IsSign sign) (hb : IsGrouped body)
    (hl : (digitsOf body).length ≤ 4300) :
    readInt? digit? (sign ++ body) =
      some (if sign = ['-'] then -(magnitude body : Int) else magnitude body) := by
  obtain ⟨d, rest, rfl, hd⟩ := hb.head
  have hvalue : ofDigits ((d :: digitsOf rest).map fun d => d.toNat - '0'.toNat) =
      magnitude (d :: rest) := by
    rw [ofDigits_map, magnitude, digitsOf_cons hd]
  have hlimit : ¬digitLimit < ((d :: digitsOf rest).map fun d => d.toNat - '0'.toNat).length := by
    rw [List.length_map, ← digitsOf_cons hd]
    exact Nat.not_lt.mpr hl
  rw [List.map_cons] at hvalue hlimit
  rw [readInt?, takeSign_append hs hb]
  dsimp only
  rw [dropSeparators_grouped hdigit hb]
  dsimp only
  rw [digits_eq hdigit isDigit_of_mem_digitsOf, digitsOf_cons hd, List.map_cons]
  dsimp only
  rw [if_neg hlimit, hvalue, withSign]
  simp

end

theorem digitValue?_of_isDigit {c : Char} (h : c.isDigit = true) :
    digitValue? c = some (c.toNat - '0'.toNat) := by
  obtain ⟨hlow, hhigh⟩ := toNat_of_isDigit h
  have hfind : digitZeros.find? (fun z => z ≤ c.toNat && c.toNat < z + 10) = some 0x30 := by
    unfold digitZeros
    rw [List.find?_cons]
    simp [hlow, Nat.lt_succ_of_le hhigh]
  rw [digitValue?, hfind]
  rfl

theorem trimBy_append {p : Char → Bool} {before core after : List Char}
    (hb : ∀ c ∈ before, p c = true) (ha : ∀ c ∈ after, p c = true) (hn : core ≠ [])
    (hf : ∀ c ∈ core.head?, p c = false) (hl : ∀ c ∈ core.getLast?, p c = false) :
    trimBy p (before ++ core ++ after) = core := by
  have hfront : ∀ c ∈ (core ++ after).head?, p c = false := by
    obtain ⟨c, cs, rfl⟩ := List.exists_cons_of_ne_nil hn
    exact hf
  have hback : ∀ c ∈ core.reverse.head?, p c = false := by
    rwa [List.head?_reverse]
  rw [trimBy, List.append_assoc, Sql.dropWhile_append_boundary hb hfront, List.reverse_append,
    Sql.dropWhile_append_boundary (fun c hc => ha c (List.mem_reverse.mp hc)) hback,
    List.reverse_reverse]

theorem isBlank_of_isSign {sign : List Char} (h : IsSign sign) : ∀ c ∈ sign, isBlank c = false := by
  cases h with
  | none => exact nofun
  | plus => exact List.forall_mem_singleton.mpr rfl
  | minus => exact List.forall_mem_singleton.mpr rfl

theorem DenotesWhole.readInt? {s : String} {n : Int} (h : DenotesWhole s n) :
    readInt? digitValue? (trimBy isBlank s.toList) = some n := by
  obtain ⟨before, sign, body, after, hs, hbefore, hafter, hsign, hbody, hlength, rfl⟩ := h
  obtain ⟨d, rest, hhead, hd⟩ := hbody.head
  obtain ⟨front, e, hlast, he⟩ := hbody.last
  have hfirst : ∀ c ∈ (sign ++ body).head?, isBlank c = false := by
    intro c hc
    rw [hhead] at hc
    cases sign with
    | nil => exact Option.some.inj hc ▸ isBlank_of_isDigit hd
    | cons s ss => exact isBlank_of_isSign hsign c (Option.some.inj hc ▸ List.mem_cons_self)
  have hfinal : ∀ c ∈ (sign ++ body).getLast?, isBlank c = false := by
    intro c hc
    rw [hlast, ← List.append_assoc, List.getLast?_concat] at hc
    exact Option.some.inj hc ▸ isBlank_of_isDigit he
  rw [hs, trimBy_append hbefore hafter (by simp [hhead]) hfirst hfinal]
  exact readInt?_grouped (fun _ => digitValue?_of_isDigit) hsign hbody hlength

theorem toDigits_leading {n : Nat} (h : 0 < n) :
    ∃ d ds, Nat.toDigits 10 n = d :: ds ∧ d ≠ '0' := by
  induction n using Nat.strongRecOn with
  | ind n ih =>
    rw [Nat.toDigits_eq_if (by decide)]
    split
    · have hd : n.digitChar ≠ '0' := by
        rw [ne_eq, Nat.digitChar_eq_zero]
        omega
      exact ⟨_, [], rfl, hd⟩
    · obtain ⟨d, ds, hds, hd⟩ := ih (n / 10) (by omega) (by omega)
      exact ⟨d, ds ++ [(n % 10).digitChar], by rw [hds]; rfl, hd⟩

theorem isCanonical_numeral (n : Int) : IsCanonical (numeral n).toList := by
  obtain ⟨-, hdigits⟩ := IsDigits.toDigits n.natAbs
  unfold numeral
  by_cases hn : n.natAbs = 0
  · have hzero : n = 0 := by omega
    subst hzero
    exact .zero
  · obtain ⟨d, ds, hds, hd⟩ := toDigits_leading (Nat.pos_of_ne_zero hn)
    rw [hds, List.forall_mem_cons] at hdigits
    split
    · rw [String.toList_append, Nat.toList_repr, hds]
      exact .negative hdigits.1 hd hdigits.2
    · rw [Nat.toList_repr, hds]
      exact .positive hdigits.1 hd hdigits.2

theorem digitsOf_toDigits (n : Nat) : digitsOf (Nat.toDigits 10 n) = Nat.toDigits 10 n :=
  List.filter_eq_self.mpr (IsDigits.toDigits n).2

theorem magnitude_toDigits (n : Nat) : magnitude (Nat.toDigits 10 n) = n := by
  rw [magnitude, digitsOf_toDigits, Nat.ofDigitChars_ten_toDigits]

theorem denotesWhole_numeral {n : Int} (h : (Nat.toDigits 10 n.natAbs).length ≤ 4300) :
    DenotesWhole (numeral n) n := by
  have hgrouped : IsGrouped (Nat.toDigits 10 n.natAbs) :=
    .of_digits Nat.toDigits_ne_nil (IsDigits.toDigits n.natAbs).2
  have hlength : (digitsOf (Nat.toDigits 10 n.natAbs)).length ≤ 4300 := by
    rwa [digitsOf_toDigits]
  unfold numeral
  split
  · refine ⟨[], ['-'], _, [], ?_, nofun, nofun, .minus, hgrouped, hlength, ?_⟩
    · simp
    · rw [if_pos rfl, magnitude_toDigits]
      omega
  · refine ⟨[], [], _, [], ?_, nofun, nofun, .none, hgrouped, hlength, ?_⟩
    · simp
    · rw [if_neg (by simp), magnitude_toDigits]
      omega

theorem ofDigitChars_lt {ds : List Char} (h : ∀ d ∈ ds, d.isDigit = true) (init : Nat) :
    Nat.ofDigitChars 10 ds init < (init + 1) * 10 ^ ds.length := by
  induction ds generalizing init with
  | nil => simp
  | cons d ds ih =>
    obtain ⟨hlow, hhigh⟩ := toNat_of_isDigit (h d List.mem_cons_self)
    have hdigit : 10 * init + (d.toNat - '0'.toNat) + 1 ≤ (init + 1) * 10 := by
      have hzero : '0'.toNat = 48 := rfl
      omega
    calc Nat.ofDigitChars 10 (d :: ds) init
        = Nat.ofDigitChars 10 ds (10 * init + (d.toNat - '0'.toNat)) := Nat.ofDigitChars_cons
      _ < (10 * init + (d.toNat - '0'.toNat) + 1) * 10 ^ ds.length :=
          ih (fun c hc => h c (List.mem_cons_of_mem d hc)) _
      _ ≤ (init + 1) * 10 * 10 ^ ds.length := Nat.mul_le_mul_right _ hdigit
      _ = (init + 1) * 10 ^ (d :: ds).length := by
          rw [Nat.mul_assoc, ← Nat.pow_succ', List.length_cons]

theorem DenotesWhole.length_le {s : String} {n : Int} (h : DenotesWhole s n) :
    (Nat.toDigits 10 n.natAbs).length ≤ 4300 := by
  obtain ⟨-, sign, body, -, -, -, -, -, hbody, hlength, rfl⟩ := h
  obtain ⟨d, rest, rfl, hd⟩ := hbody.head
  have hpos : 0 < (digitsOf (d :: rest)).length := by
    rw [digitsOf_cons hd]
    exact Nat.succ_pos _
  have hlt : magnitude (d :: rest) < 10 ^ (digitsOf (d :: rest)).length := by
    simpa [magnitude] using ofDigitChars_lt (@isDigit_of_mem_digitsOf (d :: rest)) 0
  have habs : (if sign = ['-'] then -(magnitude (d :: rest) : Int)
      else magnitude (d :: rest)).natAbs = magnitude (d :: rest) := by
    split <;> simp
  rw [habs]
  exact Nat.le_trans ((Nat.length_toDigits_le_iff (by decide) hpos).mpr hlt) hlength

theorem numeral_inj {m n : Int} : numeral m = numeral n ↔ m = n := by
  constructor
  · intro h
    have hread := Sql.readWhole?_numeral m
    rw [h, Sql.readWhole?_numeral n] at hread
    exact (Option.some.inj hread).symm
  · rintro rfl
    rfl

end Tablewright
