import Mathlib.Data.List.Basic
import Tablewright.Proofs.Numeric.Signed
import Tablewright.Text.Json

namespace Tablewright.Json

/-- The units of sixteen bits that a code point is made of. -/
def utf16 (n : Nat) : List Nat :=
  if n < 0x10000 then [n] else [0xd800 + (n - 0x10000) / 0x400, 0xdc00 + (n - 0x10000) % 0x400]

def isHalf (n : Nat) : Bool := 0xd800 ≤ n && n ≤ 0xdfff

/-- The characters that are made of some units, if every half has its other half behind it. -/
def ofUtf16? : List Nat → Option (List Char)
  | [] => some []
  | n :: ns =>
    if isHalf n then
      match ns with
      | m :: more =>
        if n < 0xdc00 && 0xdc00 ≤ m && m ≤ 0xdfff then
          (ofUtf16? more).map (Char.ofNat (0x10000 + (n - 0xd800) * 0x400 + (m - 0xdc00)) :: ·)
        else none
      | [] => none
    else (ofUtf16? ns).map (Char.ofNat n :: ·)

theorem ofUtf16?_utf16 (c : Char) (ns : List Nat) :
    ofUtf16? (utf16 c.toNat ++ ns) = (ofUtf16? ns).map (c :: ·) := by
  have hvalid : c.toNat < 0xd800 ∨ 0xdfff < c.toNat ∧ c.toNat < 0x110000 := c.valid
  unfold utf16
  split
  · have hhalf : isHalf c.toNat = false := by
      simp only [isHalf, Bool.and_eq_false_iff, decide_eq_false_iff_not]
      omega
    rw [List.cons_append, List.nil_append, ofUtf16?.eq_def]
    simp [hhalf, Char.ofNat_toNat]
  · have hhalf : isHalf (0xd800 + (c.toNat - 0x10000) / 0x400) = true := by
      simp only [isHalf, Bool.and_eq_true, decide_eq_true_eq]
      omega
    have hpair : (decide (0xd800 + (c.toNat - 0x10000) / 0x400 < 0xdc00)
        && decide (0xdc00 ≤ 0xdc00 + (c.toNat - 0x10000) % 0x400)
        && decide (0xdc00 + (c.toNat - 0x10000) % 0x400 ≤ 0xdfff)) = true := by
      simp only [Bool.and_eq_true, decide_eq_true_eq]
      omega
    have hvalue : 0x10000 + (0xd800 + (c.toNat - 0x10000) / 0x400 - 0xd800) * 0x400
        + (0xdc00 + (c.toNat - 0x10000) % 0x400 - 0xdc00) = c.toNat := by
      omega
    rw [List.cons_append, List.cons_append, List.nil_append, ofUtf16?, if_pos hhalf,
      if_pos hpair, hvalue, Char.ofNat_toNat]

theorem ofUtf16?_flatMap (cs : List Char) :
    ofUtf16? ((cs.map Char.toNat).flatMap utf16) = some cs := by
  induction cs with
  | nil => rfl
  | cons c cs ih =>
    rw [List.map_cons, List.flatMap_cons, ofUtf16?_utf16, ih]
    rfl

def hexDigit? (c : Char) : Option Nat :=
  if '0' ≤ c ∧ c ≤ '9' then some (c.toNat - '0'.toNat)
  else if 'a' ≤ c ∧ c ≤ 'f' then some (c.toNat - 'a'.toNat + 10)
  else if 'A' ≤ c ∧ c ≤ 'F' then some (c.toNat - 'A'.toNat + 10)
  else none

def hexNumber? (cs : List Char) : Option Nat :=
  cs.foldlM (fun n c => (hexDigit? c).map (16 * n + ·)) 0

theorem hexDigit?_digitChar : ∀ d < 16, hexDigit? d.digitChar = some d := by decide

theorem hexNumber?_toDigits (n : Nat) : hexNumber? (Nat.toDigits 16 n) = some n := by
  induction n using Nat.strongRecOn with
  | ind n ih =>
    rw [Nat.toDigits_eq_if (by decide)]
    split
    · rename_i hn
      simp [hexNumber?, hexDigit?_digitChar n hn]
    · have hrest := ih (n / 16) (by omega)
      rw [hexNumber?] at hrest
      simp only [hexNumber?, List.foldlM_append, hrest, Option.bind_eq_bind, Option.bind_some,
        List.foldlM_cons, hexDigit?_digitChar (n % 16) (by omega), Option.map_some,
        List.foldlM_nil, Option.pure_def, Nat.div_add_mod]

theorem hexNumber?_hex (width n : Nat) : hexNumber? (Notation.hex width n) = some n := by
  have hzeros (k : Nat) (cs : List Char) :
      hexNumber? (List.replicate k '0' ++ cs) = hexNumber? cs := by
    induction k with
    | zero => rfl
    | succ k ih => exact ih
  rw [Notation.hex, hzeros, hexNumber?_toDigits]

theorem exists_hex {n : Nat} (h : n < 0x10000) :
    ∃ a b c d, Notation.hex 4 n = [a, b, c, d] ∧ hexNumber? [a, b, c, d] = some n := by
  have hshort : (Nat.toDigits 16 n).length ≤ 4 :=
    (Nat.length_toDigits_le_iff (by decide) (by decide)).mpr h
  have hlength : (Notation.hex 4 n).length = 4 := by
    rw [Notation.hex, List.length_append, List.length_replicate]
    omega
  have hvalue := hexNumber?_hex 4 n
  match hd : Notation.hex 4 n, hlength with
  | [a, b, c, d], _ => exact ⟨a, b, c, d, rfl, hd ▸ hvalue⟩

def shorthand? : Char → Option Char
  | '"' => some '"'
  | '\\' => some '\\'
  | '/' => some '/'
  | 'b' => some '\x08'
  | 'f' => some '\x0c'
  | 'n' => some '\n'
  | 'r' => some '\r'
  | 't' => some '\t'
  | _ => none

/-- The units of a text, read from behind the quote that opens it, and what follows the quote that
closes it. Control characters stand in no text. -/
def readUnits? : List Char → Option (List Nat × List Char)
  | [] => none
  | '"' :: cs => some ([], cs)
  | '\\' :: 'u' :: a :: b :: c :: d :: cs =>
    match hexNumber? [a, b, c, d], readUnits? cs with
    | some n, some (ns, rest) => some (n :: ns, rest)
    | _, _ => none
  | '\\' :: c :: cs =>
    match shorthand? c, readUnits? cs with
    | some e, some (ns, rest) => some (utf16 e.toNat ++ ns, rest)
    | _, _ => none
  | c :: cs =>
    if c.toNat < 0x20 || c = '\\' then none
    else (readUnits? cs).map fun (ns, rest) => (utf16 c.toNat ++ ns, rest)

def readText? (cs : List Char) : Option (String × List Char) :=
  match readUnits? cs with
  | none => none
  | some (ns, rest) => (ofUtf16? ns).map fun s => (String.ofList s, rest)

theorem length_lt_of_readUnits? {cs rest : List Char} {ns : List Nat}
    (h : readUnits? cs = some (ns, rest)) : rest.length < cs.length := by
  fun_induction readUnits? cs generalizing ns with
  | case1 => cases h
  | case2 cs =>
    cases h
    simp
  | case3 a b c d cs n ms more hm hn ih =>
    cases h
    have := ih hm
    simp only [List.length_cons]
    omega
  | case4 => cases h
  | case5 c cs hu e ms more hm he ih =>
    cases h
    have := ih hm
    simp only [List.length_cons]
    omega
  | case6 => cases h
  | case7 => cases h
  | case8 c cs _ _ _ _ ih =>
    obtain ⟨⟨ms, more⟩, hm, he⟩ := Option.map_eq_some_iff.mp h
    cases he
    have := ih hm
    simp only [List.length_cons]
    omega

theorem length_lt_of_readText? {cs rest : List Char} {s : String}
    (h : readText? cs = some (s, rest)) : rest.length < cs.length := by
  unfold readText? at h
  split at h
  · cases h
  · rename_i ns more hns
    obtain ⟨t, -, he⟩ := Option.map_eq_some_iff.mp h
    cases he
    exact length_lt_of_readUnits? hns

theorem lt_of_mem_utf16 {n : Nat} (hn : n < 0x110000) : ∀ m ∈ utf16 n, m < 0x10000 := by
  unfold utf16
  split
  · rename_i hsmall
    exact List.forall_mem_singleton.mpr hsmall
  · refine List.forall_mem_cons.mpr ⟨?_, List.forall_mem_singleton.mpr ?_⟩
    · omega
    · omega

theorem toNat_ofNat {n : Nat} (hn : n < 0xd800) : (Char.ofNat n).toNat = n := by
  have hvalid : n.isValidChar := .inl hn
  rw [Char.ofNat, dif_pos hvalid]
  rfl

/-- The ways in which a code point may be escaped: by a letter that stands for it, not at all, or
unit by unit. -/
inductive Escaped : Nat → List Char → Prop
  | shorthand {letter c : Char} (h : shorthand? letter = some c) : Escaped c.toNat ['\\', letter]
  | plain {c : Char} (hvisible : 0x20 ≤ c.toNat ∧ c.toNat ≤ 0x7e) (hquote : c ≠ '"')
      (hslash : c ≠ '\\') : Escaped c.toNat [c]
  | units (n : Nat) : Escaped n ((utf16 n).flatMap escapeUnit)

theorem escaped (n : Nat) : Escaped n (escapePoint n) := by
  unfold escapePoint
  split
  · rename_i h
    rw [Bool.or_eq_true, decide_eq_true_eq, decide_eq_true_eq] at h
    obtain rfl | rfl := h
    · exact @Escaped.shorthand _ '"' rfl
    · exact @Escaped.shorthand _ '\\' rfl
  rename_i hplain
  rw [Bool.or_eq_true, decide_eq_true_eq, decide_eq_true_eq, not_or] at hplain
  split
  · subst n
    exact @Escaped.shorthand _ '\n' rfl
  split
  · subst n
    exact @Escaped.shorthand _ '\r' rfl
  split
  · subst n
    exact @Escaped.shorthand _ '\t' rfl
  split
  · subst n
    exact @Escaped.shorthand _ '\x08' rfl
  split
  · subst n
    exact @Escaped.shorthand _ '\x0c' rfl
  split
  · rename_i hvisible
    rw [Bool.and_eq_true, decide_eq_true_eq, decide_eq_true_eq] at hvisible
    have hn : (Char.ofNat n).toNat = n := toNat_ofNat (by omega)
    have hne {c : Char} (hc : n ≠ c.toNat) : Char.ofNat n ≠ c := by
      rintro rfl
      exact hc hn.symm
    have hescaped := @Escaped.plain (Char.ofNat n) (by rwa [hn]) (hne hplain.1) (hne hplain.2)
    rwa [hn] at hescaped
  -- What is left is written in units: in one, or beyond sixteen bits in both halves of a pair.
  have hunits : Escaped n ((utf16 n).flatMap escapeUnit) := .units n
  split
  · rename_i hsmall
    simpa [utf16, hsmall] using hunits
  · rename_i hlarge
    simpa [utf16, hlarge] using hunits

section

variable (cs : List Char)

theorem readUnits?_unit {n : Nat} (h : n < 0x10000) :
    readUnits? (escapeUnit n ++ cs) = (readUnits? cs).map fun (ns, rest) => (n :: ns, rest) := by
  obtain ⟨a, b, c, d, hdigits, hvalue⟩ := exists_hex h
  rw [escapeUnit, hdigits]
  simp only [List.cons_append, List.nil_append, readUnits?, hvalue]
  cases readUnits? cs <;> rfl

theorem readUnits?_shorthand {c e : Char} (h : shorthand? c = some e) :
    readUnits? ('\\' :: c :: cs) =
      (readUnits? cs).map fun (ns, rest) => (utf16 e.toNat ++ ns, rest) := by
  rw [readUnits?, h]
  · cases readUnits? cs <;> rfl
  · rintro a b c d ds rfl -
    cases h

theorem readUnits?_plain {c : Char} (hlow : 0x20 ≤ c.toNat) (hquote : c ≠ '"')
    (hslash : c ≠ '\\') :
    readUnits? (c :: cs) =
      (readUnits? cs).map fun (ns, rest) => (utf16 c.toNat ++ ns, rest) := by
  have hplain : ¬(decide (c.toNat < 0x20) || decide (c = '\\')) = true := by
    simp [hslash, Nat.not_lt.mpr hlow]
  rw [readUnits?, if_neg hplain]
  · exact hquote
  · exact fun _ _ _ _ _ he => absurd he hslash
  · exact fun _ _ he => absurd he hslash

theorem readUnits?_units {ns : List Nat} (h : ∀ n ∈ ns, n < 0x10000) :
    readUnits? (ns.flatMap escapeUnit ++ cs) =
      (readUnits? cs).map fun (ms, rest) => (ns ++ ms, rest) := by
  induction ns with
  | nil => simp
  | cons n ns ih =>
    obtain ⟨hn, hns⟩ := List.forall_mem_cons.mp h
    rw [List.flatMap_cons, List.append_assoc, readUnits?_unit _ hn, ih hns, Option.map_map]
    rfl

theorem readUnits?_escapePoint {n : Nat} (hn : n < 0x110000) :
    readUnits? (escapePoint n ++ cs) =
      (readUnits? cs).map fun (ns, rest) => (utf16 n ++ ns, rest) := by
  have h := escaped n
  generalize escapePoint n = written at h ⊢
  cases h with
  | shorthand h => exact readUnits?_shorthand cs h
  | plain hvisible hquote hslash => exact readUnits?_plain cs hvisible.1 hquote hslash
  | units => exact readUnits?_units cs (lt_of_mem_utf16 hn)

/-- The characters between the quotes are read as the units of the code points put there. -/
theorem readUnits?_points {points : List Nat} (h : ∀ n ∈ points, n < 0x110000) :
    readUnits? (points.flatMap escapePoint ++ '"' :: cs) = some (points.flatMap utf16, cs) := by
  induction points with
  | nil => rfl
  | cons n points ih =>
    obtain ⟨hn, hpoints⟩ := List.forall_mem_cons.mp h
    rw [List.flatMap_cons, List.append_assoc, readUnits?_escapePoint _ hn, ih hpoints]
    rfl

theorem readText?_points (s : String) :
    readText? ((s.toList.map Char.toNat).flatMap escapePoint ++ '"' :: cs) = some (s, cs) := by
  have hvalid : ∀ n ∈ s.toList.map Char.toNat, n < 0x110000 := by
    intro n hn
    obtain ⟨c, -, rfl⟩ := List.mem_map.mp hn
    have hc : c.toNat < 0xd800 ∨ 0xdfff < c.toNat ∧ c.toNat < 0x110000 := c.valid
    omega
  rw [readText?, readUnits?_points cs hvalid]
  dsimp only
  rw [ofUtf16?_flatMap, Option.map_some, String.ofList_toList]

end

theorem escapePoint_of_half {n : Nat} (h : 0xd800 ≤ n) (hn : n < 0x10000) :
    escapePoint n = escapeUnit n := by
  simp only [escapePoint, Char.reduceToNat, Bool.or_eq_true, Bool.and_eq_true, decide_eq_true_eq]
  rw [if_neg (by omega), if_neg (by omega), if_neg (by omega), if_neg (by omega),
    if_neg (by omega), if_neg (by omega), if_neg (by omega), if_pos hn]

theorem flatMap_escapePoint_utf16 {n : Nat} (hn : n < 0x110000) :
    (utf16 n).flatMap escapePoint = escapePoint n := by
  unfold utf16
  split
  · simp
  · rename_i hlarge
    have hwritten : escapePoint n = escapeUnit (0xd800 + (n - 0x10000) / 0x400) ++
        escapeUnit (0xdc00 + (n - 0x10000) % 0x400) := by
      simp only [escapePoint, Char.reduceToNat, Bool.or_eq_true, Bool.and_eq_true,
        decide_eq_true_eq]
      rw [if_neg (by omega), if_neg (by omega), if_neg (by omega), if_neg (by omega),
        if_neg (by omega), if_neg (by omega), if_neg (by omega), if_neg hlarge]
    rw [hwritten, List.flatMap_cons, List.flatMap_cons, List.flatMap_nil, List.append_nil,
      escapePoint_of_half (by omega) (by omega), escapePoint_of_half (by omega) (by omega)]

/-- Two strings of code points are written alike when, and only when, they have the same units: a
point beyond sixteen bits is not told from the two halves of its pair. -/
theorem quotePoints_eq_iff {points others : List Nat} (hp : ∀ n ∈ points, n < 0x110000)
    (ho : ∀ n ∈ others, n < 0x110000) :
    quotePoints points = quotePoints others ↔ points.flatMap utf16 = others.flatMap utf16 := by
  constructor
  · intro h
    have htail : points.flatMap escapePoint ++ ['"'] = others.flatMap escapePoint ++ ['"'] :=
      List.tail_eq_of_cons_eq h
    have hread := readUnits?_points [] hp
    rw [htail, readUnits?_points [] ho] at hread
    exact (Prod.mk.inj (Option.some.inj hread)).1.symm
  · intro h
    have hunits {ns : List Nat} (hn : ∀ n ∈ ns, n < 0x110000) :
        ns.flatMap escapePoint = (ns.flatMap utf16).flatMap escapePoint := by
      rw [List.flatMap_assoc]
      exact List.flatMap_congr fun n hm => (flatMap_escapePoint_utf16 (hn n hm)).symm
    rw [quotePoints, quotePoints, hunits hp, hunits ho, h]

/-- Characters between blank and tilde, none of which ends a line. -/
def IsVisible (cs : List Char) : Prop := ∀ c ∈ cs, 0x20 ≤ c.toNat ∧ c.toNat ≤ 0x7e

namespace IsVisible

instance : DecidablePred IsVisible := fun cs => List.decidableBAll _ cs

theorem append {cs ds : List Char} (hc : IsVisible cs) (hd : IsVisible ds) :
    IsVisible (cs ++ ds) :=
  List.forall_mem_append.mpr ⟨hc, hd⟩

theorem cons {c : Char} (hc : 0x20 ≤ c.toNat ∧ c.toNat ≤ 0x7e) {cs : List Char}
    (h : IsVisible cs) : IsVisible (c :: cs) :=
  List.forall_mem_cons.mpr ⟨hc, h⟩

theorem digitChar : ∀ d < 16, IsVisible [d.digitChar] := by
  decide

theorem toDigits (n : Nat) : IsVisible (Nat.toDigits 16 n) := by
  induction n using Nat.strongRecOn with
  | ind n ih =>
    rw [Nat.toDigits_eq_if (by decide)]
    split
    · rename_i hn
      exact digitChar n hn
    · exact (ih (n / 16) (by omega)).append (digitChar (n % 16) (by omega))

theorem escapeUnit (n : Nat) : IsVisible (escapeUnit n) := by
  have hzeros : IsVisible (List.replicate (4 - (Nat.toDigits 16 n).length) '0') := by
    intro c hc
    rw [List.eq_of_mem_replicate hc]
    decide
  exact cons (by decide) (cons (by decide) (hzeros.append (toDigits n)))

theorem shorthand {letter c : Char} (h : shorthand? letter = some c) :
    0x20 ≤ letter.toNat ∧ letter.toNat ≤ 0x7e := by
  unfold shorthand? at h
  split at h <;> first | decide | cases h

theorem flatMap {α : Type} {f : α → List Char} (h : ∀ x, IsVisible (f x)) (xs : List α) :
    IsVisible (xs.flatMap f) := by
  intro c hc
  obtain ⟨x, -, hx⟩ := List.mem_flatMap.mp hc
  exact h x c hx

theorem escapePoint (n : Nat) : IsVisible (escapePoint n) := by
  have h := escaped n
  generalize Json.escapePoint n = written at h ⊢
  cases h with
  | shorthand h => exact cons (by decide) (cons (shorthand h) nofun)
  | plain hvisible _ _ => exact cons hvisible nofun
  | units => exact flatMap escapeUnit (utf16 n)

theorem quotePoints (points : List Nat) : IsVisible (quotePoints points) :=
  (cons (by decide) (flatMap escapePoint points)).append (cons (by decide) nofun)

theorem commas {parts : List (List Char)} (h : ∀ cs ∈ parts, IsVisible cs) :
    IsVisible (commas parts) := by
  induction parts with
  | nil => exact nofun
  | cons x xs ih =>
    obtain ⟨hx, hxs⟩ := List.forall_mem_cons.mp h
    cases xs with
    | nil => simpa [Json.commas] using hx
    | cons y ys =>
      have hseparator : IsVisible [',', ' '] := by decide
      rw [Json.commas, List.intercalate_cons_cons]
      exact (hx.append hseparator).append (ih hxs)

theorem enclosed {opening closing : Char} (ho : 0x20 ≤ opening.toNat ∧ opening.toNat ≤ 0x7e)
    (hc : 0x20 ≤ closing.toNat ∧ closing.toNat ≤ 0x7e) {cs : List Char} (h : IsVisible cs) :
    IsVisible (opening :: cs ++ [closing]) :=
  (cons ho h).append (cons hc nofun)

theorem alphanum {c : Char} (h : c.isAlphanum = true) : 0x20 ≤ c.toNat ∧ c.toNat ≤ 0x7e := by
  have halphanum : c.isAlphanum = (c.isUpper || c.isLower || c.isDigit) := rfl
  have hupper : c.isUpper = decide (65 ≤ c.toNat ∧ c.toNat ≤ 90) := rfl
  have hlower : c.isLower = (decide (97 ≤ c.toNat) && decide (c.toNat ≤ 122)) := rfl
  have hdigit : c.isDigit = (decide (48 ≤ c.toNat) && decide (c.toNat ≤ 57)) := rfl
  simp only [halphanum, hupper, hlower, hdigit, Bool.or_eq_true, Bool.and_eq_true,
    decide_eq_true_eq] at h
  omega

theorem of_isNumeral {s : String} (h : IsNumeral s) : IsVisible s.toList := by
  intro c hc
  have hchar := List.all_eq_true.mp h.2 c hc
  rw [isNumeralChar, Bool.or_eq_true, Bool.or_eq_true, Bool.or_eq_true, beq_iff_eq, beq_iff_eq,
    beq_iff_eq] at hchar
  obtain ((hc | rfl) | rfl) | rfl := hchar
  · exact alphanum hc
  · decide
  · decide
  · decide

theorem float (x : Binary64) : IsVisible (float64 x).toList := by
  cases x with
  | nan => decide
  | infinity negative => cases negative <;> decide
  | finite negative units => exact of_isNumeral (IsNumeral.binary64 _)

end IsVisible

mutual

theorem visible_encode : ∀ j : Json, IsVisible j.encode
  | .null => by decide
  | .bool b => by cases b <;> decide
  | .int n => .of_isNumeral (IsNumeral.numeral n)
  | .float x => .float x
  | .text s => .quotePoints _
  | .list items => .enclosed (by decide) (by decide) (.commas (visible_encodeItems items))
  | .object fields => .enclosed (by decide) (by decide) (.commas (visible_encodeFields fields))

theorem visible_encodeItems : ∀ js : List Json, ∀ cs ∈ encodeItems js, IsVisible cs
  | [] => nofun
  | j :: js => List.forall_mem_cons.mpr ⟨visible_encode j, visible_encodeItems js⟩

theorem visible_encodeFields : ∀ fs : List (String × Json), ∀ cs ∈ encodeFields fs, IsVisible cs
  | [] => nofun
  | (name, j) :: fs => List.forall_mem_cons.mpr
      ⟨(IsVisible.quotePoints _).append (.cons (by decide) (.cons (by decide) (visible_encode j))),
        visible_encodeFields fs⟩

end

end Tablewright.Json
