import Tablewright.Proofs.Numeric.Signed
import Tablewright.Proofs.Sql.Literal
import Tablewright.Sql.Default

namespace Tablewright

def Value.content : Value → Value
  | .member v => v
  | v => v

namespace Sql

/-- Whether a text denotes a finite number: blanks around it aside, it reads as an integer, or else
as a double that is finite. -/
def denotesNumber (s : String) : Bool :=
  (readInt? digitValue? (trimBy isBlank s.toList)).isSome
    || (readFloat? digitValue? (trimBy isBlank s.toList)).any Binary64.isFinite

/-- Whether a value denotes a finite number. Truth values and durations do, and a text if it reads
as one. -/
def isNumber : Value → Bool
  | .bool _ | .int _ | .duration _ => true
  | .float x => x.isFinite
  | .decimal d => d.isFinite
  | .text s => denotesNumber s
  | _ => false

theorem memberNumeral?_eq (v : Value) : memberNumeral? v = numeralOf? v.content := by
  cases v <;> rfl

theorem isSome_numeralOfText? (s : String) : (numeralOfText? s).isSome = denotesNumber s := by
  unfold numeralOfText? denotesNumber
  dsimp only
  cases readInt? digitValue? (trimBy isBlank s.toList) with
  | some n => rfl
  | none =>
    cases readFloat? digitValue? (trimBy isBlank s.toList) with
    | none => rfl
    | some x => cases hx : x.isFinite <;> simp [hx]

theorem isSome_numeralOf? (v : Value) : (numeralOf? v).isSome = isNumber v := by
  cases v with
  | float x => rw [numeralOf?, isNumber]; cases x.isFinite <;> rfl
  | decimal d => rw [numeralOf?, isNumber]; cases d.isFinite <;> rfl
  | text s => exact isSome_numeralOfText? s
  | _ => rfl

theorem isSigned_of_numeralOfText? {text s : String} (h : numeralOfText? text = some s) :
    IsSigned s.toList := by
  unfold numeralOfText? at h
  dsimp only at h
  split at h
  · cases h
    exact isSigned_numeral _
  · split at h
    · obtain ⟨hx, hs⟩ := Option.ite_none_right_eq_some.mp h
      cases hs
      exact isSigned_binary64 hx
    · cases h

theorem isSigned_of_numeralOf? {v : Value} {s : String} (h : numeralOf? v = some s) :
    IsSigned s.toList := by
  cases v with
  | bool b =>
    cases h
    cases b <;> exact (IsDigits.singleton rfl).isMantissa.isMagnitude.isSigned
  | int n =>
    cases h
    exact isSigned_numeral n
  | float x =>
    obtain ⟨hx, hs⟩ := Option.ite_none_right_eq_some.mp h
    cases hs
    exact isSigned_binary64 hx
  | decimal d =>
    obtain ⟨hd, hs⟩ := Option.ite_none_right_eq_some.mp h
    cases hs
    exact isSigned_decimal hd
  | duration d =>
    rw [← Option.some.inj h]
    exact isSigned_numeral d.wholeSeconds
  | text t => exact isSigned_of_numeralOfText? h
  | _ => cases h

theorem isSigned_of_memberNumeral? {v : Value} {s : String} (h : memberNumeral? v = some s) :
    IsSigned s.toList := by
  rw [memberNumeral?_eq] at h
  exact isSigned_of_numeralOf? h

/-- The forms of a literal: that of null, a number that stands by itself, and a text in quotes. -/
inductive Form
  | null
  | number
  | text (contents : List Char)

namespace Form

/-- Whether some characters, all of them, are a literal of a form. -/
def Fits (cs : List Char) : Form → Prop
  | .null => cs = "NULL".toList
  | .number => IsSigned cs
  | .text s => ∃ rest, cs = '\'' :: rest ∧ closeLiteral? rest = some (s, [])

theorem fits_quoted (v : Value) : (text v.storedText.toList).Fits (quoted v).toList := by
  rw [quoted, String.toList_ofList]
  have hend : StartsAnew [] := nofun
  exact ⟨_, rfl, closeLiteral?_encode _ hend⟩

theorem Fits.eq_quoted {cs s : List Char} (h : (text s).Fits cs) :
    cs = '\'' :: encode s ++ ['\''] := by
  obtain ⟨rest, rfl, hs⟩ := h
  rw [eq_encode_of_closeLiteral? hs]
  rfl

theorem Fits.unique {cs : List Char} {f g : Form} (hf : f.Fits cs) (hg : g.Fits cs) : f = g := by
  have hnull {cs : List Char} (h : IsSigned cs) : cs ≠ "NULL".toList := by
    rintro rfl
    obtain ⟨c, rest, he, hc⟩ := h.head
    cases he
    revert hc
    decide
  have hquote {cs : List Char} (h : IsSigned cs) (rest : List Char) : cs ≠ '\'' :: rest := by
    rintro rfl
    obtain ⟨c, rest, he, hc⟩ := h.head
    cases he
    revert hc
    decide
  cases f with
  | null =>
    cases g with
    | null => rfl
    | number => exact absurd hf (hnull hg)
    | text s =>
      obtain ⟨rest, he, -⟩ := hg
      cases hf.symm.trans he
  | number =>
    cases g with
    | null => exact absurd hg (hnull hf)
    | number => rfl
    | text s =>
      obtain ⟨rest, he, -⟩ := hg
      exact absurd he (hquote hf rest)
  | text s =>
    obtain ⟨rest, he, hs⟩ := hf
    cases g with
    | null => cases hg.symm.trans he
    | number => exact absurd he (hquote hg rest)
    | text t =>
      obtain ⟨more, he', ht⟩ := hg
      cases he.symm.trans he'
      cases hs.symm.trans ht
      rfl

end Form

def defaultForm (v : Value) (storage : Storage) : Form :=
  if v.isNull || storage = .null then .null
  else if storage = .boolean || (storage.isNumeric && isNumber v.content) then .number
  else .text v.storedText.toList

theorem fits_numeralOrQuoted (v : Value) :
    (if isNumber v.content then Form.number else .text v.storedText.toList).Fits
      ((memberNumeral? v).getD (quoted v)).toList := by
  rw [← isSome_numeralOf?, ← memberNumeral?_eq]
  cases h : memberNumeral? v with
  | none => exact Form.fits_quoted v
  | some s => exact isSigned_of_memberNumeral? h

theorem fits_defaultLiteral (v : Value) (storage : Storage) :
    (defaultForm v storage).Fits (defaultLiteral v storage).toList := by
  unfold defaultForm defaultLiteral
  cases hv : v.isNull with
  | true => exact rfl
  | false =>
    cases storage with
    | null => exact rfl
    | text | date | datetime | blob | bigint => exact Form.fits_quoted v
    | integer | real | float =>
      have h := fits_numeralOrQuoted v
      simpa [Storage.isTextual, Storage.isNumeric] using h
    | boolean =>
      have h : Form.number.Fits (if v.isTruthy then "1" else "0").toList := by
        split <;> exact (IsDigits.singleton rfl).isMantissa.isMagnitude.isSigned
      simpa [Storage.isTextual, Storage.isNumeric] using h

theorem defaultForm_eq_null_iff (v : Value) (storage : Storage) :
    defaultForm v storage = .null ↔ v = .null ∨ storage = .null := by
  rw [← Value.isNull_iff]
  unfold defaultForm
  split
  · simp_all
  · split <;> simp_all

theorem defaultForm_eq_number_iff (v : Value) (storage : Storage) :
    defaultForm v storage = .number ↔ v ≠ .null ∧ (storage = .boolean ∨
      storage ∈ [.integer, .real, .float] ∧ isNumber v.content = true) := by
  rw [ne_eq, ← Value.isNull_iff]
  unfold defaultForm
  cases hv : v.isNull with
  | true => simp
  | false => cases storage <;> simp [Storage.isNumeric]

theorem eq_of_defaultForm {v : Value} {storage : Storage} {s : List Char}
    (h : defaultForm v storage = .text s) : s = v.storedText.toList := by
  unfold defaultForm at h
  split at h
  · cases h
  · split at h
    · cases h
    · exact (Form.text.inj h).symm

theorem defaultLiteral_boolean {v : Value} (h : v ≠ .null) :
    defaultLiteral v .boolean = if v.isTruthy then "1" else "0" := by
  have hv : v.isNull = false := by simpa [← Value.isNull_iff] using h
  simp [defaultLiteral, hv, Storage.isTextual, Storage.isNumeric]

/-- A default is exactly one literal. It is null when the value or the type is; a number by itself
in a column of numbers, if the value denotes one, and in a column of truth values, as zero or one;
and otherwise the text of the value in quotes. -/
theorem defaultClause_form (v : Value) (storage : Storage) : ∃ form text,
    defaultClause v storage = "DEFAULT " ++ text ∧
    (∀ f : Form, f.Fits text.toList ↔ f = form) ∧
    (form = .null ↔ v = .null ∨ storage = .null) ∧
    (form = .number ↔ v ≠ .null ∧ (storage = .boolean ∨
      storage ∈ [.integer, .real, .float] ∧ isNumber v.content = true)) ∧
    (storage = .boolean → v ≠ .null → text = "0" ∨ text = "1") ∧
    ∀ s, form = .text s → s = v.storedText.toList := by
  have hfits := fits_defaultLiteral v storage
  refine ⟨defaultForm v storage, defaultLiteral v storage, rfl,
    fun f => ⟨fun h => h.unique hfits, fun h => h ▸ hfits⟩, defaultForm_eq_null_iff v storage,
    defaultForm_eq_number_iff v storage, ?_, fun s hs => eq_of_defaultForm hs⟩
  rintro rfl hv
  rw [defaultLiteral_boolean hv]
  split
  · exact .inr rfl
  · exact .inl rfl

/-- A text that overflows is quoted, just as it was given. -/
example : defaultClause (.text " 1e400 ") .real = "DEFAULT ' 1e400 '" := by decide +kernel

end Sql

end Tablewright
