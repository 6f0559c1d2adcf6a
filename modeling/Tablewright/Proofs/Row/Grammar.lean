import Tablewright.Proofs.Row.Agreement

namespace Tablewright.Row

namespace Pattern

def IsLetter (c : Char) : Prop := ('A' ≤ c ∧ c ≤ 'Z') ∨ ('a' ≤ c ∧ c ≤ 'z')

def IsDigit (c : Char) : Prop := '0' ≤ c ∧ c ≤ '9'

def IsHex (c : Char) : Prop := IsDigit c ∨ ('a' ≤ c ∧ c ≤ 'f') ∨ ('A' ≤ c ∧ c ≤ 'F')

def IsAlphanumOr (others : List Char) (c : Char) : Prop := IsLetter c ∨ IsDigit c ∨ c ∈ others

def spaces : List Nat :=
  [0x09, 0x0A, 0x0B, 0x0C, 0x0D, 0x20, 0x85, 0xA0, 0x1680, 0x2000, 0x2001, 0x2002, 0x2003, 0x2004,
    0x2005, 0x2006, 0x2007, 0x2008, 0x2009, 0x200A, 0x2028, 0x2029, 0x202F, 0x205F, 0x3000]

theorem isAlpha_iff {c : Char} : c.isAlpha = true ↔ IsLetter c := by
  have hupper : c.isUpper = decide ('A' ≤ c ∧ c ≤ 'Z') := rfl
  have hlower : c.isLower = (decide ('a' ≤ c) && decide (c ≤ 'z')) := rfl
  have halpha : c.isAlpha = (c.isUpper || c.isLower) := rfl
  simp [halpha, hupper, hlower, IsLetter]

theorem isDigit_iff {c : Char} : c.isDigit = true ↔ IsDigit c := by
  simp [Char.isDigit, IsDigit, Char.le_def]

theorem isAlphanum_iff {c : Char} : c.isAlphanum = true ↔ IsLetter c ∨ IsDigit c := by
  rw [Char.isAlphanum, Bool.or_eq_true, isAlpha_iff, isDigit_iff]

theorem isHexDigit_iff {c : Char} : isHexDigit c = true ↔ IsHex c := by
  simp [isHexDigit, isDigit_iff, IsHex, or_assoc]

theorem isLocalChar_iff {c : Char} :
    isLocalChar c = true ↔ IsAlphanumOr ['.', '_', '%', '+', '\'', '-'] c := by
  simp [isLocalChar, isAlphanum_iff, IsAlphanumOr, or_assoc]

theorem isLabelChar_iff {c : Char} : isLabelChar c = true ↔ IsAlphanumOr ['-'] c := by
  simp [isLabelChar, isAlphanum_iff, IsAlphanumOr, or_assoc]

theorem isSchemeChar_iff {c : Char} : isSchemeChar c = true ↔ IsAlphanumOr ['+', '.', '-'] c := by
  simp [isSchemeChar, isAlphanum_iff, IsAlphanumOr, or_assoc]

theorem isWhiteSpace_iff {c : Char} : isWhiteSpace c = true ↔ c.toNat ∈ spaces := by
  simp only [isWhiteSpace, spaces, Bool.or_eq_true, Bool.and_eq_true, decide_eq_true_eq,
    beq_iff_eq, List.mem_cons, List.not_mem_nil, or_false]
  omega

def Uuid (cs : List Char) : Prop :=
  cs.length = 36 ∧ ∀ i c, cs[i]? = some c → if i ∈ [8, 13, 18, 23] then c = '-' else IsHex c

/-- Two labels or more with dots between them, the last of two letters or more. -/
def Domain (cs : List Char) : Prop :=
  ∃ labels top, cs = ['.'].intercalate (labels ++ [top]) ∧ labels ≠ [] ∧
    (∀ l ∈ labels, l ≠ [] ∧ ∀ c ∈ l, IsAlphanumOr ['-'] c) ∧ 2 ≤ top.length ∧ ∀ c ∈ top, IsLetter c

/-- A local part and a domain, on either side of the only at sign. -/
def Email (cs : List Char) : Prop :=
  ∃ localPart domain, cs = localPart ++ '@' :: domain ∧ '@' ∉ localPart ∧ '@' ∉ domain ∧
    localPart ≠ [] ∧ (∀ c ∈ localPart, IsAlphanumOr ['.', '_', '%', '+', '\'', '-'] c) ∧
    Domain domain

/-- A letter and the rest of a scheme, a colon and two slashes, and a location without white space
that does not begin with a path, a query or a fragment. -/
def Url (cs : List Char) : Prop :=
  ∃ first scheme start location, cs = first :: scheme ++ ':' :: '/' :: '/' :: start :: location ∧
    IsLetter first ∧ (∀ c ∈ scheme, IsAlphanumOr ['+', '.', '-'] c) ∧ start ∉ ['/', '?', '#'] ∧
    ∀ c ∈ start :: location, c.toNat ∉ spaces

def Grammar : Pattern → List Char → Prop
  | .email => Email
  | .url => Url
  | .uuid => Uuid

theorem isUuid_iff {cs : List Char} : isUuid cs = true ↔ Uuid cs := by
  have hat (c : Char) (i : Nat) :
      (if i = 8 || i = 13 || i = 18 || i = 23 then c == '-' else isHexDigit c) = true ↔
        if i ∈ [8, 13, 18, 23] then c = '-' else IsHex c := by
    by_cases hi : i ∈ [8, 13, 18, 23]
    · have hd : (i = 8 || i = 13 || i = 18 || i = 23) = true := by simpa [or_assoc] using hi
      rw [if_pos hd, if_pos hi, beq_iff_eq]
    · have hd : ¬(i = 8 || i = 13 || i = 18 || i = 23) = true := by simpa [or_assoc] using hi
      rw [if_neg hd, if_neg hi, isHexDigit_iff]
  rw [isUuid, Bool.and_eq_true, decide_eq_true_eq, List.all_eq_true, Uuid]
  apply and_congr_right
  intro _
  constructor
  · intro h i c hc
    exact (hat c i).mp (h (c, i) (List.mem_zipIdx_iff_getElem?.mpr hc))
  · rintro h ⟨c, i⟩ hc
    exact (hat c i).mpr (h i c (List.mem_zipIdx_iff_getElem?.mp hc))

theorem splitAt_eq_splitOn (separator : Char) (cs : List Char) :
    splitAt separator cs = cs.splitOn separator := by
  induction cs with
  | nil => rfl
  | cons c cs ih =>
    have hwhole : (c :: cs).splitOn separator = (c :: cs).splitOnP (· == separator) :=
      List.splitOn_eq_splitOnP
    rw [splitAt, ih, hwhole, List.splitOnP_cons_eq_if_modifyHead, ← List.splitOn_eq_splitOnP]
    by_cases h : c = separator
    · simp [h]
    · simp only [h, beq_iff_eq]
      cases hs : cs.splitOn separator with
      | nil => exact absurd hs (List.splitOn_ne_nil separator cs)
      | cons part parts => rfl

theorem notMem_of_mem_splitAt {separator : Char} {cs part : List Char}
    (h : part ∈ splitAt separator cs) : separator ∉ part := by
  induction cs generalizing part with
  | nil =>
    cases List.mem_singleton.mp h
    exact List.not_mem_nil
  | cons c cs ih =>
    rw [splitAt] at h
    split at h
    · obtain rfl | h := List.mem_cons.mp h
      · exact List.not_mem_nil
      · exact ih h
    · rename_i hc
      split at h
      · cases List.mem_singleton.mp h
        simpa using Ne.symm hc
      · rename_i head parts hs
        obtain rfl | h := List.mem_cons.mp h
        · have hhead : separator ∉ head := ih (hs ▸ List.mem_cons_self)
          exact List.not_mem_cons_of_ne_of_not_mem (Ne.symm hc) hhead
        · exact ih (hs ▸ List.mem_cons_of_mem head h)

/-- A text is taken apart into the parts without separators that it is put together from. -/
theorem splitAt_eq_iff {separator : Char} {cs : List Char} {parts : List (List Char)} :
    splitAt separator cs = parts ↔
      cs = [separator].intercalate parts ∧ parts ≠ [] ∧ ∀ p ∈ parts, separator ∉ p := by
  constructor
  · rintro rfl
    refine ⟨?_, ?_, fun p hp => notMem_of_mem_splitAt hp⟩
    · rw [splitAt_eq_splitOn, List.intercalate_splitOn]
    · rw [splitAt_eq_splitOn]
      exact List.splitOn_ne_nil separator cs
  · rintro ⟨rfl, hne, hp⟩
    rw [splitAt_eq_splitOn, List.splitOn_intercalate separator hp hne]

theorem isLabel_iff {cs : List Char} :
    isLabel cs = true ↔ cs ≠ [] ∧ ∀ c ∈ cs, IsAlphanumOr ['-'] c := by
  simp [isLabel, isLabelChar_iff]

theorem isTopLabel_iff {cs : List Char} :
    isTopLabel cs = true ↔ 2 ≤ cs.length ∧ ∀ c ∈ cs, IsLetter c := by
  simp [isTopLabel, isAlpha_iff]

theorem not_isLetter_dot : ¬IsLetter '.' := by simp [← isAlpha_iff]

theorem not_isLabelChar_dot : ¬IsAlphanumOr ['-'] '.' := by simp [← isLabelChar_iff, isLabelChar]

theorem isDomain_iff {cs : List Char} : isDomain cs = true ↔ Domain cs := by
  rw [isDomain]
  constructor
  · intro h
    split at h
    · rename_i top label labels hs
      rw [Bool.and_eq_true, isTopLabel_iff, List.all_eq_true] at h
      obtain ⟨htop, hlabels⟩ := h
      have hsplit : splitAt '.' cs = (label :: labels).reverse ++ [top] := by
        rw [← List.reverse_reverse (splitAt '.' cs), hs, List.reverse_cons]
      refine ⟨(label :: labels).reverse, top, (splitAt_eq_iff.mp hsplit).1, by simp, ?_, htop⟩
      intro l hl
      exact isLabel_iff.mp (hlabels l (List.mem_reverse.mp hl))
    · cases h
  · rintro ⟨labels, top, rfl, hne, hlabels, htop⟩
    have hdot : ∀ p ∈ labels ++ [top], '.' ∉ p := by
      intro p hp hmem
      obtain hp | hp := List.mem_append.mp hp
      · exact not_isLabelChar_dot ((hlabels p hp).2 '.' hmem)
      · exact not_isLetter_dot (htop.2 '.' (List.mem_singleton.mp hp ▸ hmem))
    have hsplit := splitAt_eq_iff.mpr ⟨rfl, by simp, hdot⟩
    rw [hsplit, List.reverse_append, List.reverse_singleton, List.singleton_append]
    obtain ⟨label, rest, hrest⟩ := List.exists_cons_of_ne_nil (List.reverse_ne_nil_iff.mpr hne)
    rw [hrest]
    dsimp only
    rw [Bool.and_eq_true, isTopLabel_iff, List.all_eq_true]
    refine ⟨htop, fun l hl => isLabel_iff.mpr (hlabels l ?_)⟩
    rwa [← hrest, List.mem_reverse] at hl

theorem isEmail_iff {cs : List Char} : isEmail cs = true ↔ Email cs := by
  have hjoin (localPart domain : List Char) :
      ['@'].intercalate [localPart, domain] = localPart ++ '@' :: domain := by
    simp [List.intercalate, List.intersperse]
  have hlocal (localPart : List Char) : localPart.all isLocalChar = true ↔
      ∀ c ∈ localPart, IsAlphanumOr ['.', '_', '%', '+', '\'', '-'] c := by
    simp [isLocalChar_iff]
  rw [isEmail]
  constructor
  · intro h
    split at h
    · rename_i localPart domain hs
      obtain ⟨rfl, -, hat⟩ := splitAt_eq_iff.mp hs
      simp only [Bool.and_eq_true, Bool.not_eq_true', List.isEmpty_eq_false_iff, hlocal,
        isDomain_iff] at h
      exact ⟨localPart, domain, hjoin _ _, hat _ (by simp), hat _ (by simp), h.1.1, h.1.2, h.2⟩
    · cases h
  · rintro ⟨localPart, domain, rfl, hl, hd, hne, hchars, hdomain⟩
    have hsplit : splitAt '@' (localPart ++ '@' :: domain) = [localPart, domain] := by
      rw [splitAt_eq_iff, hjoin]
      exact ⟨rfl, by simp, by simp [hl, hd]⟩
    rw [hsplit]
    simp only [Bool.and_eq_true, Bool.not_eq_true', List.isEmpty_eq_false_iff, hlocal,
      isDomain_iff]
    exact ⟨⟨hne, hchars⟩, hdomain⟩

theorem isLocation_iff {cs : List Char} : isLocation cs = true ↔
    ∃ start location, cs = start :: location ∧ start ∉ ['/', '?', '#'] ∧
      ∀ c ∈ start :: location, c.toNat ∉ spaces := by
  have hspace (c : Char) : (!isWhiteSpace c) = true ↔ c.toNat ∉ spaces := by
    rw [Bool.not_eq_true', ← Bool.not_eq_true, isWhiteSpace_iff]
  cases cs with
  | nil => simp [isLocation]
  | cons c cs =>
    simp only [isLocation, Bool.and_eq_true, bne_iff_ne, List.all_eq_true, hspace, List.cons.injEq,
      List.mem_cons, List.not_mem_nil, or_false, not_or, forall_eq_or_imp]
    constructor
    · rintro ⟨⟨⟨⟨hslash, hquery⟩, hfragment⟩, hc⟩, hcs⟩
      exact ⟨c, cs, ⟨rfl, rfl⟩, ⟨hslash, hquery, hfragment⟩, hc, hcs⟩
    · rintro ⟨start, location, ⟨rfl, rfl⟩, ⟨hslash, hquery, hfragment⟩, hc, hcs⟩
      exact ⟨⟨⟨⟨hslash, hquery⟩, hfragment⟩, hc⟩, hcs⟩

theorem isUrl_iff {cs : List Char} : isUrl cs = true ↔ Url cs := by
  rw [Url]
  cases cs with
  | nil => simp [isUrl]
  | cons c cs =>
    rw [isUrl, Bool.and_eq_true, isAlpha_iff]
    constructor
    · rintro ⟨hc, h⟩
      split at h
      · rename_i rest hrest
        obtain ⟨start, location, rfl, hstart, hspace⟩ := isLocation_iff.mp h
        refine ⟨c, cs.takeWhile isSchemeChar, start, location, ?_, hc, ?_, hstart, hspace⟩
        · rw [← hrest, List.cons_append, List.takeWhile_append_dropWhile]
        · intro x hx
          exact isSchemeChar_iff.mp (List.all_eq_true.mp List.all_takeWhile x hx)
      · cases h
    · rintro ⟨first, scheme, start, location, heq, hfirst, hscheme, hstart, hspace⟩
      rw [List.cons_append, List.cons.injEq] at heq
      obtain ⟨rfl, rfl⟩ := heq
      refine ⟨hfirst, ?_⟩
      -- A colon is no part of a scheme, so the longest scheme ends at the first one.
      have boundary : ∀ c ∈ (':' :: '/' :: '/' :: start :: location).head?,
          isSchemeChar c = false := by
        rintro c ⟨⟩
        rfl
      rw [Sql.dropWhile_append_boundary (fun x hx => isSchemeChar_iff.mpr (hscheme x hx)) boundary]
      exact isLocation_iff.mpr ⟨start, location, rfl, hstart, hspace⟩

theorem accepts_iff {p : Pattern} {cs : List Char} : p.accepts cs = true ↔ p.Grammar cs := by
  cases p with
  | email => exact isEmail_iff
  | url => exact isUrl_iff
  | uuid => exact isUuid_iff

theorem mem_intercalate {separator x : Char} {parts : List (List Char)}
    (h : x ∈ [separator].intercalate parts) : x = separator ∨ ∃ p ∈ parts, x ∈ p := by
  induction parts with
  | nil => cases h
  | cons p ps ih =>
    cases ps with
    | nil =>
      rw [List.intercalate_singleton] at h
      exact .inr ⟨p, List.mem_cons_self, h⟩
    | cons q ps =>
      rw [List.intercalate_cons_cons, List.mem_append, List.mem_append, List.mem_singleton] at h
      obtain (h | h) | h := h
      · exact .inr ⟨p, List.mem_cons_self, h⟩
      · exact .inl h
      · exact (ih h).imp_right fun ⟨r, hr, hx⟩ => ⟨r, List.mem_cons_of_mem p hr, hx⟩

theorem Grammar.newline_notMem {p : Pattern} {cs : List Char} (h : p.Grammar cs) : '\n' ∉ cs := by
  have hletter : ¬IsLetter '\n' := by simp [← isAlpha_iff]
  have hlabel : ¬IsAlphanumOr ['-'] '\n' := by simp [← isLabelChar_iff, isLabelChar]
  intro hn
  cases p with
  | uuid =>
    obtain ⟨i, hi⟩ := List.mem_iff_getElem?.mp hn
    have hc := h.2 i '\n' hi
    split at hc
    · cases hc
    · rw [← isHexDigit_iff] at hc
      cases hc
  | email =>
    obtain ⟨localPart, domain, rfl, -, -, -, hchars, labels, top, rfl, -, hlabels, -, htop⟩ := h
    obtain hn | hn := List.mem_append.mp hn
    · have hc := isLocalChar_iff.mpr (hchars _ hn)
      cases hc
    · obtain hn | hn := List.mem_cons.mp hn
      · cases hn
      · obtain hn | ⟨p, hp, hn⟩ := mem_intercalate hn
        · cases hn
        · obtain hp | hp := List.mem_append.mp hp
          · exact hlabel ((hlabels p hp).2 _ hn)
          · exact hletter (htop _ (List.mem_singleton.mp hp ▸ hn))
  | url =>
    obtain ⟨first, scheme, start, location, rfl, hfirst, hscheme, -, hspace⟩ := h
    rw [List.cons_append, List.mem_cons, List.mem_append] at hn
    obtain rfl | hn | hn := hn
    · exact hletter hfirst
    · have hc := isSchemeChar_iff.mpr (hscheme _ hn)
      cases hc
    · simp only [List.mem_cons] at hn
      obtain hn | hn | hn | hn := hn
      · cases hn
      · cases hn
      · cases hn
      · exact hspace _ (List.mem_cons.mpr hn) (by decide)

def format : Pattern → StringFormat
  | .email => .email
  | .url => .url
  | .uuid => .uuid

theorem ofFormat?_format (p : Pattern) : ofFormat? p.format = some p := by
  cases p <;> rfl

end Pattern

def Within (least most exactly : Option Nat) (n : Nat) : Prop :=
  (∀ m ∈ least, m ≤ n) ∧ (∀ m ∈ exactly, m ≤ n) ∧ (∀ m ∈ most, n ≤ m) ∧ ∀ m ∈ exactly, n ≤ m

theorem lengthHolds_iff {r : StringRule} {n : Nat} :
    lengthHolds r n = true ↔ Within r.minLength r.maxLength r.exactLength n := by
  have hall (o : Option Nat) (q : Nat → Bool) : o.all q = true ↔ ∀ m ∈ o, q m = true := by
    cases o <;> simp
  simp only [lengthHolds, Bool.and_eq_true, hall, decide_eq_true_eq, Within]
  constructor
  · rintro ⟨⟨hleast, hmost⟩, hexact⟩
    exact ⟨hleast, fun m hm => Nat.le_of_eq (hexact m hm).symm, hmost,
      fun m hm => Nat.le_of_eq (hexact m hm)⟩
  · rintro ⟨hleast, habove, hmost, hbelow⟩
    exact ⟨⟨hleast, hmost⟩, fun m hm => Nat.le_antisymm (hbelow m hm) (habove m hm)⟩

end Tablewright.Row
