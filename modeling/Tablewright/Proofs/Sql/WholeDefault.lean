import Tablewright.Proofs.Numeric.Whole
import Tablewright.Sql.Default

namespace Tablewright.Sql

variable {s : String} {n : Int} {storage : Storage}

theorem numeralOfText?_of_denotesWhole (h : DenotesWhole s n) :
    numeralOfText? s = some (numeral n) := by
  rw [numeralOfText?, h.readInt?]

theorem defaultClause_numeral {v : Value} {text : String} (hv : v ≠ .null)
    (hs : storage.isNumeric = true) (h : memberNumeral? v = some text) :
    defaultClause v storage = "DEFAULT " ++ text := by
  have hnull : v.isNull = false := by simpa [← Value.isNull_iff] using hv
  cases storage with
  | integer | real | float =>
    simp [defaultClause, defaultLiteral, hnull, h, Storage.isTextual, Storage.isNumeric]
  | _ => cases hs

theorem defaultClause_int (n : Int) (hs : storage.isNumeric = true) :
    defaultClause (.int n) storage = "DEFAULT " ++ numeral n :=
  defaultClause_numeral nofun hs rfl

theorem defaultClause_text (h : DenotesWhole s n) (hs : storage.isNumeric = true) :
    defaultClause (.text s) storage = "DEFAULT " ++ numeral n :=
  defaultClause_numeral nofun hs (numeralOfText?_of_denotesWhole h)

/-- A text that denotes an integer is, as the default of a column of numbers, the one numeral of
that integer. The numeral denotes it too and gives the same default, as does the integer itself; and
texts give the same default when they denote the same integer, and only then. -/
theorem default_of_denotesWhole (h : DenotesWhole s n)
    (hs : storage ∈ [Storage.integer, .real, .float]) :
    defaultClause (.text s) storage = "DEFAULT " ++ numeral n ∧
    IsCanonical (numeral n).toList ∧ DenotesWhole (numeral n) n ∧
    defaultClause (.text (numeral n)) storage = "DEFAULT " ++ numeral n ∧
    defaultClause (.int n) storage = "DEFAULT " ++ numeral n ∧
    ∀ t m, DenotesWhole t m →
      (defaultClause (.text s) storage = defaultClause (.text t) storage ↔ n = m) := by
  have hnumeric : storage.isNumeric = true := by
    simp only [List.mem_cons, List.not_mem_nil, or_false] at hs
    obtain rfl | rfl | rfl := hs <;> rfl
  have hself := denotesWhole_numeral h.length_le
  refine ⟨defaultClause_text h hnumeric, isCanonical_numeral n, hself,
    defaultClause_text hself hnumeric, defaultClause_int n hnumeric, fun t m ht => ?_⟩
  rw [defaultClause_text h hnumeric, defaultClause_text ht hnumeric, String.append_right_inj,
    numeral_inj]

/-- Nothing but zeros behind a sign and between blanks, and zeros in front of seven. -/
theorem default_of_denotesWhole_zeros :
    DenotesWhole "\u2003-0_00\n" 0 ∧ DenotesWhole "+0_07" 7 ∧
    Storage.real ∈ [Storage.integer, .real, .float] ∧
    defaultClause (.text "\u2003-0_00\n") .real = "DEFAULT 0" ∧
    defaultClause (.text "0") .real = "DEFAULT 0" ∧ defaultClause (.int 0) .real = "DEFAULT 0" ∧
    (defaultClause (.text "\u2003-0_00\n") .real = defaultClause (.text "+0_07") .real ↔
      (0 : Int) = 7) := by
  have hfront : ∀ c ∈ ['\u2003'], isBlank c = true := List.forall_mem_singleton.mpr rfl
  have hback : ∀ c ∈ ['\n'], isBlank c = true := List.forall_mem_singleton.mpr rfl
  have hzeros : DenotesWhole "\u2003-0_00\n" 0 :=
    ⟨['\u2003'], ['-'], "0_00".toList, ['\n'], rfl, hfront, hback, .minus,
      .apart rfl (.next rfl (.single rfl)), by decide, rfl⟩
  have hseven : DenotesWhole "+0_07" 7 :=
    ⟨[], ['+'], "0_07".toList, [], rfl, nofun, nofun, .plus,
      .apart rfl (.next rfl (.single rfl)), by decide, rfl⟩
  have hs : Storage.real ∈ [Storage.integer, .real, .float] := by decide
  obtain ⟨htext, -, -, hagain, hint, hsame⟩ := default_of_denotesWhole hzeros hs
  exact ⟨hzeros, hseven, hs, htext, hagain, hint, hsame _ _ hseven⟩

end Tablewright.Sql
