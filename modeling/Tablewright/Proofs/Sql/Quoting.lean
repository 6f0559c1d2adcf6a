import Tablewright.Proofs.Sql.Literal

namespace Tablewright.Sql

def readLiteral? : List Char → Option (List Char × List Char)
  | '\'' :: cs => closeLiteral? cs
  | _ => none

theorem startsAnew_of_closeLiteral? {cs s rest : List Char}
    (h : closeLiteral? cs = some (s, rest)) : StartsAnew rest := by
  fun_induction closeLiteral? cs generalizing s with
  | case1 => cases h
  | case2 cs ih =>
    obtain ⟨⟨t, more⟩, ht, he⟩ := Option.map_eq_some_iff.mp h
    cases he
    exact ih ht
  | case3 cs hpair =>
    cases h
    intro hquote
    obtain ⟨ds, rfl⟩ := List.head?_eq_some_iff.mp hquote
    exact hpair ds rfl
  | case4 c cs _ _ ih =>
    obtain ⟨⟨t, more⟩, ht, he⟩ := Option.map_eq_some_iff.mp h
    cases he
    exact ih ht

/-- A literal is the one that is written around its contents, and it ends at the first quote that
is not one of two. -/
theorem readLiteral?_eq_some_iff {cs s rest : List Char} :
    readLiteral? cs = some (s, rest) ↔
      cs = '\'' :: (encode s ++ '\'' :: rest) ∧ StartsAnew rest := by
  constructor
  · intro h
    unfold readLiteral? at h
    split at h
    · exact ⟨congrArg _ (eq_encode_of_closeLiteral? h), startsAnew_of_closeLiteral? h⟩
    · cases h
  · rintro ⟨rfl, h⟩
    exact closeLiteral?_encode s h

theorem toList_quoted_append (v : Value) (rest : List Char) :
    (quoted v).toList ++ rest = '\'' :: (encode v.storedText.toList ++ '\'' :: rest) := by
  rw [quoted, String.toList_ofList]
  simp

theorem readLiteral?_quoted_append (v : Value) {rest : List Char} (h : StartsAnew rest) :
    readLiteral? ((quoted v).toList ++ rest) = some (v.storedText.toList, rest) :=
  readLiteral?_eq_some_iff.mpr ⟨toList_quoted_append v rest, h⟩

theorem quoted_append_inj {v w : Value} {rest more : List Char} (hr : StartsAnew rest)
    (hm : StartsAnew more) (h : (quoted v).toList ++ rest = (quoted w).toList ++ more) :
    v.storedText = w.storedText ∧ rest = more := by
  have hread := readLiteral?_quoted_append v hr
  rw [h, readLiteral?_quoted_append w hm] at hread
  obtain ⟨htext, hrest⟩ := Prod.mk.inj (Option.some.inj hread)
  exact ⟨(String.toList_inj.mp htext).symm, hrest.symm⟩

/-- A quoted value is decoded from the front of any text that does not go on its literal: exactly
the quoted text is read, and its contents are the text of the value. So values are quoted alike only
when their texts are equal, also in front of what may differ. -/
theorem quoted_decodable :
    (∀ (v : Value) (rest : List Char), StartsAnew rest →
      readLiteral? ((quoted v).toList ++ rest) = some (v.storedText.toList, rest)) ∧
    (∀ v w : Value, quoted v = quoted w ↔ v.storedText = w.storedText) ∧
    ∀ (v w : Value) (rest more : List Char), StartsAnew rest → StartsAnew more →
      ((quoted v).toList ++ rest = (quoted w).toList ++ more ↔
        v.storedText = w.storedText ∧ rest = more) := by
  have hend : StartsAnew [] := nofun
  refine ⟨fun v rest h => readLiteral?_quoted_append v h, fun v w => ⟨fun h => ?_, fun h => ?_⟩,
    fun v w rest more hr hm => ⟨quoted_append_inj hr hm, ?_⟩⟩
  · exact (quoted_append_inj hend hend (by rw [h])).1
  · rw [quoted, quoted, h]
  · rintro ⟨htext, rfl⟩
    rw [quoted, quoted, htext]

/-- Quotes at both ends of a member's text, and behind the literal what looks like another one. -/
theorem quoted_decodable_quotes :
    StartsAnew ", 'x'".toList ∧
    quoted (.member (.text "''), ('")) = "'''''), ('''" ∧
    readLiteral? ((quoted (.member (.text "''), ('"))).toList ++ ", 'x'".toList) =
      some ("''), ('".toList, ", 'x'".toList) := by
  have hanew : StartsAnew ", 'x'".toList := nofun
  exact ⟨hanew, by decide +kernel, quoted_decodable.1 (.member (.text "''), ('")) _ hanew⟩

end Tablewright.Sql
