import Tablewright.Proofs.Sql.Column
import Tablewright.Sql.Statement

namespace Tablewright.Sql

def behindParenthesis (cs : List Char) : List Char := (cs.dropWhile (· != '(')).drop 1

theorem behindParenthesis_neutral {cs : List Char} (h : cs.all isNeutral = true)
    (rest : List Char) : behindParenthesis (cs ++ '(' :: rest) = rest := by
  have inside : ∀ c ∈ cs, (c != '(') = true := by
    intro c hc
    have hn := List.all_eq_true.mp h c hc
    simp only [isNeutral, Bool.and_eq_true] at hn
    exact hn.1.1.2
  have boundary : ∀ c ∈ ('(' :: rest).head?, (c != '(') = false := by
    rintro c ⟨⟩
    rfl
  rw [behindParenthesis, dropWhile_append_boundary inside boundary]
  rfl

/-- The parts of a statement as they stand between its commas: each starts on a line of its own,
and the last one ends its line. -/
def onLines : List String → List (List Char)
  | [] => []
  | [p] => ["\n  ".toList ++ p.toList ++ "\n".toList]
  | p :: ps => ("\n  ".toList ++ p.toList) :: onLines ps

/-- A cut through parts on lines finds the parts again, and the literals of all of them. -/
theorem cut?_lines {parts : List String} {literals : List (List Char)}
    (h : AllKept 0 parts literals) (hn : parts ≠ []) (rest : List Char) :
    ∃ b, cut? 0 ("\n  ".toList ++ (",\n  ".intercalate parts).toList ++ "\n)".toList ++ rest) =
        some b ∧
      b.parts = onLines parts ∧ b.literals = literals ∧ b.rest = rest := by
  obtain ⟨xs, rfl, rfl, hx⟩ := h
  induction xs with
  | nil => exact absurd rfl hn
  | cons x xs ih =>
    have hline : Kept 0 ("\n  ".toList ++ x.1.toList) x.2 :=
      Kept.neutral_append rfl (hx x (by simp))
    cases xs with
    | nil =>
      -- The last part: its line ends before the parenthesis that closes the statement.
      have hend : cut? 0 ('\n' :: ')' :: rest) = some ⟨['\n'], [], [], rest⟩ := by
        rw [cut?_neutral rfl, cut?_end]
        rfl
      have hcut := hline 0 ('\n' :: ')' :: rest) (by omega) (fun _ => by simp [StartsAnew])
      rw [hend] at hcut
      refine ⟨_, by simpa using hcut, ?_, ?_, rfl⟩
      · simp [Body.parts, Body.after, onLines]
      · simp [Body.after]
    | cons y ys =>
      -- One part of several: the comma behind it is an outer one, where the cut goes on.
      obtain ⟨b, hb, hparts, hliterals, hrest⟩ := ih (by simp) fun z hz => hx z (by simp [hz])
      have htext : (",\n  ".intercalate ((x :: y :: ys).map Prod.fst)).toList =
          x.1.toList ++ ",\n  ".toList ++
            (",\n  ".intercalate ((y :: ys).map Prod.fst)).toList := by
        rw [List.map_cons, List.map_cons, String.intercalate_cons_cons, String.toList_append,
          String.toList_append]
      have hcut := hline 0 (',' :: ("\n  ".toList ++ (",\n  ".intercalate
        ((y :: ys).map Prod.fst)).toList ++ "\n)".toList ++ rest)) (by omega)
        (fun _ => by simp [StartsAnew])
      rw [cut?_outerComma, hb] at hcut
      refine ⟨b.afterComma.after ("\n  ".toList ++ x.1.toList) x.2, ?_, ?_, ?_, hrest⟩
      · rw [htext]
        simpa using hcut
      · rw [List.map_cons, onLines, ← hparts]
        · simp [Body.parts, Body.after, Body.afterComma]
        · simp
      · rw [List.flatMap_cons, ← hliterals]
        rfl

theorem allKept_keyClause {keys : List String} (h : ∀ k ∈ keys, k.toList.all isNeutral = true) :
    AllKept 0 (keyClause? keys).toList [] := by
  cases keys with
  | nil => exact AllKept.nil 0
  | cons k ks =>
    have hs : Kept 1 ", ".toList [] :=
      (Kept.comma 0).append (Kept.neutral rfl) (apart_of_notMem (by decide) _)
    have hall : AllKept 1 ((k :: ks).map id) ((k :: ks).flatMap fun _ => []) :=
      AllKept.map fun key hk => Kept.neutral (h key hk)
    rw [List.flatMap_eq_nil_iff.mpr fun _ _ => rfl] at hall
    have hkeys := hall.intercalate hs (by decide) (by decide)
    have hword : "PRIMARY KEY ".toList.all isNeutral = true := rfl
    have hnil : ([] : List Char).all isNeutral = true := rfl
    have hc := Kept.call hword hkeys hnil
    refine AllKept.single ?_
    simpa using hc

theorem toList_framed (a b c : String) {opening body closing : String}
    {left inner right : List Char} {last : Char} (ho : opening.toList = left ++ '(' :: inner)
    (hc : closing.toList = right ++ [last]) :
    (a ++ b ++ c ++ opening ++ body ++ closing).toList =
      a.toList ++ b.toList ++ c.toList ++ left ++
        '(' :: (inner ++ body.toList ++ right ++ [last]) := by
  simp only [String.toList_append, ho, hc, List.append_assoc, List.cons_append]

theorem cut?_tableStatement (ifNotExists : Bool) {name : String}
    (hname : name.toList.all isNeutral = true) {parts : List String}
    {literals : List (List Char)} (h : AllKept 0 parts literals) (hn : parts ≠ []) :
    ∃ b, cut? 0 (behindParenthesis (tableStatement ifNotExists name parts).toList) = some b ∧
      b.parts = onLines parts ∧ b.literals = literals ∧ b.rest = [';'] := by
  have hhead : ("CREATE TABLE ".toList ++ (existsClause ifNotExists).toList ++ name.toList
      ++ " ".toList).all isNeutral = true := by
    have hexists : (existsClause ifNotExists).toList.all isNeutral = true := by
      cases ifNotExists <;> rfl
    rw [List.all_append, List.all_append, List.all_append, hexists, hname]
    rfl
  have hbehind := behindParenthesis_neutral hhead
    ("\n  ".toList ++ (",\n  ".intercalate parts).toList ++ "\n)".toList ++ [';'])
  have htext : (tableStatement ifNotExists name parts).toList =
      "CREATE TABLE ".toList ++ (existsClause ifNotExists).toList ++ name.toList ++ " ".toList ++
        '(' :: ("\n  ".toList ++ (",\n  ".intercalate parts).toList ++ "\n)".toList ++ [';']) :=
    toList_framed _ _ _ rfl rfl
  rw [htext, hbehind]
  exact cut?_lines h hn [';']

end Tablewright.Sql
