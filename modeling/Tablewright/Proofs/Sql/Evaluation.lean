import Tablewright.Proofs.Sql.Comparison

namespace Tablewright.Sql

/-- What a row holds in a column: a whole number or a text. -/
inductive Cell
  | whole (n : Int)
  | text (s : List Char)
  deriving DecidableEq, Repr

def readDigits? (ds : List Char) : Option Nat :=
  if ds ≠ [] ∧ ds.all Char.isDigit = true then some (Nat.ofDigitChars 10 ds 0) else none

def readWhole? : List Char → Option Int
  | '-' :: ds => (readDigits? ds).map fun n => -(n : Int)
  | ds => (readDigits? ds).map Int.ofNat

theorem readDigits?_repr (n : Nat) : readDigits? (Nat.repr n).toList = some n := by
  rw [Nat.toList_repr, readDigits?, if_pos, Nat.ofDigitChars_ten_toDigits]
  refine ⟨Nat.toDigits_ne_nil, ?_⟩
  rw [List.all_eq_true]
  exact fun c hc => Nat.isDigit_of_mem_toDigits (by decide) (by decide) hc

theorem readWhole?_repr (n : Nat) : readWhole? (Nat.repr n).toList = some (n : Int) := by
  have h := readDigits?_repr n
  unfold readWhole?
  split
  · rename_i ds hds
    rw [hds, readDigits?] at h
    simp at h
  · rw [h]
    rfl

theorem readWhole?_numeral (n : Int) : readWhole? (numeral n).toList = some n := by
  unfold numeral
  split
  · have h := readDigits?_repr n.natAbs
    rw [String.toList_append]
    have hnegative : readWhole? ('-' :: (Nat.repr n.natAbs).toList) = some (-(n.natAbs : Int)) := by
      rw [readWhole?, h]
      rfl
    have hn : -(n.natAbs : Int) = n := by omega
    rw [hn] at hnegative
    exact hnegative
  · rw [readWhole?_repr]
    congr 1
    omega

def Operand.cell? : Operand → Option Cell
  | .bare w => (readWhole? w).map .whole
  | .quoted s => some (.text s)

def Subject.cell? (column : List Char) (cell : Cell) (s : Subject) : Option Cell :=
  if s.name = column then
    match s, cell with
    | .column _, cell => some cell
    | .length _, .text cs => some (.whole cs.length)
    | .length _, .whole _ => none
  else none

def Operator.holds? : Operator → Cell → List Cell → Option Bool
  | .among, x, ys => some (ys.contains x)
  | .equal, x, [y] => some (x == y)
  | .atLeast, .whole m, [.whole n] => some (n ≤ m)
  | .atMost, .whole m, [.whole n] => some (m ≤ n)
  | _, _, _ => none

def Comparison.holds? (column : List Char) (cell : Cell) (c : Comparison) : Option Bool := do
  let x ← c.subject.cell? column cell
  let ys ← c.operands.mapM Operand.cell?
  c.operator.holds? x ys

def checkHolds? (column : List Char) (cell : Cell) : Option String → Option Bool
  | none => some true
  | some text => do
    let cs ← readCheck? text.toList
    let results ← cs.mapM (·.holds? column cell)
    return results.all id

theorem mapM_map_eq_some {f : β → Option γ} {g : α → β} {h : α → γ} {xs : List α}
    (hx : ∀ x ∈ xs, f (g x) = some (h x)) : (xs.map g).mapM f = some (xs.map h) := by
  induction xs with
  | nil => rfl
  | cons x xs ih =>
    rw [List.map_cons, List.mapM_cons, hx x (by simp), ih fun y hy => hx y (by simp [hy])]
    rfl

theorem checkHolds?_eq {column : String} (h : IsWord column.toList) {cell : Cell}
    {ks : List Condition} (holds : Condition → Bool)
    (hk : ∀ k ∈ ks, (k.comparison column.toList).holds? column.toList cell = some (holds k)) :
    checkHolds? column.toList cell (checkClause? column ks) = some (ks.all holds) := by
  cases ks with
  | nil => rfl
  | cons k ks =>
    obtain ⟨text, ht, hr⟩ := readCheck?_checkClause h k ks
    rw [ht, checkHolds?, hr]
    have hm := mapM_map_eq_some hk
    simp only [Option.bind_eq_bind, Option.bind_some, hm]
    simp [List.all_map]

section

variable {column : List Char} {cell : Cell}

theorem Comparison.holds?_eq {c : Comparison} {x : Cell} {ys : List Cell}
    (hs : c.subject.cell? column cell = some x) (ho : c.operands.mapM Operand.cell? = some ys) :
    c.holds? column cell = c.operator.holds? x ys := by
  simp only [holds?, hs, ho, Option.bind_eq_bind, Option.bind_some]

theorem cell?_column : (Subject.column column).cell? column cell = some cell := if_pos rfl

theorem cell?_length (s : List Char) :
    (Subject.length column).cell? column (.text s) = some (.whole s.length) := if_pos rfl

theorem mapM_cell?_numeral (n : Int) :
    [Operand.bare (numeral n).toList].mapM Operand.cell? = some [.whole n] := by
  rw [List.mapM_cons, Operand.cell?, readWhole?_numeral]
  rfl

theorem mapM_cell?_repr (n : Nat) :
    [Operand.bare (Nat.repr n).toList].mapM Operand.cell? = some [.whole n] := by
  rw [List.mapM_cons, Operand.cell?, readWhole?_repr]
  rfl

theorem mapM_cell?_texts (words : List String) :
    ((words.map Value.text).map Operand.ofValue).mapM Operand.cell? =
      some (words.map fun w => .text w.toList) := by
  rw [List.map_map]
  exact mapM_map_eq_some fun w _ => rfl

namespace Condition

theorem holds?_atLeast (n v : Int) :
    ((atLeast (.int n)).comparison column).holds? column (.whole v) = some (decide (n ≤ v)) := by
  rw [Comparison.holds?_eq cell?_column (mapM_cell?_numeral n)]
  rfl

theorem holds?_atMost (n v : Int) :
    ((atMost (.int n)).comparison column).holds? column (.whole v) = some (decide (v ≤ n)) := by
  rw [Comparison.holds?_eq cell?_column (mapM_cell?_numeral n)]
  rfl

theorem holds?_lengthAtLeast (n : Nat) (s : List Char) :
    ((lengthAtLeast n).comparison column).holds? column (.text s) =
      some (decide (n ≤ s.length)) := by
  rw [Comparison.holds?_eq (cell?_length s) (mapM_cell?_repr n)]
  simp [comparison, Operator.holds?]

theorem holds?_lengthAtMost (n : Nat) (s : List Char) :
    ((lengthAtMost n).comparison column).holds? column (.text s) =
      some (decide (s.length ≤ n)) := by
  rw [Comparison.holds?_eq (cell?_length s) (mapM_cell?_repr n)]
  simp [comparison, Operator.holds?]

theorem holds?_lengthIs (n : Nat) (s : List Char) :
    ((lengthIs n).comparison column).holds? column (.text s) =
      some (decide (s.length = n)) := by
  rw [Comparison.holds?_eq (cell?_length s) (mapM_cell?_repr n)]
  simp only [comparison, Operator.holds?, Option.some.injEq]
  rw [Bool.eq_iff_iff, beq_iff_eq, Cell.whole.injEq, Int.natCast_inj, decide_eq_true_iff]

theorem holds?_oneOf (words : List String) (s : List Char) :
    ((oneOf (words.map .text)).comparison column).holds? column (.text s) =
      some (words.any fun w => w.toList == s) := by
  rw [Comparison.holds?_eq cell?_column (mapM_cell?_texts words)]
  simp only [comparison, Operator.holds?, Option.some.injEq]
  rw [Bool.eq_iff_iff]
  simp only [List.contains_iff_mem, List.mem_map, Cell.text.injEq, List.any_eq_true, beq_iff_eq]

end Condition

end

end Tablewright.Sql
