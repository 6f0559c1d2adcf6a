import Tablewright.Proofs.Sql.Literal

namespace Tablewright.Sql

/-- The body of a statement, cut at its outer commas: the text before the first of them, the texts
after each, the contents of the string literals, and what stands behind the parenthesis that
closes. -/
structure Body where
  first : List Char
  others : List (List Char)
  literals : List (List Char)
  rest : List Char
  deriving DecidableEq, Repr

namespace Body

def parts (b : Body) : List (List Char) := b.first :: b.others

def after (text : List Char) (literals : List (List Char)) (b : Body) : Body :=
  { b with first := text ++ b.first, literals := literals ++ b.literals }

def afterComma (b : Body) : Body := { b with first := [], others := b.first :: b.others }

@[simp]
theorem after_nil (b : Body) : b.after [] [] = b := rfl

@[simp]
theorem after_after (cs ds : List Char) (xs ys : List (List Char)) (b : Body) :
    (b.after ds ys).after cs xs = b.after (cs ++ ds) (xs ++ ys) := by
  simp only [after, List.append_assoc]

end Body

def depthAfter (c : Char) (depth : Nat) : Nat :=
  if c = '(' then depth + 1 else if c = ')' then depth - 1 else depth

/-- Cut a text from behind an opening parenthesis up to the one that closes it. Commas and
parentheses inside string literals do not count, nor do commas between further parentheses. -/
def cut? (depth : Nat) : List Char → Option Body
  | [] => none
  | c :: cs =>
    if c = '\'' then
      match _h : closeLiteral? cs with
      | none => none
      | some (s, rest) => (cut? depth rest).map (·.after ('\'' :: encode s ++ ['\'']) [s])
    else if c = ')' ∧ depth = 0 then some ⟨[], [], [], cs⟩
    else if c = ',' ∧ depth = 0 then (cut? depth cs).map (·.afterComma)
    else (cut? (depthAfter c depth) cs).map (·.after [c] [])
termination_by cs => cs.length
decreasing_by
  · have := length_lt_of_closeLiteral? _h
    simp only [List.length_cons]
    omega
  · simp
  · simp

def isNeutral (c : Char) : Bool := c != '\'' && c != '(' && c != ')' && c != ','

theorem cut?_neutral {c : Char} (h : isNeutral c = true) (depth : Nat) (cs : List Char) :
    cut? depth (c :: cs) = (cut? depth cs).map (·.after [c] []) := by
  simp only [isNeutral, Bool.and_eq_true, bne_iff_ne] at h
  obtain ⟨⟨⟨hq, ho⟩, hc⟩, hs⟩ := h
  rw [cut?, if_neg hq, if_neg (fun h => hc h.1), if_neg (fun h => hs h.1), depthAfter, if_neg ho,
    if_neg hc]

theorem cut?_open (depth : Nat) (cs : List Char) :
    cut? depth ('(' :: cs) = (cut? (depth + 1) cs).map (·.after ['('] []) := by
  rw [cut?, if_neg (by decide), if_neg (by simp), if_neg (by simp), depthAfter, if_pos rfl]

theorem cut?_close (depth : Nat) (cs : List Char) :
    cut? (depth + 1) (')' :: cs) = (cut? depth cs).map (·.after [')'] []) := by
  rw [cut?, if_neg (by decide), if_neg (by simp), if_neg (by simp), depthAfter,
    if_neg (by decide), if_pos rfl]
  rfl

theorem cut?_innerComma (depth : Nat) (cs : List Char) :
    cut? (depth + 1) (',' :: cs) = (cut? (depth + 1) cs).map (·.after [','] []) := by
  rw [cut?, if_neg (by decide), if_neg (by simp), if_neg (by simp), depthAfter,
    if_neg (by decide), if_neg (by decide)]

theorem cut?_outerComma (cs : List Char) :
    cut? 0 (',' :: cs) = (cut? 0 cs).map (·.afterComma) := by
  rw [cut?, if_neg (by decide), if_neg (by simp), if_pos ⟨rfl, rfl⟩]

theorem cut?_end (cs : List Char) : cut? 0 (')' :: cs) = some ⟨[], [], [], cs⟩ := by
  rw [cut?, if_neg (by decide), if_pos ⟨rfl, rfl⟩]

theorem cut?_literal (depth : Nat) (s : List Char) {rest : List Char} (h : StartsAnew rest) :
    cut? depth ('\'' :: (encode s ++ '\'' :: rest)) =
      (cut? depth rest).map (·.after ('\'' :: encode s ++ ['\'']) [s]) := by
  rw [cut?, if_pos rfl]
  split
  · rename_i hn
    rw [closeLiteral?_encode s h] at hn
    cases hn
  · rename_i t more hs
    rw [closeLiteral?_encode s h] at hs
    cases hs
    rfl

/-- Two texts without a quote on both sides of the seam, where they would be read as one literal. -/
def Apart (cs ds : List Char) : Prop := cs.getLast? = some '\'' → StartsAnew ds

theorem apart_of_notMem {cs : List Char} (h : '\'' ∉ cs) (ds : List Char) : Apart cs ds :=
  fun hl => absurd (List.mem_of_getLast? hl) h

theorem quote_notMem_of_neutral {cs : List Char} (h : cs.all isNeutral = true) : '\'' ∉ cs := by
  intro hm
  have hq := List.all_eq_true.mp h _ hm
  exact absurd hq (by decide)

/-- A text that a cut at some depth or deeper passes over as a whole, with the literals in it. -/
def Kept (least : Nat) (text : List Char) (literals : List (List Char)) : Prop :=
  ∀ depth rest, least ≤ depth → Apart text rest →
    cut? depth (text ++ rest) = (cut? depth rest).map (·.after text literals)

namespace Kept

theorem nil (least : Nat) : Kept least [] [] := by
  intro depth rest _ _
  simp only [List.nil_append, Body.after_nil, Option.map_id_fun', id_eq]

theorem append {least : Nat} {cs ds : List Char} {xs ys : List (List Char)}
    (hc : Kept least cs xs) (hd : Kept least ds ys) (ha : Apart cs ds) :
    Kept least (cs ++ ds) (xs ++ ys) := by
  intro depth rest hl hr
  -- A quote at a seam would go on the literal before it, so both seams must be apart.
  have hcd : Apart cs (ds ++ rest) := by
    cases ds with
    | nil => rwa [List.append_nil] at hr
    | cons d ds => exact ha
  have hdr : Apart ds rest := by
    intro hlast
    exact hr (by rw [List.getLast?_append, hlast]; rfl)
  rw [List.append_assoc, hc depth _ hl hcd, hd depth rest hl hdr, Option.map_map]
  congr 1
  funext b
  exact Body.after_after cs ds xs ys b

theorem neutral {least : Nat} {cs : List Char} (hc : cs.all isNeutral = true) :
    Kept least cs [] := by
  induction cs with
  | nil => exact nil least
  | cons c cs ih =>
    rw [List.all_cons, Bool.and_eq_true] at hc
    intro depth rest hl hr
    have hcs : Apart cs rest := by
      intro hlast
      exact hr (by rw [List.getLast?_cons, hlast]; rfl)
    rw [List.cons_append, cut?_neutral hc.1, ih hc.2 depth rest hl hcs, Option.map_map]
    rfl

theorem neutral_append {least : Nat} {cs ds : List Char} {xs : List (List Char)}
    (hc : cs.all isNeutral = true) (hd : Kept least ds xs) : Kept least (cs ++ ds) xs :=
  (neutral hc).append hd (apart_of_notMem (quote_notMem_of_neutral hc) ds)

theorem literal (least : Nat) (s : List Char) : Kept least ('\'' :: encode s ++ ['\'']) [s] := by
  intro depth rest _ hr
  have ha : StartsAnew rest := hr (by rw [List.getLast?_concat])
  have h := cut?_literal depth s ha
  simpa only [List.cons_append, List.append_assoc, List.nil_append] using h

theorem comma (depth : Nat) : Kept (depth + 1) [','] [] := by
  intro n rest hl _
  obtain ⟨m, rfl⟩ := Nat.exists_eq_add_of_le hl
  have h := cut?_innerComma (depth + m) rest
  rwa [Nat.add_right_comm] at h

theorem parentheses {least : Nat} {cs : List Char} {xs : List (List Char)}
    (h : Kept (least + 1) cs xs) : Kept least ('(' :: cs ++ [')']) xs := by
  intro depth rest hl _
  have hi := h (depth + 1) (')' :: rest) (by omega) (fun _ => by simp [StartsAnew])
  rw [cut?_close, Option.map_map] at hi
  have ho := cut?_open depth (cs ++ ')' :: rest)
  rw [hi, Option.map_map] at ho
  rw [List.append_assoc, List.cons_append, List.singleton_append, ho]
  congr 1
  funext b
  simp only [Function.comp, Body.after_after, List.append_nil, List.nil_append,
    List.cons_append]

theorem call {least : Nat} {word inner more : List Char} {xs : List (List Char)}
    (hw : word.all isNeutral = true) (hi : Kept (least + 1) inner xs)
    (hm : more.all isNeutral = true) : Kept least (word ++ ('(' :: inner ++ [')']) ++ more) xs := by
  have hp := neutral_append hw (parentheses hi)
  have ha : Apart (word ++ ('(' :: inner ++ [')'])) more := by
    intro hlast
    rw [← List.append_assoc, List.getLast?_concat] at hlast
    cases hlast
  have h := hp.append (neutral hm) ha
  rwa [List.append_nil] at h

theorem intercalate {least : Nat} {sep : List Char} (hs : Kept least sep []) (hn : sep ≠ [])
    (hq : '\'' ∉ sep) (text : α → List Char) (literals : α → List (List Char)) (xs : List α)
    (hx : ∀ x ∈ xs, Kept least (text x) (literals x)) :
    Kept least (sep.intercalate (xs.map text)) (xs.flatMap literals) := by
  induction xs with
  | nil => exact nil least
  | cons x xs ih =>
    have hh := hx x (by simp)
    have ht := ih fun y hy => hx y (by simp [hy])
    cases xs with
    | nil => simpa using hh
    | cons y ys =>
      have hsep : Apart (text x) (sep ++ sep.intercalate ((y :: ys).map text)) := by
        intro _ hhead
        cases sep with
        | nil => exact hn rfl
        | cons c cs => exact hq (by simp_all)
      have h := hh.append (hs.append ht (apart_of_notMem hq _)) hsep
      simpa only [List.map_cons, List.intercalate_cons_cons, List.flatMap_cons,
        List.nil_append, List.append_assoc] using h

end Kept

end Tablewright.Sql
