import Tablewright.Sql.Literal

namespace Tablewright.Sql

/-- The contents of a string literal and what follows it, read from behind the quote that opens it.
A quote written twice is one of the contents; any other quote closes. -/
def closeLiteral? : List Char → Option (List Char × List Char)
  | [] => none
  | '\'' :: '\'' :: cs => (closeLiteral? cs).map fun (s, rest) => ('\'' :: s, rest)
  | '\'' :: cs => some ([], cs)
  | c :: cs => (closeLiteral? cs).map fun (s, rest) => (c :: s, rest)

section

variable {p : Char → Bool} {body rest : List Char} (inside : ∀ c ∈ body, p c = true)
  (boundary : ∀ c ∈ rest.head?, p c = false)

include inside boundary

/-- The longest stretch of one class of characters ends before the first one outside it. -/
theorem takeWhile_append_boundary : (body ++ rest).takeWhile p = body := by
  have hrest : rest.takeWhile p = [] := by
    cases rest with
    | nil => rfl
    | cons c cs => rw [List.takeWhile_cons, boundary c rfl]; rfl
  rw [List.takeWhile_append_of_pos inside, hrest, List.append_nil]

theorem dropWhile_append_boundary : (body ++ rest).dropWhile p = rest := by
  rw [List.dropWhile_append_of_pos inside]
  cases rest with
  | nil => rfl
  | cons c cs => rw [List.dropWhile_cons, boundary c rfl]; rfl

end

/-- A text that does not go on a literal before it. -/
def StartsAnew (rest : List Char) : Prop := rest.head? ≠ some '\''

theorem StartsAnew.append {cs rest : List Char} (hc : StartsAnew cs) (hr : StartsAnew rest) :
    StartsAnew (cs ++ rest) := by
  cases cs with
  | nil => exact hr
  | cons c cs => exact hc

theorem closeLiteral?_quote {rest : List Char} (h : StartsAnew rest) :
    closeLiteral? ('\'' :: rest) = some ([], rest) := by
  cases rest with
  | nil => rfl
  | cons c cs =>
    have hc : c ≠ '\'' := fun he => h (by rw [he]; rfl)
    rw [closeLiteral?]
    rintro ds ⟨rfl, -⟩
    exact hc rfl

theorem closeLiteral?_encode (s : List Char) {rest : List Char} (h : StartsAnew rest) :
    closeLiteral? (encode s ++ '\'' :: rest) = some (s, rest) := by
  induction s with
  | nil => exact closeLiteral?_quote h
  | cons c s ih =>
    by_cases hc : c = '\''
    · subst c
      rw [encode, if_pos rfl, List.cons_append, List.cons_append, closeLiteral?, ih]
      rfl
    · rw [encode, if_neg hc, List.cons_append, closeLiteral?, ih]
      · rfl
      · intro ds he
        exact absurd he hc
      · exact hc

theorem eq_encode_of_closeLiteral? {cs s rest : List Char} (h : closeLiteral? cs = some (s, rest)) :
    cs = encode s ++ '\'' :: rest := by
  fun_induction closeLiteral? cs generalizing s with
  | case1 => cases h
  | case2 cs ih =>
    obtain ⟨⟨t, more⟩, ht, he⟩ := Option.map_eq_some_iff.mp h
    cases he
    rw [ih ht]
    rfl
  | case3 cs =>
    cases h
    rfl
  | case4 c cs _ hc ih =>
    obtain ⟨⟨t, more⟩, ht, he⟩ := Option.map_eq_some_iff.mp h
    cases he
    rw [encode, if_neg hc, ih ht, List.cons_append]

theorem length_lt_of_closeLiteral? {cs s rest : List Char}
    (h : closeLiteral? cs = some (s, rest)) : rest.length < cs.length := by
  rw [eq_encode_of_closeLiteral? h, List.length_append, List.length_cons]
  omega

end Tablewright.Sql
