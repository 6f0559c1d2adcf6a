import Mathlib.Data.List.Basic
import Tablewright.Proofs.Sql.Column
import Tablewright.Proofs.Sql.Nullability

namespace Tablewright.Sql

/-- What the definition of a column says, clause by clause. Of the default there is the literal, and
of the check what stands between its parentheses. -/
structure Outline where
  name : String
  storage : Storage
  nullable : Bool
  default : Option String
  unique : Bool
  check : Option String
  references : Option ForeignKey
  deriving DecidableEq, Repr

def upTo (stop : Char) (cs : List Char) : List Char × List Char :=
  (cs.takeWhile (· != stop), cs.dropWhile (· != stop))

def clause? (keyword : String) (read : List Char → Option (α × List Char)) (cs : List Char) :
    Option (Option α × List Char) :=
  match keyword.toList.isPrefixOf? cs with
  | none => some (none, cs)
  | some rest => (read rest).map fun (a, rest) => (some a, rest)

def nothing? (cs : List Char) : Option (Unit × List Char) := some ((), cs)

def literal? : List Char → Option (String × List Char)
  | '\'' :: cs => (closeLiteral? cs).map fun (s, rest) =>
      (String.ofList ('\'' :: encode s ++ ['\'']), rest)
  | cs => some (String.ofList (upTo ' ' cs).1, (upTo ' ' cs).2)

def enclosed? (cs : List Char) : Option (String × List Char) :=
  (cut? 0 cs).map fun b => (String.ofList b.first, b.rest)

def action? (cs : List Char) : Option (ReferentialAction × List Char) :=
  ReferentialAction.all.findSome? fun a => (a.text.toList.isPrefixOf? cs).map (a, ·)

def foreignKey? (cs : List Char) : Option (ForeignKey × List Char) := do
  let (table, cs) := upTo '(' cs
  let (column, cs) := upTo ')' (cs.drop 1)
  let (onDelete, cs) ← clause? " ON DELETE " action? (cs.drop 1)
  let (onUpdate, cs) ← clause? " ON UPDATE " action? cs
  return (⟨String.ofList table, String.ofList column, onDelete, onUpdate⟩, cs)

def Outline.read? (cs : List Char) : Option Outline := do
  let (name, cs) := upTo ' ' cs
  let (type, cs) := upTo ' ' (cs.drop 1)
  let storage ← Storage.ofWord? (String.ofList type)
  let (notNull, cs) ← clause? " NOT NULL" nothing? cs
  let (default, cs) ← clause? " DEFAULT " literal? cs
  let (unique, cs) ← clause? " UNIQUE" nothing? cs
  let (check, cs) ← clause? " CHECK(" enclosed? cs
  let (references, cs) ← clause? " REFERENCES " foreignKey? cs
  if cs = [] then
    return ⟨String.ofList name, storage, notNull.isNone, default, unique.isSome, check, references⟩
  else none

def clauseText (keyword : String) (write : α → List Char) : Option α → List Char
  | none => []
  | some a => keyword.toList ++ write a

def foreignKeyText (k : ForeignKey) : List Char :=
  k.table.toList ++ '(' :: (k.column.toList ++ ')' ::
    (clauseText " ON DELETE " (·.text.toList) k.onDelete
      ++ clauseText " ON UPDATE " (·.text.toList) k.onUpdate))

def Outline.text (o : Outline) : List Char :=
  o.name.toList ++ ' ' :: (o.storage.word.toList
    ++ (clauseText " NOT NULL" (fun _ => []) (if o.nullable then none else some ())
    ++ (clauseText " DEFAULT " String.toList o.default
    ++ (clauseText " UNIQUE" (fun _ => []) (if o.unique then some () else none)
    ++ (clauseText " CHECK(" (·.toList ++ [')']) o.check
    ++ clauseText " REFERENCES " foreignKeyText o.references)))))

def GoesOn (keywords : List String) (cs : List Char) : Prop :=
  cs = [] ∨ ∃ k ∈ keywords, k.toList <+: cs

theorem goesOn_nil (keywords : List String) : GoesOn keywords [] := .inl rfl

theorem GoesOn.clauseText {keywords : List String} {rest : List Char} (h : GoesOn keywords rest)
    (keyword : String) (write : α → List Char) (x : Option α) :
    GoesOn (keyword :: keywords) (clauseText keyword write x ++ rest) := by
  cases x with
  | none =>
    obtain h | ⟨k, hk, hp⟩ := h
    · exact .inl h
    · exact .inr ⟨k, List.mem_cons_of_mem keyword hk, hp⟩
  | some a =>
    refine .inr ⟨keyword, List.mem_cons_self, ?_⟩
    rw [Sql.clauseText, List.append_assoc]
    exact List.prefix_append _ _

def Distinguished (keyword : String) (keywords : List String) : Prop :=
  keyword.toList ≠ [] ∧
    ∀ k ∈ keywords, ¬keyword.toList <+: k.toList ∧ ¬k.toList <+: keyword.toList

instance (keyword : String) (keywords : List String) :
    Decidable (Distinguished keyword keywords) :=
  inferInstanceAs (Decidable (_ ∧ _))

theorem GoesOn.not_prefix {keywords : List String} {rest : List Char} (h : GoesOn keywords rest)
    {keyword : String} (hd : Distinguished keyword keywords) : ¬keyword.toList <+: rest := by
  intro hp
  obtain rfl | ⟨k, hk, hkp⟩ := h
  · exact hd.1 (List.prefix_nil.mp hp)
  · obtain h | h := List.prefix_or_prefix_of_prefix hp hkp
    · exact (hd.2 k hk).1 h
    · exact (hd.2 k hk).2 h

/-- A clause is read as it was written, when what follows is told apart from it. -/
theorem clause?_clauseText (keyword : String) {read : List Char → Option (α × List Char)}
    {write : α → List Char} (x : Option α) {rest : List Char}
    (hread : ∀ a ∈ x, read (write a ++ rest) = some (a, rest)) {keywords : List String}
    (hrest : GoesOn keywords rest) (hd : Distinguished keyword keywords) :
    clause? keyword read (clauseText keyword write x ++ rest) = some (x, rest) := by
  cases x with
  | none =>
    have hnone : keyword.toList.isPrefixOf? rest = none := by
      rw [Option.eq_none_iff_forall_ne_some]
      intro more hmore
      exact hrest.not_prefix hd ⟨more, List.isPrefixOf?_eq_some_iff_append_eq.mp hmore⟩
    rw [clauseText, List.nil_append, clause?, hnone]
  | some a =>
    have hsome : keyword.toList.isPrefixOf? (keyword.toList ++ (write a ++ rest)) =
        some (write a ++ rest) := List.isPrefixOf?_eq_some_iff_append_eq.mpr rfl
    rw [clauseText, List.append_assoc, clause?, hsome]
    dsimp only
    rw [hread a rfl]
    rfl

theorem clause?_nothing (keyword : String) (x : Option Unit) {rest : List Char}
    {keywords : List String} (hrest : GoesOn keywords rest) (hd : Distinguished keyword keywords) :
    clause? keyword nothing? (clauseText keyword (fun _ => []) x ++ rest) = some (x, rest) :=
  clause?_clauseText keyword x (fun _ _ => rfl) hrest hd

def Ends (cs : List Char) : Prop := ∀ c ∈ cs.head?, c = ' '

theorem GoesOn.ends {keywords : List String} {rest : List Char} (h : GoesOn keywords rest)
    (hk : ∀ k ∈ keywords, k.toList.head? = some ' ') : Ends rest := by
  obtain rfl | ⟨k, hmem, more, rfl⟩ := h
  · exact fun c hc => nomatch hc
  · have hhead := hk k hmem
    intro c hc
    rw [List.head?_append, hhead] at hc
    exact (Option.some.inj hc).symm

theorem upTo_append {stop : Char} {w rest : List Char} (hw : stop ∉ w)
    (hr : ∀ c ∈ rest.head?, c = stop) : upTo stop (w ++ rest) = (w, rest) := by
  have hall : ∀ c ∈ w, (c != stop) = true := by
    intro c hc
    rw [bne_iff_ne]
    rintro rfl
    exact hw hc
  have hstop : ∀ c ∈ rest.head?, (c != stop) = false := by
    intro c hc
    rw [hr c hc, bne_self_eq_false]
  rw [upTo, takeWhile_append_boundary hall hstop, dropWhile_append_boundary hall hstop]

theorem upTo_stop {stop : Char} {w : List Char} (hw : stop ∉ w) (later : List Char) :
    upTo stop (w ++ stop :: later) = (w, stop :: later) :=
  upTo_append hw fun _ hc => (Option.some.inj hc).symm

theorem blank_notMem_of_isNumeral {s : String} (h : IsNumeral s) : ' ' ∉ s.toList := by
  intro hm
  have hblank := List.all_eq_true.mp h.2 _ hm
  revert hblank
  decide

theorem literal?_bare {cs rest : List Char} (hq : ∀ ds, cs ++ rest ≠ '\'' :: ds) (hb : ' ' ∉ cs)
    (hr : Ends rest) : literal? (cs ++ rest) = some (String.ofList cs, rest) := by
  unfold literal?
  split
  · exact absurd ‹_› (hq _)
  · rw [upTo_append hb hr]

theorem literal?_append {f : Form} {s : String} (h : f.Fits s.toList) {rest : List Char}
    (hr : Ends rest) : literal? (s.toList ++ rest) = some (s, rest) := by
  cases f with
  | null =>
    have hs : s.toList = "NULL".toList := h
    have hq : ∀ ds, s.toList ++ rest ≠ '\'' :: ds := by
      rw [hs]
      rintro ds ⟨⟩
    rw [literal?_bare hq (by rw [hs]; decide) hr, String.ofList_toList]
  | number =>
    have hq : ∀ ds, s.toList ++ rest ≠ '\'' :: ds := by
      obtain ⟨c, cs, he, hc⟩ := IsSigned.head h
      rw [he]
      rintro ds ⟨⟩
      revert hc
      decide
    rw [literal?_bare hq (blank_notMem_of_isNumeral (IsSigned.isNumeral h)) hr,
      String.ofList_toList]
  | text t =>
    have hbody := Form.Fits.eq_quoted h
    have hstart : StartsAnew rest := fun hquote => by cases hr _ hquote
    have hread := closeLiteral?_encode t hstart
    have htext : s.toList ++ rest = '\'' :: (encode t ++ '\'' :: rest) := by simp [hbody]
    rw [htext, literal?, hread, Option.map_some]
    dsimp only
    rw [← hbody, String.ofList_toList]

theorem enclosed?_append {body : String} {literals : List (List Char)}
    (h : Kept 0 body.toList literals) (rest : List Char) :
    enclosed? (body.toList ++ [')'] ++ rest) = some (body, rest) := by
  have hcut := h 0 (')' :: rest) (Nat.le_refl 0) fun _ => by simp [StartsAnew]
  rw [cut?_end] at hcut
  rw [List.append_assoc, List.singleton_append, enclosed?, hcut]
  simp [Body.after, String.ofList_toList]

theorem action?_append (a : ReferentialAction) (rest : List Char) :
    action? (a.text.toList ++ rest) = some (a, rest) := by
  cases a <;> rfl

theorem foreignKey?_text {k : ForeignKey} (ht : '(' ∉ k.table.toList)
    (hc : ')' ∉ k.column.toList) : foreignKey? (foreignKeyText k) = some (k, []) := by
  have hupdate := clause?_clauseText " ON UPDATE " k.onUpdate (fun a _ => action?_append a [])
    (goesOn_nil []) (by decide)
  have hdelete := clause?_clauseText " ON DELETE " k.onDelete (fun a _ => action?_append a _)
    ((goesOn_nil []).clauseText " ON UPDATE " (·.text.toList) k.onUpdate) (by decide)
  rw [List.append_nil] at hupdate hdelete
  rw [foreignKeyText, foreignKey?, upTo_stop ht]
  simp only [List.drop_succ_cons, List.drop_zero, upTo_stop hc, hdelete, hupdate,
    Option.bind_eq_bind, Option.bind_some, String.ofList_toList]
  rfl

/-- An outline that can be read back: its names hold no character that would end them, its default
is a literal, and its check closes every literal and parenthesis that it opens. -/
structure Outline.IsReadable (o : Outline) : Prop where
  name : ' ' ∉ o.name.toList
  default : ∀ s ∈ o.default, ∃ f : Form, f.Fits s.toList
  check : ∀ s ∈ o.check, ∃ literals, Kept 0 s.toList literals
  references : ∀ k ∈ o.references, '(' ∉ k.table.toList ∧ ')' ∉ k.column.toList

theorem Outline.read?_text {o : Outline} (h : o.IsReadable) : read? o.text = some o := by
  obtain ⟨name, storage, nullable, default, unique, check, references⟩ := o
  obtain ⟨hname, hdefault, hcheck, hreferences⟩ := h
  dsimp only at hname hdefault hcheck hreferences
  -- From the last clause to the first: each is read as written, given what may follow it.
  have hread : ∀ k ∈ references, foreignKey? (foreignKeyText k ++ []) = some (k, []) := by
    intro k hk
    rw [List.append_nil]
    exact foreignKey?_text (hreferences k hk).1 (hreferences k hk).2
  have h5 := clause?_clauseText " REFERENCES " references hread (goesOn_nil []) (by decide)
  have g5 := (goesOn_nil []).clauseText " REFERENCES " foreignKeyText references
  rw [List.append_nil] at h5 g5
  unfold text
  dsimp only
  generalize clauseText " REFERENCES " foreignKeyText references = t5 at h5 g5 ⊢
  have h4 := clause?_clauseText " CHECK(" check
    (fun s hs => enclosed?_append (hcheck s hs).choose_spec t5) g5 (by decide)
  have g4 := g5.clauseText " CHECK(" (·.toList ++ [')']) check
  generalize clauseText " CHECK(" (·.toList ++ [')']) check ++ t5 = t4 at h4 g4 ⊢
  have h3 := clause?_nothing " UNIQUE" (if unique then some () else none) g4 (by decide)
  have g3 := g4.clauseText " UNIQUE" (fun _ => []) (if unique then some () else none)
  generalize clauseText " UNIQUE" (fun _ => []) (if unique then some () else none) ++ t4 = t3
    at h3 g3 ⊢
  have h2 := clause?_clauseText " DEFAULT " default
    (fun s hs => literal?_append (hdefault s hs).choose_spec (g3.ends (by decide))) g3 (by decide)
  have g2 := g3.clauseText " DEFAULT " String.toList default
  generalize clauseText " DEFAULT " String.toList default ++ t3 = t2 at h2 g2 ⊢
  have h1 := clause?_nothing " NOT NULL" (if nullable then none else some ()) g2 (by decide)
  have g1 := g2.clauseText " NOT NULL" (fun _ => []) (if nullable then none else some ())
  generalize clauseText " NOT NULL" (fun _ => []) (if nullable then none else some ()) ++ t2 = t1
    at h1 g1 ⊢
  have hword : ' ' ∉ storage.word.toList := by cases storage <;> decide
  have htype := upTo_append hword (g1.ends (by decide))
  rw [read?, upTo_stop hname]
  simp only [List.drop_succ_cons, List.drop_zero, htype, h1, h2, h3, h4, h5, Option.bind_eq_bind,
    Option.bind_some, String.ofList_toList, Storage.ofWord?_word]
  cases nullable <;> cases unique <;> rfl

def checkBody? (column : String) : List Condition → Option String
  | [] => none
  | ks => some (" AND ".intercalate (ks.map (·.text column)))

theorem checkClause?_eq (column : String) (ks : List Condition) :
    checkClause? column ks = (checkBody? column ks).map fun s => "CHECK(" ++ s ++ ")" := by
  cases ks <;> rfl

def outline (c : Column) (u : Unwrapped) : Outline where
  name := c.name
  storage := storage u.leaf
  nullable := u.nullable
  default := u.default.map fun v => defaultLiteral v (storage u.leaf)
  unique := c.unique
  check := checkBody? c.name (conditions c.rule)
  references := c.references

/-- Behind a blank, a clause that may be missing is a keyword and what follows it. -/
theorem flatMap_map_toList {keyword : String} {write : α → List Char} (clause : α → String)
    (h : ∀ a, ' ' :: (clause a).toList = keyword.toList ++ write a) (x : Option α) :
    (x.map clause).toList.flatMap (fun s => ' ' :: s.toList) = clauseText keyword write x := by
  cases x with
  | none => rfl
  | some a => simp [clauseText, h]

theorem flatMap_actionText (word keyword : String)
    (h : ' ' :: word.toList ++ [' '] = keyword.toList) (action : Option ReferentialAction) :
    (actionText word action).flatMap (fun s => ' ' :: s.toList) =
      clauseText keyword (·.text.toList) action := by
  cases action with
  | none => rfl
  | some a => simp [actionText, clauseText, ← h]

theorem flatMap_referenceClauses (references : Option ForeignKey) :
    (referenceClauses references).flatMap (fun s => ' ' :: s.toList) =
      clauseText " REFERENCES " foreignKeyText references := by
  cases references with
  | none => rfl
  | some k =>
    have hdelete := flatMap_actionText "ON DELETE" " ON DELETE " rfl k.onDelete
    have hupdate := flatMap_actionText "ON UPDATE" " ON UPDATE " rfl k.onUpdate
    simp only [referenceClauses, List.flatMap_append, List.flatMap_cons, hdelete, hupdate]
    simp [clauseText, foreignKeyText]

theorem toList_columnText_eq (c : Column) (u : Unwrapped) :
    (columnText c u).toList = (outline c u).text := by
  have hdefault : (u.default.map fun v => defaultClause v (storage u.leaf)).toList.flatMap
      (fun s => ' ' :: s.toList) = clauseText " DEFAULT " String.toList (outline c u).default := by
    have h : _ = clauseText " DEFAULT " String.toList (outline c u).default :=
      flatMap_map_toList (fun s => "DEFAULT " ++ s) (fun s => by simp) (outline c u).default
    rwa [outline, Option.map_map] at h
  have hcheck : (check? c.name c.rule).toList.flatMap (fun s => ' ' :: s.toList) =
      clauseText " CHECK(" (·.toList ++ [')']) (outline c u).check := by
    rw [check?, checkClause?_eq]
    exact flatMap_map_toList _ (fun s => by simp) (outline c u).check
  have hnull : (if u.nullable then [] else ["NOT NULL"]).flatMap (fun s => ' ' :: s.toList) =
      clauseText " NOT NULL" (fun _ => []) (if u.nullable then none else some ()) := by
    cases u.nullable <;> rfl
  have hunique : (if c.unique then ["UNIQUE"] else []).flatMap (fun s => ' ' :: s.toList) =
      clauseText " UNIQUE" (fun _ => []) (if c.unique then some () else none) := by
    cases c.unique <;> rfl
  rw [toList_columnText, laterClauses]
  simp only [List.flatMap_append, hnull, hdefault, hunique, hcheck, flatMap_referenceClauses,
    String.toList_append, List.append_assoc]
  rfl

def isNameChar (c : Char) : Bool := c.isAlphanum || c == '_'

def IsName (s : String) : Prop := s.toList.all isNameChar = true

instance (s : String) : Decidable (IsName s) :=
  inferInstanceAs (Decidable (s.toList.all isNameChar = true))

theorem IsName.notMem {s : String} (h : IsName s) {c : Char} (hc : isNameChar c = false) :
    c ∉ s.toList := by
  intro hm
  rw [List.all_eq_true.mp h c hm] at hc
  cases hc

theorem IsName.isNeutral {s : String} (h : IsName s) : s.toList.all isNeutral = true := by
  rw [List.all_eq_true]
  intro c hc
  simp only [Sql.isNeutral, Bool.and_eq_true, bne_iff_ne]
  refine ⟨⟨⟨?_, ?_⟩, ?_⟩, ?_⟩ <;> rintro rfl <;> exact h.notMem rfl hc

/-- The names in a column, its own and those that it refers to. -/
structure PlainlyNamed (c : Column) : Prop where
  name : IsName c.name
  references : ∀ k ∈ c.references, IsName k.table ∧ IsName k.column

theorem kept_checkBody {column : String} (h : IsName column) {ks : List Condition} {s : String}
    (hs : checkBody? column ks = some s) : ∃ literals, Kept 0 s.toList literals := by
  cases ks with
  | nil => cases hs
  | cons k ks =>
    cases hs
    exact ⟨_, kept_conditions 0 h.isNeutral (k :: ks)⟩

theorem isReadable_outline {c : Column} (h : PlainlyNamed c) (u : Unwrapped) :
    (outline c u).IsReadable where
  name := h.name.notMem rfl
  default := by
    intro s hs
    obtain ⟨v, -, rfl⟩ := Option.map_eq_some_iff.mp hs
    exact ⟨_, fits_defaultLiteral v (storage u.leaf)⟩
  check := fun s hs => kept_checkBody h.name hs
  references := fun k hk => ⟨(h.references k hk).1.notMem rfl, (h.references k hk).2.notMem rfl⟩

/-- A definition can be read back, whatever its default and its check hold. -/
theorem read?_columnText {c : Column} (h : PlainlyNamed c) (u : Unwrapped) :
    Outline.read? (columnText c u).toList = some (outline c u) := by
  rw [toList_columnText_eq]
  exact Outline.read?_text (isReadable_outline h u)

/-- Two columns with one definition have the same name and type, and every clause alike. -/
theorem same_of_defineColumn {c d : Column} (hc : PlainlyNamed c) (hd : PlainlyNamed d)
    {calls calls' later later' : Calls} {text : String} {events events' : List Log.Event}
    (h : defineColumn c calls = (.ok (text, events), later))
    (h' : defineColumn d calls' = (.ok (text, events'), later')) :
    ∃ u v, c.rule.unwrap calls = (.ok u, later) ∧ d.rule.unwrap calls' = (.ok v, later') ∧
      c.name = d.name ∧ storage u.leaf = storage v.leaf ∧ u.nullable = v.nullable ∧
      (u.default.map fun x => defaultLiteral x (storage u.leaf)) =
        (v.default.map fun x => defaultLiteral x (storage v.leaf)) ∧
      c.unique = d.unique ∧ check? c.name c.rule = check? d.name d.rule ∧
      c.references = d.references := by
  obtain ⟨u, hu, -, rfl, -⟩ := exists_of_defineColumn h
  obtain ⟨v, hv, -, ht, -⟩ := exists_of_defineColumn h'
  have ho := read?_columnText hc u
  rw [ht, read?_columnText hd v] at ho
  have heq : outline c u = outline d v := (Option.some.inj ho).symm
  refine ⟨u, v, hu, hv, congrArg Outline.name heq, congrArg Outline.storage heq,
    congrArg Outline.nullable heq, congrArg Outline.default heq, congrArg Outline.unique heq, ?_,
    congrArg Outline.references heq⟩
  have hbody : checkBody? c.name (conditions c.rule) = checkBody? d.name (conditions d.rule) :=
    congrArg Outline.check heq
  rw [check?, check?, checkClause?_eq, checkClause?_eq, hbody]

def worded (default : Layer) (words : Scalar) : Column :=
  ⟨"state", .layer [] default (.scalar [] words), true,
    some ⟨"states", "name", some .setDefault, none⟩⟩

def wordedByEnum : Column :=
  worded (.default (.text "7") none) (.enum ["open", "shut') UNIQUE REFERENCES a(b)"])

def wordedByLiteral : Column :=
  worded (.default .null (some (.counter 0 7)))
    (.literal [.text "open", .text "shut') UNIQUE REFERENCES a(b)"])

theorem same_of_defineColumn_worded :
    PlainlyNamed wordedByEnum ∧ PlainlyNamed wordedByLiteral ∧
    ∃ text events events', defineColumn wordedByEnum [] = (.ok (text, events), []) ∧
      defineColumn wordedByLiteral [] = (.ok (text, events'), [0]) ∧
      check? "state" wordedByEnum.rule = check? "state" wordedByLiteral.rule := by
  have hplain (default : Layer) (words : Scalar) : PlainlyNamed (worded default words) := by
    have hstate : IsName "state" := by decide
    have hstates : IsName "states" := by decide
    have hname : IsName "name" := by decide
    refine ⟨hstate, ?_⟩
    rintro k ⟨⟩
    exact ⟨hstates, hname⟩
  have henum : defineColumn wordedByEnum [] = (.ok (("state TEXT NOT NULL DEFAULT '7' UNIQUE "
      ++ "CHECK(state IN ('open', 'shut'') UNIQUE REFERENCES a(b)')) "
      ++ "REFERENCES states(name) ON DELETE SET DEFAULT"), _), []) := rfl
  have hliteral : defineColumn wordedByLiteral [] = (.ok (("state TEXT NOT NULL DEFAULT '7' UNIQUE "
      ++ "CHECK(state IN ('open', 'shut'') UNIQUE REFERENCES a(b)')) "
      ++ "REFERENCES states(name) ON DELETE SET DEFAULT"), _), [0]) := rfl
  obtain ⟨_, _, -, -, -, -, -, -, -, hcheck, -⟩ :=
    same_of_defineColumn (hplain _ _) (hplain _ _) henum hliteral
  exact ⟨hplain _ _, hplain _ _, _, _, _, henum, hliteral, hcheck⟩

end Tablewright.Sql
