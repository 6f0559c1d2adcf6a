import Tablewright.Proofs.Text.JsonReader
import Tablewright.Proofs.Value.Entries

namespace Tablewright

namespace Value

/-- Null, a truth value, an integer or a text, or a list of such values, or a dictionary of such
values under names, no two of which are equal. -/
inductive IsPlain : Value → Prop
  | null : IsPlain .null
  | bool (b : Bool) : IsPlain (.bool b)
  | int (n : Int) : IsPlain (.int n)
  | text (s : String) : IsPlain (.text s)
  | list {xs : List Value} (each : ∀ x ∈ xs, IsPlain x) : IsPlain (.list xs)
  | dict {es : List (Value × Value)} (named : ∀ e ∈ es, ∃ name, e.1 = .text name)
      (distinct : (es.map (·.1)).Nodup) (each : ∀ e ∈ es, IsPlain e.2) : IsPlain (.dict es)

section

variable {es : List (Value × Value)} (named : ∀ e ∈ es, ∃ name, e.1 = .text name)

include named

theorem nodup_insertKey (distinct : (es.map (·.1)).Nodup) (name : String) (v : Value) :
    ((insertKey (.text name) v es).map (·.1)).Nodup := by
  induction es with
  | nil => simp [insertKey]
  | cons e es ih =>
    obtain ⟨⟨other, hother⟩, hes⟩ := List.forall_mem_cons.mp named
    obtain ⟨hfirst, hrest⟩ := List.nodup_cons.mp distinct
    obtain ⟨k, w⟩ := e
    dsimp only at hother hfirst
    subst hother
    rw [insertKey]
    split
    · exact distinct
    · rename_i hsame
      rw [sameKey_text_left] at hsame
      refine List.nodup_cons.mpr ⟨fun hm => ?_, ih hes hrest⟩
      obtain ⟨f, hf, hkey⟩ := List.mem_map.mp hm
      dsimp only at hkey
      obtain hnew | hold := key_of_mem_insertKey hf
      · exact hsame (hnew.symm.trans hkey)
      · exact hfirst (hkey ▸ hold)

theorem insertKey_of_notMem {name : String} (h : .text name ∉ es.map (·.1)) (v : Value) :
    insertKey (.text name) v es = es ++ [(.text name, v)] := by
  induction es with
  | nil => rfl
  | cons e es ih =>
    obtain ⟨⟨other, hother⟩, hes⟩ := List.forall_mem_cons.mp named
    rw [List.map_cons, List.mem_cons, not_or] at h
    obtain ⟨k, w⟩ := e
    dsimp only at hother h
    subst hother
    have hsame : ¬(Value.text other).sameKey (.text name) = true := by
      rw [sameKey_text_left]
      exact h.1
    rw [insertKey, if_neg hsame, ih hes h.2]
    rfl

theorem foldl_insertKey_of_nodup {before : List (Value × Value)}
    (hb : ∀ e ∈ before, ∃ name, e.1 = .text name) (hd : ((before ++ es).map (·.1)).Nodup) :
    es.foldl (fun entries e => insertKey e.1 e.2 entries) before = before ++ es := by
  induction es generalizing before with
  | nil => simp
  | cons e es ih =>
    obtain ⟨⟨name, hname⟩, hes⟩ := List.forall_mem_cons.mp named
    obtain ⟨k, v⟩ := e
    dsimp only at hname
    subst hname
    have hnew : .text name ∉ before.map (·.1) := by
      rw [List.map_append, List.map_cons] at hd
      obtain ⟨-, -, hapart⟩ := List.nodup_append.mp hd
      exact fun hm => hapart _ hm _ List.mem_cons_self rfl
    have hnamed : ∀ e ∈ before ++ [(text name, v)], ∃ name, e.1 = .text name :=
      List.forall_mem_append.mpr ⟨hb, List.forall_mem_singleton.mpr ⟨name, rfl⟩⟩
    have hdistinct : ((before ++ [(text name, v)] ++ es).map (·.1)).Nodup := by
      simpa using hd
    rw [List.foldl_cons, insertKey_of_notMem hb hnew v, ih hes hnamed hdistinct]
    simp

theorem ofPairs_of_nodup (distinct : (es.map (·.1)).Nodup) : ofPairs es = .dict es :=
  congrArg Value.dict (foldl_insertKey_of_nodup named nofun distinct)

end

theorem mem_insertKey {k v : Value} {es : List (Value × Value)} {e : Value × Value}
    (h : e ∈ insertKey k v es) : e ∈ es ∨ e.2 = v := by
  induction es with
  | nil => exact .inr (congrArg Prod.snd (List.mem_singleton.mp h))
  | cons entry es ih =>
    rw [insertKey] at h
    split at h
    · obtain rfl | h := List.mem_cons.mp h
      · exact .inr rfl
      · exact .inl (List.mem_cons_of_mem _ h)
    · obtain rfl | h := List.mem_cons.mp h
      · exact .inl List.mem_cons_self
      · exact (ih h).imp_left (List.mem_cons_of_mem _)

theorem IsPlain.insertKey {es : List (Value × Value)} (h : (Value.dict es).IsPlain) (name : String)
    {v : Value} (hv : v.IsPlain) : (Value.dict (insertKey (.text name) v es)).IsPlain := by
  cases h with
  | dict named distinct each =>
    refine .dict (fun e he => ?_) (nodup_insertKey named distinct name v) fun e he => ?_
    · obtain hkey | hkey := key_of_mem_insertKey he
      · exact ⟨name, hkey⟩
      · obtain ⟨f, hf, hfe⟩ := List.mem_map.mp hkey
        obtain ⟨other, hother⟩ := named f hf
        exact ⟨other, hfe ▸ hother⟩
    · obtain he | he := mem_insertKey he
      · exact each e he
      · exact he ▸ hv

end Value

namespace Json

mutual

def toValue : Json → Value
  | .null => .null
  | .bool b => .bool b
  | .int n => .int n
  | .float x => .float x
  | .text s => .text s
  | .list items => .list (toValues items)
  | .object fields => .ofPairs (toPairs fields)

def toValues : List Json → List Value
  | [] => []
  | j :: js => toValue j :: toValues js

def toPairs : List (String × Json) → List (Value × Value)
  | [] => []
  | (name, j) :: fs => (.text name, toValue j) :: toPairs fs

end

def load? (line : String) : Option Value := (decode? line.toList).map toValue

/-- A value that can be written without doubles and tells the value it was made from. -/
def Tells (j : Json) (v : Value) : Prop := j.Exact ∧ j.toValue = v

/-- What comes of writing: the result, unless a number in the value has too many digits. -/
def orTooLong (fits : Bool) (a : α) : Except Fault α :=
  if fits then .ok a else .error .tooManyDigits

theorem exists_ofItems {xs : List Value}
    (h : ∀ x ∈ xs, ∃ j : Json, j.Tells x ∧ ofValue x = orTooLong x.isWritable j) :
    ∃ js : List Json, (∀ j ∈ js, j.Exact) ∧ toValues js = xs ∧
      ofItems xs = orTooLong (Value.allWritable xs) js := by
  induction xs with
  | nil => exact ⟨[], nofun, rfl, rfl⟩
  | cons x xs ih =>
    obtain ⟨⟨j, ⟨hexact, hvalue⟩, hj⟩, hxs⟩ := List.forall_mem_cons.mp h
    obtain ⟨js, hall, hvalues, hjs⟩ := ih hxs
    refine ⟨j :: js, List.forall_mem_cons.mpr ⟨hexact, hall⟩, by rw [toValues, hvalue, hvalues], ?_⟩
    rw [ofItems, hj, hjs, Value.allWritable]
    cases x.isWritable <;> cases Value.allWritable xs <;> rfl

theorem exists_ofEntries {es : List (Value × Value)} (named : ∀ e ∈ es, ∃ name, e.1 = .text name)
    (h : ∀ e ∈ es, ∃ j : Json, j.Tells e.2 ∧ ofValue e.2 = orTooLong e.2.isWritable j) :
    ∃ fs : List (String × Json), (∀ p ∈ fs, p.2.Exact) ∧ toPairs fs = es ∧
      ofEntries es = orTooLong (Value.entriesWritable es) fs := by
  induction es with
  | nil => exact ⟨[], nofun, rfl, rfl⟩
  | cons e es ih =>
    obtain ⟨⟨name, hname⟩, hnamed⟩ := List.forall_mem_cons.mp named
    obtain ⟨⟨j, ⟨hexact, hvalue⟩, hj⟩, hes⟩ := List.forall_mem_cons.mp h
    obtain ⟨fs, hall, hpairs, hfs⟩ := ih hnamed hes
    obtain ⟨k, v⟩ := e
    dsimp only at hname hvalue hj
    subst hname
    refine ⟨(name, j) :: fs, List.forall_mem_cons.mpr ⟨hexact, hall⟩,
      by rw [toPairs, hvalue, hpairs], ?_⟩
    rw [ofEntries, key, hj, hfs, Value.entriesWritable, Value.isWritable.eq_def (.text name)]
    cases v.isWritable <;> cases Value.entriesWritable es <;> rfl

/-- A plain value is written when its numbers can be, and then the writing tells it. -/
theorem exists_ofValue {v : Value} (h : v.IsPlain) :
    ∃ j : Json, j.Tells v ∧ ofValue v = orTooLong v.isWritable j := by
  induction h with
  | null => exact ⟨.null, ⟨.null, rfl⟩, rfl⟩
  | bool b => exact ⟨.bool b, ⟨.bool b, rfl⟩, rfl⟩
  | int n =>
    refine ⟨.int n, ⟨.int n, rfl⟩, ?_⟩
    rw [ofValue, ofInt, Value.isWritable]
    cases hasNumeral n <;> rfl
  | text s => exact ⟨.text s, ⟨.text s, rfl⟩, rfl⟩
  | list _ ih =>
    obtain ⟨js, hall, hvalues, hjs⟩ := exists_ofItems ih
    refine ⟨.list js, ⟨.list hall, by rw [toValue, hvalues]⟩, ?_⟩
    rw [ofValue, hjs, Value.isWritable]
    cases Value.allWritable _ <;> rfl
  | dict named distinct _ ih =>
    obtain ⟨fs, hall, hpairs, hfs⟩ := exists_ofEntries named ih
    refine ⟨.object fs, ⟨.object hall, ?_⟩, ?_⟩
    · rw [toValue, hpairs, Value.ofPairs_of_nodup named distinct]
    · rw [ofValue, hfs, Value.isWritable]
      cases Value.entriesWritable _ <;> rfl

/-- A plain value is written on a line of visible characters, from which it is read back, unless a
number in it is too long. -/
theorem load?_encode {v : Value} (h : v.IsPlain) :
    ∃ j : Json, ofValue v = orTooLong v.isWritable j ∧ IsVisible j.encode ∧
      load? (String.ofList j.encode) = some v := by
  obtain ⟨j, ⟨hexact, hvalue⟩, hj⟩ := exists_ofValue h
  refine ⟨j, hj, visible_encode j, ?_⟩
  rw [load?, String.toList_ofList, decode?_encode hexact, Option.map_some, hvalue]

end Json

end Tablewright
