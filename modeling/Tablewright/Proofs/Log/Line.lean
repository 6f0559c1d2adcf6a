import Mathlib.Algebra.Group.Nat.Defs
import Tablewright.Log.Record
import Tablewright.Proofs.Value.Plain

namespace Tablewright.Log

structure Context.IsPlain (c : Context) : Prop where
  table : c.table.IsPlain
  column : c.column.IsPlain
  source : c.source.IsPlain
  operation : c.operation.IsPlain
  extra : (Value.dict c.extra).IsPlain

theorem isPlain_merge {outer inner : List (Value × Value)} (ho : (Value.dict outer).IsPlain)
    (hi : (Value.dict inner).IsPlain) : (Value.dict (Context.merge outer inner)).IsPlain := by
  cases hi with
  | dict named distinct each =>
    induction inner generalizing outer with
    | nil => exact ho
    | cons e rest ih =>
      obtain ⟨⟨name, hname⟩, hnamed⟩ := List.forall_mem_cons.mp named
      obtain ⟨hv, heach⟩ := List.forall_mem_cons.mp each
      have hstep : Context.merge outer (e :: rest) =
          Context.merge (Value.insertKey e.1 e.2 outer) rest := rfl
      rw [hstep, hname]
      exact ih (ho.insertKey name hv) hnamed (List.nodup_cons.mp distinct).2 heach

theorem Context.IsPlain.fields {c : Context} (h : c.IsPlain) : (Value.dict c.fields).IsPlain := by
  have hnamed : (Value.dict ([(.text "table", c.table), (.text "column", c.column),
      (.text "source", c.source), (.text "operation", c.operation)].filter
        (!·.2.isNull))).IsPlain := by
    refine .dict (fun e he => ?_) ?_ fun e he => ?_
    · have hall : ∀ e ∈ [(Value.text "table", c.table), (.text "column", c.column),
          (.text "source", c.source), (.text "operation", c.operation)],
          ∃ name, e.1 = .text name := by simp
      exact hall e (List.mem_of_mem_filter he)
    · refine List.Nodup.sublist (List.filter_sublist.map _) ?_
      simp
    · have hall : ∀ e ∈ [(Value.text "table", c.table), (.text "column", c.column),
          (.text "source", c.source), (.text "operation", c.operation)], e.2.IsPlain := by
        simp [h.table, h.column, h.source, h.operation]
      exact hall e (List.mem_of_mem_filter he)
  exact isPlain_merge hnamed h.extra

namespace Record

structure IsPlain (r : Record) : Prop where
  message : r.message.IsPlain
  context : r.context.IsPlain
  extra : (Value.dict r.extra).IsPlain

def siteEntries (s : Site) : List (Value × Value) :=
  [(.text "file", .text (baseName s.file)), (.text "line", .int s.line),
    (.text "function", (s.function.map Value.text).getD .null)]

def isWritable (r : Record) : Bool :=
  r.message.isWritable && (Value.dict r.context.fields).isWritable
    && (Value.dict r.extra).isWritable && hasNumeral r.site.line

def part (name : String) (entries : List (Value × Value)) : List (Value × Value) :=
  if entries.isEmpty then [] else [(.text name, .dict entries)]

def document (now : DateTime) (r : Record) : List (Value × Value) :=
  [(.text "timestamp", .text (timestamp now)), (.text "level", .text r.level.name),
    (.text "logger", .text r.logger), (.text "message", .text r.text)]
    ++ part "context" r.context.fields ++ part "data" r.extra
    ++ (r.failure.map fun f => (.text "exception", .text f.message)).toList
    ++ [(.text "source", .dict (siteEntries r.site))]

theorem ofEntries_append (es ds : List (Value × Value)) :
    Json.ofEntries (es ++ ds) = (Json.ofEntries es).bind fun fs =>
      (Json.ofEntries ds).map (fs ++ ·) := by
  induction es with
  | nil =>
    rw [List.nil_append, Json.ofEntries]
    cases Json.ofEntries ds <;> rfl
  | cons e es ih =>
    obtain ⟨k, v⟩ := e
    rw [List.cons_append, Json.ofEntries, Json.ofEntries, ih]
    cases Json.key k <;> cases Json.ofValue v <;> cases Json.ofEntries es <;>
      cases Json.ofEntries ds <;> rfl

theorem ofEntries_part (name : String) (entries : List (Value × Value)) :
    Json.ofEntries (part name entries) = named name entries := by
  unfold part named
  split
  · rfl
  · rw [Json.ofEntries, Json.ofValue, Json.key]
    cases Json.ofEntries entries <;> rfl

theorem ofEntries_site (s : Site) :
    Json.ofEntries [(.text "source", .dict (siteEntries s))] =
      (siteFields s).map fun j => [("source", j)] := by
  cases hf : s.function <;> cases hl : Json.ofInt s.line <;>
    simp [siteEntries, siteFields, Json.ofEntries, Json.ofValue, Json.key, hf, hl] <;> rfl

theorem structured_eq (now : DateTime) {r : Record} (h : r.message.isWritable = true) :
    r.structured now = Json.ofValue (.dict (r.document now)) := by
  rw [structured, if_pos h, document, Json.ofValue, ofEntries_append, ofEntries_append,
    ofEntries_append, ofEntries_append, ofEntries_part, ofEntries_part, ofEntries_site]
  cases named "context" r.context.fields <;> cases named "data" r.extra <;>
    cases r.failure <;> cases siteFields r.site <;> rfl

theorem entriesWritable_append (es ds : List (Value × Value)) :
    Value.entriesWritable (es ++ ds) =
      (Value.entriesWritable es && Value.entriesWritable ds) := by
  induction es with
  | nil => rfl
  | cons e es ih =>
    obtain ⟨k, v⟩ := e
    rw [List.cons_append, Value.entriesWritable, Value.entriesWritable, ih, ← Bool.and_assoc]

theorem isWritable_part (name : String) (entries : List (Value × Value)) :
    Value.entriesWritable (part name entries) = (Value.dict entries).isWritable := by
  cases entries <;> simp [part, Value.entriesWritable, Value.isWritable]

/-- The numbers of the dictionary are those of the record but for the ones in its message, which
stand in the text of it. -/
theorem isWritable_document (now : DateTime) (r : Record) :
    r.isWritable = (r.message.isWritable && (Value.dict (r.document now)).isWritable) := by
  cases hf : r.failure <;> cases hs : r.site.function <;>
    simp [isWritable, document, Value.isWritable, entriesWritable_append, isWritable_part,
      Value.entriesWritable, siteEntries, Bool.and_assoc, hf, hs]

def names : List String :=
  ["timestamp", "level", "logger", "message", "context", "data", "exception", "source"]

theorem isPlain_part {name : String} {entries : List (Value × Value)}
    (h : (Value.dict entries).IsPlain) : ∀ e ∈ part name entries, e.2.IsPlain := by
  unfold part
  split
  · exact nofun
  · exact List.forall_mem_singleton.mpr h

theorem isPlain_site (s : Site) : (Value.dict (siteEntries s)).IsPlain := by
  refine .dict (by simp [siteEntries]) (by simp [siteEntries]) ?_
  have hfunction : ((s.function.map Value.text).getD .null).IsPlain := by
    cases s.function with
    | none => exact .null
    | some f => exact .text f
  simp only [siteEntries, List.forall_mem_cons, List.not_mem_nil, false_implies, implies_true]
  exact ⟨.text _, .int _, hfunction, trivial⟩

theorem sublist_part (name : String) (entries : List (Value × Value)) :
    ((part name entries).map (·.1)).Sublist [.text name] := by
  unfold part
  split
  · exact List.nil_sublist _
  · exact .refl _

theorem sublist_document (now : DateTime) (r : Record) :
    ((r.document now).map (·.1)).Sublist (names.map .text) := by
  have hfailure : ((r.failure.map fun f =>
      (Value.text "exception", Value.text f.message)).toList.map (·.1)).Sublist
        [Value.text "exception"] := by
    cases r.failure with
    | none => exact List.nil_sublist _
    | some f => exact .refl _
  simp only [document, List.map_append]
  exact ((((List.Sublist.refl _).append (sublist_part "context" _)).append
    (sublist_part "data" _)).append hfailure).append (.refl _)

theorem isPlain_document (now : DateTime) {r : Record} (h : r.IsPlain) :
    (Value.dict (r.document now)).IsPlain := by
  have hnames : (names.map Value.text).Nodup := by
    simp [names]
  have hkeys := sublist_document now r
  refine .dict (fun e he => ?_) (hnames.sublist hkeys) ?_
  · obtain ⟨name, -, hname⟩ := List.mem_map.mp (hkeys.subset (List.mem_map_of_mem he))
    exact ⟨name, hname.symm⟩
  · simp only [document, List.forall_mem_append]
    refine ⟨⟨⟨⟨?_, isPlain_part h.context.fields⟩, isPlain_part h.extra⟩, ?_⟩,
      List.forall_mem_singleton.mpr (isPlain_site r.site)⟩
    · simp only [List.forall_mem_cons, List.not_mem_nil, false_implies, implies_true, and_true]
      exact ⟨.text _, .text _, .text _, .text _⟩
    · cases r.failure with
      | none => exact nofun
      | some f => exact List.forall_mem_singleton.mpr (.text _)

/-- What the dictionary of a line says about a record, and that it says nothing else. -/
structure Told (now : DateTime) (r : Record) (fields : List (Value × Value)) : Prop where
  level : Value.field? fields "level" = some (.text r.level.name)
  logger : Value.field? fields "logger" = some (.text r.logger)
  message : Value.field? fields "message" = some (.text r.text)
  context : Value.field? fields "context" =
    if r.context.fields.isEmpty then none else some (.dict r.context.fields)
  data : Value.field? fields "data" = if r.extra.isEmpty then none else some (.dict r.extra)
  exception : Value.field? fields "exception" = r.failure.map fun f => .text f.message
  timestamp : Value.field? fields "timestamp" = some (.text (timestamp now))
  source : Value.field? fields "source" = some (.dict (siteEntries r.site))
  distinct : (fields.map (·.1)).Nodup
  only : ∀ e ∈ fields, e.1 ∈ names.map Value.text

theorem field?_append (es ds : List (Value × Value)) (name : String) :
    Value.field? (es ++ ds) name = (Value.field? es name).or (Value.field? ds name) := by
  rw [Value.field?, Value.field?, Value.field?, List.find?_append]
  cases es.find? (·.1.isText name) <;> rfl

theorem field?_part (name other : String) (entries : List (Value × Value)) :
    Value.field? (part name entries) other =
      if entries.isEmpty ∨ name ≠ other then none else some (.dict entries) := by
  unfold part
  by_cases he : entries.isEmpty = true <;> by_cases hn : name = other <;>
    simp [Value.field?, Value.isText, he, hn]

theorem told_document (now : DateTime) (r : Record) : Told now r (r.document now) := by
  have hlookup (name : String) : Value.field? (r.document now) name =
      ((((Value.field? [(.text "timestamp", .text (timestamp now)),
        (.text "level", .text r.level.name), (.text "logger", .text r.logger),
        (.text "message", .text r.text)] name).or
        (Value.field? (part "context" r.context.fields) name)).or
        (Value.field? (part "data" r.extra) name)).or
        (Value.field? (r.failure.map fun f =>
          (Value.text "exception", Value.text f.message)).toList name)).or
        (Value.field? [(.text "source", .dict (siteEntries r.site))] name) := by
    rw [document, field?_append, field?_append, field?_append, field?_append]
  have hkeys := sublist_document now r
  have hnames : (names.map Value.text).Nodup := by
    simp [names]
  refine ⟨?_, ?_, ?_, ?_, ?_, ?_, ?_, ?_, hnames.sublist hkeys,
    fun e he => hkeys.subset (List.mem_map_of_mem he)⟩
  all_goals simp only [hlookup, field?_part]
  all_goals cases r.failure <;> simp [Value.field?, Value.isText]

end Record

/-- The line of a record holds the dictionary that it tells, if no number in it is too long. -/
theorem load?_line (now : DateTime) {r : Record} (h : r.IsPlain) :
    ∃ line, Format.structured.line now r = Json.orTooLong r.isWritable line ∧
      Json.IsVisible line.toList ∧ Json.load? line = some (.dict (r.document now)) := by
  obtain ⟨j, hj, hvisible, hload⟩ := Json.load?_encode (Record.isPlain_document now h)
  refine ⟨String.ofList j.encode, ?_, by rwa [String.toList_ofList], hload⟩
  rw [Format.line, Record.isWritable_document now]
  cases hm : r.message.isWritable with
  | false =>
    rw [Record.structured, hm]
    rfl
  | true =>
    rw [Record.structured_eq now hm, hj]
    cases (Value.dict (r.document now)).isWritable <;> rfl

def counted (n : Int) : Record where
  level := .info
  logger := "a"
  message := .int n
  context := .empty
  extra := []
  failure := none
  site := ⟨"a.py", 1, none⟩

theorem counted_isPlain (n : Int) : (counted n).IsPlain := by
  have hempty : (Value.dict []).IsPlain := .dict nofun .nil nofun
  exact ⟨.int n, ⟨.null, .null, .null, .null, hempty⟩, hempty⟩

theorem isWritable_counted (n : Int) : (counted n).isWritable = hasNumeral n := by
  have hline : hasNumeral 1 = true := by decide
  simp [Record.isWritable, counted, Value.isWritable, Context.fields, Context.empty,
    Context.merge, Value.isNull, Value.entriesWritable, hline]

/-- A message that is a number comes back as its text, and when it is too long there is no line. A
pair of halves in a text is written like the one code point that it stands for. -/
theorem message_retyped :
    (∃ line fields, Format.structured.line ⟨⟨2026, 10, 19⟩, .midnight⟩ (counted 42) = .ok line ∧
      Json.load? line = some (.dict fields) ∧
      Value.field? fields "message" = some (.text "42") ∧ (counted 42).message = .int 42) ∧
    Format.structured.line ⟨⟨2026, 10, 19⟩, .midnight⟩ (counted (10 ^ digitLimit : Nat)) =
      .error .tooManyDigits ∧
    Json.quotePoints [0xd83d, 0xde00] = Json.quotePoints [0x1f600] := by
  refine ⟨?_, ?_, (Json.quotePoints_eq_iff (by decide) (by decide)).mpr (by decide)⟩
  · obtain ⟨line, hline, -, hload⟩ := load?_line ⟨⟨2026, 10, 19⟩, .midnight⟩ (counted_isPlain 42)
    have hshort : (counted 42).isWritable = true := by decide
    rw [hshort] at hline
    exact ⟨line, _, hline, hload, (Record.told_document _ (counted 42)).message, rfl⟩
  · have hnone (n : Int) (hn : hasNumeral n = false) :
        Format.structured.line ⟨⟨2026, 10, 19⟩, .midnight⟩ (counted n) = .error .tooManyDigits := by
      obtain ⟨line, hline, -⟩ := load?_line ⟨⟨2026, 10, 19⟩, .midnight⟩ (counted_isPlain n)
      rwa [isWritable_counted, hn] at hline
    apply hnone
    rw [Bool.eq_false_iff, ne_eq, hasNumeral_iff, Int.natAbs_natCast]
    exact Nat.lt_irrefl _

/-- The line of a record is made of visible characters alone, and what is read from it is what the
record and its context say. No line is there when a number in the record has too many digits. -/
theorem unforgeable_line (now : DateTime) {r : Record} (h : r.IsPlain) :
    (r.isWritable = true → ∃ line fields, Format.structured.line now r = .ok line ∧
      Json.IsVisible line.toList ∧ Json.load? line = some (.dict fields) ∧
      r.Told now fields) ∧
    (r.isWritable = false → Format.structured.line now r = .error .tooManyDigits) := by
  obtain ⟨line, hline, hvisible, hload⟩ := load?_line now h
  constructor
  · intro hw
    rw [hw] at hline
    exact ⟨line, _, hline, hvisible, hload, Record.told_document now r⟩
  · intro hw
    rwa [hw] at hline

/-- A message that closes the text and begins a second line, a table whose name is a quote and a
character beyond the basic plane, and a further field that takes the name of a context field. -/
def hostile : Record where
  level := .info
  logger := "a\"b"
  message := .text "x\", \"level\": \"ERROR\"\x7d\n\x7b\\\x7f"
  context := ⟨.text "\"😀", .null, .null, .text "compile",
    [(.text "table", .list [.int (-3), .bool true, .dict [(.text "", .null)]])]⟩
  extra := [(.text "level", .text "\n"), (.text "\\", .dict [])]
  failure := some ⟨"ValueError", "\r\n\"\x7d"⟩
  site := ⟨"/srv/a\"b.py", 7, none⟩

theorem hostile_isPlain : hostile.IsPlain := by
  have hnested : (Value.dict [(.text "", .null)]).IsPlain :=
    .dict (by simp) (by simp) (List.forall_mem_singleton.mpr .null)
  have hlist : (Value.list [.int (-3), .bool true, .dict [(.text "", .null)]]).IsPlain :=
    .list (by simp [Value.IsPlain.int, Value.IsPlain.bool, hnested])
  have hextra : (Value.dict [(.text "table", .list [.int (-3), .bool true,
      .dict [(.text "", .null)]])]).IsPlain :=
    .dict (by simp) (by simp) (List.forall_mem_singleton.mpr hlist)
  have hempty : (Value.dict []).IsPlain := .dict nofun .nil nofun
  refine ⟨.text _, ⟨.text _, .null, .null, .text _, hextra⟩, .dict ?_ ?_ ?_⟩
  · simp [hostile]
  · simp [hostile]
  · simp [hostile, Value.IsPlain.text, hempty]

/-- None of it gets out of the field that it stands in. -/
theorem unforgeable_line_hostile :
    hostile.IsPlain ∧ hostile.isWritable = true ∧ ∃ line fields,
      Format.structured.line ⟨⟨2026, 10, 19⟩, .midnight⟩ hostile = .ok line ∧
      Json.IsVisible line.toList ∧ Json.load? line = some (.dict fields) ∧
      hostile.Told ⟨⟨2026, 10, 19⟩, .midnight⟩ fields := by
  have hwritable : hostile.isWritable = true := by decide
  exact ⟨hostile_isPlain, hwritable, (unforgeable_line _ hostile_isPlain).1 hwritable⟩

end Tablewright.Log
