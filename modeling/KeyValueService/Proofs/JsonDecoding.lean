import KeyValueService.Proofs.UnbrokenTexts
import KeyValueService.Record.Style
import Mathlib.Data.List.Basic
import Std.Data.String.ToNat

/-!
# What a log file in JSON tells

A JSON object is put together from parts of which each shows where it ends, whatever stands behind
it: fixed words, numbers and stamps up to the character that closes them, and escaped texts up to
the first quote that is not escaped (`escaped_quoted`). Messages and sessions may hold anything, line
breaks and imitated members included, so the lines of a file do not tell its records apart; the
objects do. Their texts one after the other are those of one list of contents only
(`json_decodes_uniquely`).
-/

namespace KeyValueService

open Text

/-! ## Texts that show where they end -/

/-- Whatever stands behind it, a text of `write` shows the `view` of what was written and where the
rest begins. -/
def SelfDelimiting {α β : Type} (write : α → List Char) (view : α → β) : Prop :=
  ∀ ⦃a b : α⦄ ⦃rest tail : List Char⦄, write a ++ rest = write b ++ tail →
    view a = view b ∧ rest = tail

/-- The first occurrence of a character tells what stands before it and what stands behind it. -/
theorem append_cons_inj {c : Char} {front other rest tail : List Char} (absent : c ∉ front)
    (otherAbsent : c ∉ other) (same : front ++ c :: rest = other ++ c :: tail) :
    front = other ∧ rest = tail := by
  induction front generalizing other with
  | nil =>
    cases other with
    | nil => exact ⟨rfl, (List.cons.inj same).2⟩
    | cons d other => exact absurd (List.cons.inj same).1 (List.ne_of_not_mem_cons otherAbsent)
  | cons d front inductionHypothesis =>
    cases other with
    | nil => exact absurd (List.cons.inj same).1.symm (List.ne_of_not_mem_cons absent)
    | cons e other =>
      obtain ⟨first, others⟩ := List.cons.inj same
      obtain ⟨middle, rests⟩ := inductionHypothesis (List.not_mem_of_not_mem_cons absent)
        (List.not_mem_of_not_mem_cons otherAbsent) others
      exact ⟨List.cons_eq_cons.2 ⟨first, middle⟩, rests⟩

namespace SelfDelimiting

variable {α β γ : Type} {write more : α → List Char} {view : α → β} {other : α → γ}

/-- Of two parts, the first shows where the second begins. -/
theorem append (first : SelfDelimiting write view) (second : SelfDelimiting more other) :
    SelfDelimiting (fun a => write a ++ more a) fun a => (view a, other a) := by
  intro a b rest tail same
  rw [List.append_assoc, List.append_assoc] at same
  obtain ⟨front, back⟩ := first same
  obtain ⟨middle, rests⟩ := second back
  exact ⟨Prod.ext front middle, rests⟩

/-- A fixed text tells nothing. -/
theorem word (text : List Char) : SelfDelimiting (fun _ : α => text) fun _ => () :=
  fun _ _ _ _ same => ⟨rfl, List.append_cancel_left same⟩

/-- A text that is closed by a character that it does not hold. -/
theorem closed {c : Char} (absent : ∀ a, c ∉ write a) :
    SelfDelimiting (fun a => write a ++ [c]) write := by
  intro a b rest tail same
  rw [List.append_assoc, List.append_assoc, List.singleton_append, List.singleton_append] at same
  exact append_cons_inj (absent a) (absent b) same

/-- The view may be told in other words, or in part. -/
theorem tell (told : SelfDelimiting write view)
    (follows : ∀ {a b}, view a = view b → other a = other b) : SelfDelimiting write other :=
  fun _ _ _ _ same => (told same).imp_left fun views => follows views

/-- One after the other, texts that are not empty tell their views one after the other. -/
theorem flatMap (told : SelfDelimiting write view) (filled : ∀ a, write a ≠ [])
    {as bs : List α} (same : as.flatMap write = bs.flatMap write) : as.map view = bs.map view := by
  induction as generalizing bs with
  | nil =>
    cases bs with
    | nil => rfl
    | cons b bs =>
      rw [List.flatMap_nil, List.flatMap_cons, eq_comm, List.append_eq_nil_iff] at same
      exact absurd same.1 (filled b)
  | cons a as inductionHypothesis =>
    cases bs with
    | nil =>
      rw [List.flatMap_nil, List.flatMap_cons, List.append_eq_nil_iff] at same
      exact absurd same.1 (filled a)
    | cons b bs =>
      rw [List.flatMap_cons, List.flatMap_cons] at same
      obtain ⟨first, rest⟩ := told same
      rw [List.map_cons, List.map_cons, first, inductionHypothesis rest]

end SelfDelimiting

/-! ## Escaped texts -/

namespace Record

/-- What stands for a character of a message or a session. -/
def jsonChar (c : Char) : List Char :=
  if c = '\"' ∨ c = '\\' then ['\\', c] else [c]

theorem toList_escapeJson (s : String) : (escapeJson s).toList = s.toList.flatMap jsonChar := by
  rw [escapeJson, String.toList_ofList]
  rfl

/-- A backslash is never left alone, so it tells that the next character is meant as it is. -/
theorem selfDelimiting_jsonChar : SelfDelimiting jsonChar id := by
  intro c d rest tail same
  unfold jsonChar at same
  by_cases escaped : c = '\"' ∨ c = '\\'
  · by_cases otherEscaped : d = '\"' ∨ d = '\\'
    · simpa [escaped, otherEscaped] using same
    · simp only [escaped, otherEscaped, if_true, if_false, List.cons_append,
        List.cons.injEq] at same
      exact absurd (.inr same.1.symm) otherEscaped
  · by_cases otherEscaped : d = '\"' ∨ d = '\\'
    · simp only [escaped, otherEscaped, if_true, if_false, List.cons_append,
        List.cons.injEq] at same
      exact absurd (.inr same.1) escaped
    · simpa [escaped, otherEscaped] using same

theorem jsonChar_append_ne (c : Char) (rest tail : List Char) :
    jsonChar c ++ rest ≠ '\"' :: tail := by
  unfold jsonChar
  split
  next escaped => simp
  next plain =>
    intro same
    rw [List.singleton_append, List.cons.injEq] at same
    exact plain (.inl same.1)

/-- The first quote that is not escaped ends an escaped text. -/
theorem escaped_quoted {s t rest tail : List Char}
    (same : s.flatMap jsonChar ++ '\"' :: rest = t.flatMap jsonChar ++ '\"' :: tail) :
    s = t ∧ rest = tail := by
  induction s generalizing t with
  | nil =>
    cases t with
    | nil => exact ⟨rfl, (List.cons.inj same).2⟩
    | cons d t =>
      rw [List.flatMap_cons, List.append_assoc] at same
      exact absurd same.symm (jsonChar_append_ne d _ _)
  | cons c s inductionHypothesis =>
    cases t with
    | nil =>
      rw [List.flatMap_cons, List.append_assoc] at same
      exact absurd same (jsonChar_append_ne c _ _)
    | cons d t =>
      rw [List.flatMap_cons, List.flatMap_cons, List.append_assoc, List.append_assoc] at same
      obtain ⟨first, others⟩ := selfDelimiting_jsonChar same
      obtain ⟨middle, rests⟩ := inductionHypothesis others
      exact ⟨List.cons_eq_cons.2 ⟨first, middle⟩, rests⟩

theorem told_escaped : SelfDelimiting (fun s : String => (escapeJson s).toList ++ ['\"']) id := by
  intro s t rest tail same
  simp only [toList_escapeJson, List.append_assoc, List.singleton_append] at same
  exact (escaped_quoted same).imp_left String.toList_inj.1

end Record

/-! ## Objects -/

/-- What the JSON object of a record tells. -/
structure Shown where
  stamp : String
  level : Level
  producer : Nat
  session : Option String
  message : String

namespace Record

/-- What is told of a record. -/
def shown (r : Record) : Shown :=
  ⟨r.time.stamp, r.level, r.producer, r.session, r.message⟩

theorem told_stamp :
    SelfDelimiting (fun r : Record => r.time.stamp.toList ++ ['\"']) fun r => r.time.stamp :=
  (SelfDelimiting.closed fun r : Record => not_mem_stamp rfl (by decide) r.time).tell
    String.toList_inj.1

theorem told_level :
    SelfDelimiting (fun r : Record => (toString r.level.rank).toList ++ [','])
      fun r => r.level := by
  have absent (r : Record) : ',' ∉ (toString r.level.rank).toList := not_mem_repr rfl _
  refine (SelfDelimiting.closed absent).tell fun {r other} same => ?_
  have ranks : r.level.rank = other.level.rank := Nat.repr_injective (String.toList_inj.1 same)
  rw [← Option.some_inj, ← Level.ofRank?_rank, ranks, Level.ofRank?_rank]

theorem told_producer :
    SelfDelimiting (fun r : Record => (toString r.producer).toList ++ ['\"'])
      fun r => r.producer := by
  have absent (r : Record) : '\"' ∉ (toString r.producer).toList := not_mem_repr rfl _
  exact (SelfDelimiting.closed absent).tell fun same =>
    Nat.repr_injective (String.toList_inj.1 same)

/-- The member of the session, if there is one. -/
def sessionMember (r : Record) : List Char :=
  match r.session with
  | some session => ",\"session\":\"".toList ++ ((escapeJson session).toList ++ ['\"'])
  | none => []

/-- With a session there stands an `s` where without one there stands an `m`. -/
theorem told_session :
    SelfDelimiting (fun r : Record => r.sessionMember ++ ",\"msg\":\"".toList)
      fun r => r.session := by
  have member := ((SelfDelimiting.word ",\"session\":\"".toList).append
    told_escaped).append (SelfDelimiting.word ",\"msg\":\"".toList)
  intro r other rest tail same
  dsimp only at same ⊢
  unfold sessionMember at same
  cases session : r.session with
  | none =>
    cases otherSession : other.session with
    | none =>
      rw [session, otherSession] at same
      exact ⟨rfl, List.append_cancel_left same⟩
    | some name =>
      rw [session, otherSession] at same
      simp at same
  | some name =>
    cases otherSession : other.session with
    | none =>
      rw [session, otherSession] at same
      simp at same
    | some otherName =>
      rw [session, otherSession] at same
      obtain ⟨names, rests⟩ := member same
      exact ⟨congrArg some (Prod.mk.inj (Prod.mk.inj names).1).2, rests⟩

/-- The parts of the object, each with the character that closes it. -/
theorem toList_json (r : Record) :
    r.json.toList =
      "\x7b\"ts\":\"".toList ++ (r.time.stamp.toList ++ ['\"']) ++ ",\"lvl\":".toList ++
        ((toString r.level.rank).toList ++ [',']) ++ "\"tid\":\"".toList ++
        ((toString r.producer).toList ++ ['\"']) ++ (r.sessionMember ++ ",\"msg\":\"".toList) ++
        ((escapeJson r.message).toList ++ ['\"']) ++ "\x7d".toList := by
  unfold json sessionMember
  cases r.session <;> simp [jsonMember]

/-- Whatever stands behind an object, it is known where the object ends and what it tells. -/
theorem told_json : SelfDelimiting (fun r : Record => r.json.toList) shown := by
  have told_message :
      SelfDelimiting (fun r : Record => (escapeJson r.message).toList ++ ['\"'])
        fun r => r.message :=
    fun _ _ _ _ same => told_escaped same
  have parts := (SelfDelimiting.word "\x7b\"ts\":\"".toList).append told_stamp
    |>.append (SelfDelimiting.word ",\"lvl\":".toList) |>.append told_level
    |>.append (SelfDelimiting.word "\"tid\":\"".toList) |>.append told_producer
    |>.append told_session |>.append told_message |>.append (SelfDelimiting.word "\x7d".toList)
  rw [← funext toList_json] at parts
  refine parts.tell fun {r other} same => ?_
  simp only [Prod.mk.injEq, true_and, and_true] at same
  obtain ⟨⟨⟨⟨stamp, level⟩, producer⟩, session⟩, message⟩ := same
  rw [shown, shown, stamp, level, producer, session, message]

end Record

/-- The text of a log file of JSON objects: each record on its own, with a line break behind it. -/
def jsonText (rs : List Record) : String :=
  String.join (rs.map fun r => FileStyle.json.render r ++ "\n")

theorem jsonText_eq (rs : List Record) :
    jsonText rs = String.join ((rs.map Record.json).map fun object => object ++ "\n") := by
  rw [List.map_map]
  rfl

theorem toList_jsonText (rs : List Record) :
    (jsonText rs).toList = rs.flatMap fun r => r.json.toList ++ ['\n'] := by
  rw [jsonText, String.toList_join, List.flatMap_map]
  simp only [FileStyle.render, String.toList_append]
  rfl

/-- What is not told of a record is not written either. -/
theorem json_eq_of_shown {r other : Record} (same : r.shown = other.shown) :
    r.json = other.json := by
  obtain ⟨stamp, level, producer, session, message⟩ := Shown.mk.inj same
  rw [Record.json, Record.json, stamp, level, producer, session, message]

/-- The texts of two log files of JSON objects are the same exactly if they tell the same contents
one after the other, whatever the messages and sessions are; and the object of one record is the
beginning of that of another only if both tell the same. -/
theorem json_decodes_uniquely :
    (∀ rs others : List Record,
      jsonText rs = jsonText others ↔ rs.map Record.shown = others.map Record.shown) ∧
    ∀ r other : Record, r.json.toList <+: other.json.toList ↔ r.shown = other.shown := by
  constructor
  · intro rs others
    constructor
    · intro same
      have told_line := Record.told_json.append (SelfDelimiting.word ['\n'])
      have texts := congrArg String.toList same
      rw [toList_jsonText, toList_jsonText] at texts
      refine (told_line.tell fun views => (Prod.mk.inj views).1).flatMap ?_ texts
      exact fun r => List.append_ne_nil_of_right_ne_nil _ (List.cons_ne_nil _ _)
    · intro same
      have factors : Function.FactorsThrough Record.json Record.shown :=
        fun _ _ same => json_eq_of_shown same
      obtain ⟨rendered, factored⟩ := (Function.factorsThrough_iff Record.json).1 factors
      have objects (rs : List Record) :
          rs.map Record.json = (rs.map Record.shown).map rendered := by
        rw [factored, List.map_map]
      rw [jsonText_eq, jsonText_eq, objects rs, objects others, same]
  · intro r other
    constructor
    · rintro ⟨rest, same⟩
      rw [← List.append_nil other.json.toList] at same
      exact (Record.told_json same).1
    · intro same
      exact ⟨[], by rw [List.append_nil, json_eq_of_shown same]⟩

end KeyValueService
