import KeyValueService.Disk.Error
import KeyValueService.Record.Rendering
import KeyValueService.Request.Basic

/-!
# Texts on one line

A text is unbroken if it has no line feed, and flat if it has no carriage return either, which would
belong to a line break behind it. Numbers are flat, and so is quoted text, whatever it quotes, since
line breaks are written by escapes. So what the service says is flat as soon as the words that it
repeats as they came are: `flat_requestError`. For records: `unbroken_plain`, `unbroken_exported`.
-/

namespace KeyValueService

open Text

/-- A text without a line feed. -/
def Unbroken (s : String) : Prop :=
  '\n' ∉ s.toList

instance (s : String) : Decidable (Unbroken s) :=
  inferInstanceAs (Decidable ('\n' ∉ s.toList))

@[simp]
theorem unbroken_append (s t : String) : Unbroken (s ++ t) ↔ Unbroken s ∧ Unbroken t := by
  simp [Unbroken]

theorem unbroken_ofList {s : List Char} (free : '\n' ∉ s) : Unbroken (String.ofList s) := by
  rw [Unbroken, String.toList_ofList]
  exact free

/-- A text without a character of a line break. -/
structure Flat (s : String) : Prop where
  unbroken : Unbroken s
  noReturn : '\r' ∉ s.toList

instance (s : String) : Decidable (Flat s) :=
  decidable_of_iff (Unbroken s ∧ '\r' ∉ s.toList)
    ⟨fun both => ⟨both.1, both.2⟩, fun flat => ⟨flat.unbroken, flat.noReturn⟩⟩

@[simp]
theorem flat_append (s t : String) : Flat (s ++ t) ↔ Flat s ∧ Flat t := by
  constructor
  · rintro ⟨unbroken, noReturn⟩
    rw [unbroken_append] at unbroken
    rw [String.toList_append, List.mem_append, not_or] at noReturn
    exact ⟨⟨unbroken.1, noReturn.1⟩, ⟨unbroken.2, noReturn.2⟩⟩
  · rintro ⟨first, second⟩
    refine ⟨(unbroken_append s t).2 ⟨first.unbroken, second.unbroken⟩, ?_⟩
    rw [String.toList_append, List.mem_append, not_or]
    exact ⟨first.noReturn, second.noReturn⟩

/-- A text is flat if it has no character at all that is neither. -/
theorem flat_of_not_mem {s : String} (free : ∀ c, c = '\n' ∨ c = '\r' → c ∉ s.toList) : Flat s :=
  ⟨free '\n' (.inl rfl), free '\r' (.inr rfl)⟩

theorem mem_toDigitsCore {base : Nat} {c : Char} :
    ∀ {fuel n : Nat} {digits : List Char}, c ∈ Nat.toDigitsCore base fuel n digits →
      c ∈ digits ∨ ∃ d, c = Nat.digitChar d
  | 0, _, _, member => .inl member
  | fuel + 1, n, digits, member => by
    rw [Nat.toDigitsCore] at member
    split at member
    · rcases List.mem_cons.1 member with rfl | member
      · exact .inr ⟨_, rfl⟩
      · exact .inl member
    · rcases mem_toDigitsCore member with member | digit
      · rcases List.mem_cons.1 member with rfl | member
        · exact .inr ⟨_, rfl⟩
        · exact .inl member
      · exact .inr digit

/-- The digits of a number, to any base, are digits, small letters or a star. -/
theorem mem_of_mem_toDigits {base n : Nat} {c : Char} (member : c ∈ Nat.toDigits base n) :
    c ∈ "0123456789abcdef*".toList := by
  rcases mem_toDigitsCore member with member | ⟨d, rfl⟩
  · cases member
  by_cases small : d < 16
  · have checked : ∀ d < 16, Nat.digitChar d ∈ "0123456789abcdef*".toList := by decide
    exact checked d small
  · unfold Nat.digitChar
    repeat rw [if_neg (by omega)]
    decide

@[simp]
theorem flat_repr (n : Nat) : Flat n.repr :=
  ⟨not_mem_repr rfl n, not_mem_repr rfl n⟩

/-- What stands for a character in quotes breaks no line. -/
theorem not_mem_quotedChar {c : Char} (breaks : c = '\n' ∨ c = '\r') (d : Char) : c ∉ quotedChar d := by
  have outside : ∀ {s : List Char}, '\n' ∉ s → '\r' ∉ s → c ∉ s := by
    intro s noFeed noReturn
    rcases breaks with rfl | rfl
    · exact noFeed
    · exact noReturn
  rw [quotedChar]
  split
  · exact outside (by decide) (by decide)
  split
  · exact outside (by decide) (by decide)
  split
  · exact outside (by decide) (by decide)
  split
  · exact outside (by decide) (by decide)
  split
  · exact outside (by decide) (by decide)
  split
  · exact outside (by decide) (by decide)
  split
  · have noDigit : c ∉ hexNumber d.toNat := fun member =>
      outside (by decide) (by decide) (mem_of_mem_toDigits member)
    simp only [List.mem_append, not_or]
    exact ⟨⟨outside (by decide) (by decide), noDigit⟩, outside (by decide) (by decide)⟩
  next noFeed noReturn _ _ _ =>
    rw [List.mem_singleton]
    rcases breaks with rfl | rfl
    · exact fun same => noFeed same.symm
    · exact fun same => noReturn same.symm

@[simp]
theorem flat_quoted (s : String) : Flat (quoted s) := by
  refine flat_of_not_mem fun c breaks => ?_
  have noQuote : c ≠ '\"' := by
    rcases breaks with rfl | rfl <;> decide
  rw [quoted, String.toList_ofList]
  simp [noQuote, not_mem_quotedChar breaks]

/-- The two kinds of stamps, as an equation of functions: at a single instant the comparison of the
two sides would compute its date. -/
theorem stamp_eq : Time.Instant.stamp = fun t =>
    match Time.Moment.ofSeconds t.seconds with
    | .ok moment => moment.stamp t.milliseconds
    | .error _ => "unix_" ++ toString t.seconds ++ "." ++ padded 3 t.milliseconds :=
  rfl

/-- A stamp consists of digits and marks. -/
theorem not_mem_stamp {c : Char} (noDigit : c.isDigit = false) (noMark : c ∉ "unix_-: .".toList)
    (t : Time.Instant) : c ∉ t.stamp.toList := by
  have digits (n : Nat) : c ∉ (toString n).toList := not_mem_repr noDigit n
  have mark (text : String) (among : text.toList ⊆ "unix_-: .".toList) : c ∉ text.toList :=
    fun member => noMark (among member)
  rw [stamp_eq]
  dsimp only
  cases Time.Moment.ofSeconds t.seconds with
  | ok moment =>
    simp only [Time.Moment.stamp, String.toList_append, List.mem_append, not_mem_padded noDigit,
      mark "-" (by decide), mark " " (by decide), mark ":" (by decide), mark "." (by decide),
      or_self, not_false_eq_true]
  | error _ =>
    simp only [String.toList_append, List.mem_append, digits, not_mem_padded noDigit,
      mark "unix_" (by decide), mark "." (by decide), or_self, not_false_eq_true]

@[simp]
theorem flat_stamp (t : Time.Instant) : Flat t.stamp :=
  ⟨not_mem_stamp rfl (by decide) t, not_mem_stamp rfl (by decide) t⟩

@[simp]
theorem flat_label (level : Level) : Flat level.label := by
  cases level <;> decide

@[simp]
theorem flat_levelName (level : Level) : Flat level.name := by
  cases level <;> decide

@[simp]
theorem flat_verbName (verb : Verb) : Flat verb.name := by
  cases verb <;> decide

@[simp]
theorem flat_argumentName (argument : Argument) : Flat argument.name := by
  cases argument <;> decide

/-- What is said of a fault only repeats text from outside in quotes. -/
@[simp]
theorem flat_fault (fault : ArgumentFault) : Flat fault.message := by
  cases fault with
  | trailing text =>
    change Flat ("unexpected trailing input " ++ quoted text)
    exact (flat_append _ _).2 ⟨by decide +kernel, flat_quoted text⟩
  | notCount word =>
    change Flat (quoted word ++ " is not a count")
    exact (flat_append _ _).2 ⟨flat_quoted word, by decide +kernel⟩
  | unknownLevel cause =>
    change Flat ("unknown log level: " ++ quoted cause.text)
    exact (flat_append _ _).2 ⟨by decide +kernel, flat_quoted cause.text⟩

/-- What is said of a line that is no request repeats at most its first word as it came. -/
theorem flat_requestError {e : RequestError} (word : ∀ verb, e = .unknown verb → Flat verb) :
    Flat e.message := by
  cases e with
  | empty => decide +kernel
  | unknown verb =>
    change Flat ("unknown command " ++ verb)
    exact (flat_append _ _).2 ⟨by decide +kernel, word verb rfl⟩
  | missing verb argument =>
    change Flat (verb.name ++ " requires <" ++ argument.name ++ ">")
    simp only [flat_append, flat_verbName, flat_argumentName, true_and, and_true]
    decide +kernel
  | invalid verb fault =>
    change Flat (verb.name ++ ": " ++ fault.message)
    simp only [flat_append, flat_verbName, flat_fault, true_and, and_true]
    decide +kernel

namespace Record

/-- A record whose session and message are each on one line. -/
structure OnOneLine (r : Record) : Prop where
  message : Unbroken r.message
  session : ∀ name, r.session = some name → Unbroken name

variable {r : Record}

theorem flat_head (r : Record) {label : String} (flat : Flat label) : Flat (r.head label) := by
  simp only [head, flat_append, flat_stamp, flat, Nat.toString_eq_repr, flat_repr, and_true]
  decide +kernel

theorem unbroken_plain (oneLine : r.OnOneLine) : Unbroken r.plain := by
  have tag : Unbroken r.sessionTag := by
    rw [sessionTag]
    cases session : r.session with
    | none => decide
    | some name =>
      simp only [unbroken_append, oneLine.session name session, and_true]
      decide +kernel
  simp only [plain, unbroken_append, (r.flat_head (flat_label _)).unbroken, tag, oneLine.message,
    and_self]

theorem unbroken_exported (oneLine : r.OnOneLine) : Unbroken r.exported := by
  simp only [exported, unbroken_append, (r.flat_head (flat_label _)).unbroken, oneLine.message,
    and_self]

theorem head?_opening (stamp label producer rest : String) :
    ("[" ++ stamp ++ "] [" ++ label ++ "] (t:" ++ producer ++ ") " ++ rest).toList.head? =
      some '[' := by
  simp

/-- Every line form of a record begins with a bracket. -/
theorem head?_head (r : Record) (label rest : String) :
    (r.head label ++ rest).toList.head? = some '[' :=
  head?_opening r.time.stamp label (toString r.producer) rest

end Record

end KeyValueService
