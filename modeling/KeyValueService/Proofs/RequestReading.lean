import KeyValueService.Proofs.ImageCodec
import KeyValueService.Proofs.Numerals
import KeyValueService.Request.Reader
import KeyValueService.Request.Writer
import Mathlib.Data.List.Basic
import Mathlib.Data.List.TakeWhile

/-!
# Lines that are read as requests

`nextWord` takes the first word of a text with the one blank that ends it (`StartsWith`), so a line
is a verb behind any number of blanks, and behind the blank that ends the verb its arguments. A line
gives a key a value if the key is the next word, again behind any number of blanks, and the value
all that follows the one blank behind the key, up to the run of line-end characters (`PairLine`); a
line about a key has nothing but blanks behind it (`WordLine`). The reader accepts exactly these
lines: `read_put_iff`, `read_update_iff`, `read_get_iff`, `read_delete_iff`. Whatever it accepts is
well formed (`wellFormed_of_read`), and a verb that it does not know is a word (`unknown_of_read`).
-/

namespace KeyValueService

open Text

namespace Text

theorem head?_dropWhile {p : Char → Bool} {s : List Char} {c : Char}
    (first : (s.dropWhile p).head? = some c) : p c = false := by
  have stopped := List.head?_dropWhile_not p s
  rw [first] at stopped
  exact stopped

theorem dropWhile_of_head {p : Char → Bool} {s : List Char}
    (stops : ∀ c, s.head? = some c → p c = false) : s.dropWhile p = s := by
  cases s with
  | nil => rfl
  | cons c rest => rw [List.dropWhile_cons, stops c rfl, if_neg Bool.false_ne_true]

/-- A run at the end is dropped as a whole if what is before it does not end in such a character. -/
theorem dropEndWhile_append {p : Char → Bool} {before ending : List Char}
    (stops : ∀ c, before.getLast? = some c → p c = false) (run : ∀ c ∈ ending, p c = true) :
    dropEndWhile p (before ++ ending) = before := by
  have behind : ∀ c ∈ ending.reverse, p c = true := fun c member =>
    run c (List.mem_reverse.1 member)
  have kept : ∀ c, before.reverse.head? = some c → p c = false := fun c first =>
    stops c (by rw [← first, List.head?_reverse])
  rw [dropEndWhile, List.reverse_append, List.dropWhile_append_of_pos behind,
    dropWhile_of_head kept, List.reverse_reverse]

/-- What is dropped is a run at the end, and what is left does not end in such a character. -/
theorem dropEndWhile_exact (p : Char → Bool) (s : List Char) :
    ∃ ending, s = dropEndWhile p s ++ ending ∧ (∀ c ∈ ending, p c = true) ∧
      ∀ c, (dropEndWhile p s).getLast? = some c → p c = false := by
  refine ⟨(s.reverse.takeWhile p).reverse, ?_, ?_, ?_⟩
  · rw [dropEndWhile, ← List.reverse_append, List.takeWhile_append_dropWhile, List.reverse_reverse]
  · intro c member
    exact List.mem_takeWhile_imp (List.mem_reverse.1 member)
  · intro c last
    rw [dropEndWhile, List.getLast?_reverse] at last
    exact head?_dropWhile last

end Text

namespace Request

/-- A text of blanks only. -/
def Blanks (s : List Char) : Prop :=
  ∀ c ∈ s, isBlank c = true

/-- The characters of a word. -/
def Solid (word : List Char) : Prop :=
  word ≠ [] ∧ ∀ c ∈ word, isBlank c = false

/-- A text with its first word, and what follows the one blank that ends the word. -/
inductive StartsWith (word : List Char) : List Char → List Char → Prop
  | alone {indent : List Char} (indented : Blanks indent) (solid : Solid word) :
    StartsWith word [] (indent ++ word)
  | followed {indent rest : List Char} {blank : Char} (indented : Blanks indent)
    (solid : Solid word) (separates : isBlank blank = true) :
    StartsWith word rest (indent ++ (word ++ blank :: rest))

theorem blanks_nil : Blanks [] :=
  fun _ member => nomatch member

theorem Solid.head {word : List Char} (solid : Solid word) (rest : List Char) (c : Char)
    (first : (word ++ rest).head? = some c) : isBlank c = false := by
  cases word with
  | nil => exact absurd rfl solid.1
  | cons b more =>
    have same : b = c := Option.some.inj first
    exact solid.2 c (same ▸ List.mem_cons_self)

theorem dropWhile_indented {indent word : List Char} (indented : Blanks indent)
    (solid : Solid word) (rest : List Char) :
    (indent ++ (word ++ rest)).dropWhile isBlank = word ++ rest := by
  rw [List.dropWhile_append_of_pos indented, dropWhile_of_head (solid.head rest)]

theorem cut?_of_solid {word : List Char} (solid : ∀ c ∈ word, isBlank c = false) :
    cut? isBlank word = none := by
  have all : word.dropWhile (fun c => !isBlank c) = [] := by
    refine List.dropWhile_eq_nil_iff.2 fun c member => ?_
    rw [solid c member]
    rfl
  rw [cut?, all]

theorem StartsWith.solid {word rest text : List Char} (starts : StartsWith word rest text) :
    Solid word := by
  cases starts with
  | alone indented solid => exact solid
  | followed indented solid separates => exact solid

theorem nextWord_of_startsWith {word rest text : List Char} (starts : StartsWith word rest text) :
    nextWord text = (word, rest) := by
  cases starts with
  | alone indented solid =>
    have shown := dropWhile_indented indented solid []
    rw [List.append_nil] at shown
    rw [nextWord, shown, cut?_of_solid solid.2]
    rfl
  | followed indented solid separates =>
    rw [nextWord, dropWhile_indented indented solid, cut?_append solid.2 separates]
    rfl

theorem nextWord_of_blanks {text : List Char} (blanks : Blanks text) :
    nextWord text = ([], []) := by
  have nothing : text.dropWhile isBlank = [] := List.dropWhile_eq_nil_iff.2 blanks
  rw [nextWord, nothing]
  rfl

/-- A text is blank, or it starts with a word. -/
theorem blanks_or_startsWith (text : List Char) :
    Blanks text ∨ ∃ word rest, StartsWith word rest text := by
  by_cases blanks : Blanks text
  · exact .inl blanks
  refine .inr ?_
  have split : text.takeWhile isBlank ++ text.dropWhile isBlank = text :=
    List.takeWhile_append_dropWhile
  have indented : Blanks (text.takeWhile isBlank) := fun c member => List.mem_takeWhile_imp member
  generalize text.takeWhile isBlank = indent at split indented
  have shown : text.dropWhile isBlank ≠ [] := fun none => blanks (List.dropWhile_eq_nil_iff.1 none)
  have first : ∀ c, (text.dropWhile isBlank).head? = some c → isBlank c = false :=
    fun c => head?_dropWhile
  generalize text.dropWhile isBlank = body at split shown first
  have parts :
      body.takeWhile (fun c => !isBlank c) ++ body.dropWhile (fun c => !isBlank c) = body :=
    List.takeWhile_append_dropWhile
  have solid : Solid (body.takeWhile fun c => !isBlank c) := by
    refine ⟨?_, fun c member => by simpa using List.mem_takeWhile_imp member⟩
    cases body with
    | nil => exact absurd rfl shown
    | cons c more => simp [first c rfl]
  have after : ∀ c, (body.dropWhile fun c => !isBlank c).head? = some c → isBlank c = true :=
    fun c stopped => by simpa using head?_dropWhile stopped
  generalize body.takeWhile (fun c => !isBlank c) = word at parts solid
  generalize body.dropWhile (fun c => !isBlank c) = tail at parts after
  rw [← split, ← parts]
  cases tail with
  | nil =>
    refine ⟨word, [], ?_⟩
    rw [List.append_nil]
    exact .alone indented solid
  | cons blank rest => exact ⟨word, rest, .followed indented solid (after blank rfl)⟩

/-- A first word is found exactly if the text starts with it. -/
theorem nextWord_iff {text word rest : List Char} (some : word ≠ []) :
    nextWord text = (word, rest) ↔ StartsWith word rest text := by
  refine ⟨fun found => ?_, nextWord_of_startsWith⟩
  rcases blanks_or_startsWith text with blanks | ⟨other, behind, starts⟩
  · rw [nextWord_of_blanks blanks] at found
    exact absurd (congrArg Prod.fst found).symm some
  · rw [nextWord_of_startsWith starts] at found
    obtain ⟨rfl, rfl⟩ := Prod.mk.inj found
    exact starts

theorem trimChars_eq_nil_iff (s : List Char) : trimChars s = [] ↔ Blanks s := by
  rw [trimChars, stripWhile]
  constructor
  · intro nothing
    obtain ⟨ending, whole, blanks, -⟩ := dropEndWhile_exact isBlank (s.dropWhile isBlank)
    rw [nothing, List.nil_append] at whole
    have front : Blanks (s.takeWhile isBlank) := fun c member => List.mem_takeWhile_imp member
    intro c member
    rw [← List.takeWhile_append_dropWhile (p := isBlank) (l := s), whole] at member
    rcases List.mem_append.1 member with member | member
    · exact front c member
    · exact blanks c member
  · intro blanks
    rw [List.dropWhile_eq_nil_iff.2 blanks]
    rfl

theorem nothingMore_iff (verb : Verb) (rest : List Char) :
    nothingMore verb rest = .ok () ↔ Blanks rest := by
  rw [← trimChars_eq_nil_iff, nothingMore]
  split
  next nothing => simp [nothing]
  next more => simpa using more

theorem needed_iff {verb : Verb} {argument : Argument} {s : List Char} {text : String} :
    needed verb argument s = .ok text ↔ s ≠ [] ∧ text.toList = s := by
  rw [needed]
  by_cases missing : s = []
  · simp [missing]
  · rw [if_neg missing]
    constructor
    · intro read
      rw [← Except.ok.inj read, String.toList_ofList]
      exact ⟨missing, rfl⟩
    · rintro ⟨-, rfl⟩
      rw [String.ofList_toList]

theorem bind_ok_iff {ε α β : Type} {first : Except ε α} {next : α → Except ε β} {b : β} :
    (first >>= next) = .ok b ↔ ∃ a, first = .ok a ∧ next a = .ok b := by
  cases first with
  | error e => simp [bind, Except.bind]
  | ok a => simp [bind, Except.bind]

/-- A key and a value are read if the key is the first word and something follows. -/
theorem readPair_iff {verb : Verb} {rest : List Char} {key value : String} :
    readPair verb rest = .ok (key, value) ↔
      StartsWith key.toList value.toList rest ∧ value ≠ "" := by
  have split : readPair verb rest = .ok (key, value) ↔
      needed verb .key (nextWord rest).1 = .ok key ∧
        needed verb .value (nextWord rest).2 = .ok value := by
    simp only [readPair, bind_ok_iff, pure, Except.pure, Except.ok.injEq, Prod.mk.injEq]
    constructor
    · rintro ⟨key, read, value, behind, rfl, rfl⟩
      exact ⟨read, behind⟩
    · rintro ⟨read, behind⟩
      exact ⟨key, read, value, behind, rfl, rfl⟩
  rw [split, needed_iff, needed_iff]
  constructor
  · rintro ⟨⟨some, first⟩, more, second⟩
    rw [← first] at some
    have found : nextWord rest = (key.toList, value.toList) := Prod.ext first.symm second.symm
    refine ⟨(nextWord_iff some).1 found, ?_⟩
    rintro rfl
    exact more second.symm
  · rintro ⟨starts, some⟩
    rw [nextWord_of_startsWith starts]
    refine ⟨⟨starts.solid.1, rfl⟩, ?_, rfl⟩
    simpa using some

theorem readWord_iff {verb : Verb} {argument : Argument} {rest : List Char} {word : String} :
    readWord verb argument rest = .ok word ↔
      ∃ trail, StartsWith word.toList trail rest ∧ Blanks trail := by
  have split : readWord verb argument rest = .ok word ↔
      needed verb argument (nextWord rest).1 = .ok word ∧
        nothingMore verb (nextWord rest).2 = .ok () := by
    simp only [readWord, bind_ok_iff, pure, Except.pure, Except.ok.injEq]
    constructor
    · rintro ⟨word, read, ⟨⟩, nothing, rfl⟩
      exact ⟨read, nothing⟩
    · rintro ⟨read, nothing⟩
      exact ⟨word, read, (), nothing, rfl⟩
  rw [split, needed_iff, nothingMore_iff]
  constructor
  · rintro ⟨⟨some, first⟩, nothing⟩
    rw [← first] at some
    exact ⟨_, (nextWord_iff some).1 (Prod.ext first.symm rfl), nothing⟩
  · rintro ⟨trail, starts, nothing⟩
    rw [nextWord_of_startsWith starts]
    exact ⟨⟨starts.solid.1, rfl⟩, nothing⟩

/-- A line is a request if it starts with a verb and the verb can read what follows. -/
theorem read_ok_iff {line : List Char} {request : Request} :
    read line = .ok request ↔
      ∃ name rest verb, StartsWith name rest (dropEndWhile isLineEnd line) ∧
        Verb.read? name = some verb ∧ readArguments rest verb = .ok request := by
  constructor
  · intro accepted
    rw [read] at accepted
    rcases found : nextWord (dropEndWhile isLineEnd line) with ⟨name, rest⟩
    rw [found] at accepted
    dsimp only at accepted
    by_cases nothing : name = []
    · rw [if_pos nothing] at accepted
      cases accepted
    rw [if_neg nothing] at accepted
    cases known : Verb.read? name with
    | none =>
      rw [known] at accepted
      cases accepted
    | some verb =>
      rw [known] at accepted
      exact ⟨name, rest, verb, (nextWord_iff nothing).1 found, known, accepted⟩
  · rintro ⟨name, rest, verb, starts, known, accepted⟩
    rw [read, nextWord_of_startsWith starts]
    simp only [starts.solid.1, if_false, known, accepted]

/-- The request that a verb reads has that verb. -/
theorem verb_of_readArguments {rest : List Char} {verb : Verb} {request : Request}
    (read : readArguments rest verb = .ok request) : request.verb = verb := by
  cases verb <;>
    simp only [readArguments, bind_ok_iff, pure, Except.pure, Except.ok.injEq] at read
  case sessionLogs =>
    obtain ⟨_, -, _, -, rfl⟩ := read
    rfl
  all_goals
    obtain ⟨_, -, rfl⟩ := read
    rfl

/-- A line with a verb, a key and a value. Any number of blanks may be before the verb and before
the key, but only one stands between the key and the value, which goes on to the run of line-end
characters. -/
inductive PairLine (verb : Verb) (key value : String) : List Char → Prop
  | intro {indent name gap ending : List Char} {blank separator : Char}
    (indented : Blanks indent) (solid : Solid name) (known : Verb.read? name = some verb)
    (ends : isBlank blank = true) (padded : Blanks gap) (isWord : IsWord key)
    (separates : isBlank separator = true) (isValue : IsValue value)
    (ended : ∀ c ∈ ending, isLineEnd c = true) :
    PairLine verb key value
      (indent ++ (name ++ blank :: (gap ++ (key.toList ++ separator :: value.toList))) ++ ending)

/-- A line with a verb and one word. Any number of blanks may be before, between and behind them. -/
inductive WordLine (verb : Verb) (word : String) : List Char → Prop
  | intro {indent name gap trail : List Char} {blank : Char}
    (indented : Blanks indent) (solid : Solid name) (known : Verb.read? name = some verb)
    (ends : isBlank blank = true) (padded : Blanks gap) (isWord : IsWord word)
    (trailing : Blanks trail) :
    WordLine verb word (indent ++ (name ++ blank :: (gap ++ (word.toList ++ trail))))

theorem solid_toList_iff (word : String) : Solid word.toList ↔ IsWord word := by
  rw [Solid, IsWord, ne_eq, String.toList_eq_nil_iff]

theorem isBlank_of_isLineEnd {c : Char} (ends : isLineEnd c = true) : isBlank c = true := by
  rw [isLineEnd, Bool.or_eq_true, beq_iff_eq, beq_iff_eq] at ends
  rcases ends with rfl | rfl
  · exact isBlank_carriageReturn
  · exact isBlank_lineFeed

/-- A text that starts with a word and has something behind it has a blank between. -/
theorem StartsWith.separated {word rest text : List Char} (starts : StartsWith word rest text)
    (some : rest ≠ []) : ∃ indent blank, Blanks indent ∧ isBlank blank = true ∧
      text = indent ++ (word ++ blank :: rest) := by
  cases starts with
  | alone indented solid => exact absurd rfl some
  | followed indented solid separates => exact ⟨_, _, indented, separates, rfl⟩

theorem isValue_iff {value : String} :
    IsValue value ↔ value ≠ "" ∧ ∀ c, value.toList.getLast? = some c → isLineEnd c = false := by
  rw [IsValue]
  refine and_congr_right fun _ => ?_
  constructor
  · rintro ⟨noReturn, noFeed⟩ c last
    rw [last] at noReturn noFeed
    simp_all [isLineEnd]
  · intro stops
    constructor
    · exact fun last => Bool.noConfusion (stops _ last)
    · exact fun last => Bool.noConfusion (stops _ last)

/-- The value is what the line ends in, its line-end characters apart. -/
theorem getLast?_of_pair (indent name gap : List Char) (blank separator : Char) (key : List Char)
    {value : List Char} (some : value ≠ []) :
    (indent ++ (name ++ blank :: (gap ++ (key ++ separator :: value)))).getLast? =
      value.getLast? := by
  have whole : indent ++ (name ++ blank :: (gap ++ (key ++ separator :: value))) =
      (indent ++ (name ++ blank :: (gap ++ (key ++ [separator])))) ++ value := by
    simp
  rw [whole, List.getLast?_append_of_ne_nil _ some]

theorem pairLine_iff {verb : Verb} {key value : String} {line : List Char} :
    PairLine verb key value line ↔
      ∃ name rest, StartsWith name rest (dropEndWhile isLineEnd line) ∧
        Verb.read? name = some verb ∧ readPair verb rest = .ok (key, value) := by
  constructor
  · rintro ⟨indented, solid, known, ends, padded, isWord, separates, isValue, ended⟩
    obtain ⟨some, stops⟩ := isValue_iff.1 isValue
    have characters : value.toList ≠ [] := by
      simpa using some
    rw [← getLast?_of_pair _ _ _ _ _ _ characters] at stops
    rw [dropEndWhile_append stops ended]
    refine ⟨_, _, .followed indented solid ends, known, readPair_iff.2 ⟨?_, some⟩⟩
    exact .followed padded ((solid_toList_iff key).2 isWord) separates
  · rintro ⟨name, rest, starts, known, pair⟩
    obtain ⟨behind, some⟩ := readPair_iff.1 pair
    have characters : value.toList ≠ [] := by
      simpa using some
    obtain ⟨ending, whole, ended, stops⟩ := dropEndWhile_exact isLineEnd line
    obtain ⟨gap, separator, padded, separates, rfl⟩ := behind.separated characters
    obtain ⟨indent, blank, indented, ends, body⟩ := starts.separated (by simp)
    rw [body, getLast?_of_pair _ _ _ _ _ _ characters] at stops
    rw [whole, body]
    exact .intro indented starts.solid known ends padded ((solid_toList_iff key).1 behind.solid)
      separates (isValue_iff.2 ⟨some, stops⟩) ended

/-- A word with nothing but blanks around it. -/
theorem blanks_around_iff {word text : List Char} :
    (∃ rest, StartsWith word rest text ∧ Blanks rest) ↔
      ∃ gap trail, Blanks gap ∧ Solid word ∧ Blanks trail ∧ text = gap ++ (word ++ trail) := by
  constructor
  · rintro ⟨rest, ⟨indented, solid⟩ | ⟨indented, solid, separates⟩, blanks⟩
    · exact ⟨_, [], indented, solid, blanks, by rw [List.append_nil]⟩
    · exact ⟨_, _, indented, solid, List.forall_mem_cons.2 ⟨separates, blanks⟩, rfl⟩
  · rintro ⟨gap, trail, padded, solid, blanks, rfl⟩
    cases trail with
    | nil =>
      rw [List.append_nil]
      exact ⟨[], .alone padded solid, blanks⟩
    | cons blank rest =>
      obtain ⟨separates, more⟩ := List.forall_mem_cons.1 blanks
      exact ⟨rest, .followed padded solid separates, more⟩

theorem not_isLineEnd_of_solid {c : Char} (solid : isBlank c = false) : isLineEnd c = false := by
  rw [Bool.eq_false_iff]
  exact fun ends => Bool.false_ne_true (solid.symm.trans (isBlank_of_isLineEnd ends))

/-- Behind a word the line-end characters are dropped with what they end. -/
theorem dropEndWhile_behind {word trail : List Char} (solid : Solid word) (front : List Char) :
    dropEndWhile isLineEnd (front ++ (word ++ trail)) =
      front ++ (word ++ dropEndWhile isLineEnd trail) := by
  obtain ⟨ending, whole, ended, stops⟩ := dropEndWhile_exact isLineEnd trail
  generalize dropEndWhile isLineEnd trail = kept at whole stops ⊢
  have parts : front ++ (word ++ trail) = front ++ (word ++ kept) ++ ending := by
    rw [whole, List.append_assoc, List.append_assoc]
  rw [parts]
  refine dropEndWhile_append (fun c last => ?_) ended
  rw [List.getLast?_append_of_ne_nil _ (by simp [solid.1])] at last
  by_cases nothing : kept = []
  · rw [nothing, List.append_nil] at last
    exact not_isLineEnd_of_solid (solid.2 c (List.mem_of_getLast? last))
  · rw [List.getLast?_append_of_ne_nil _ nothing] at last
    exact stops c last

theorem wordLine_iff {verb : Verb} (argument : Argument) {word : String} {line : List Char} :
    WordLine verb word line ↔
      ∃ name rest, StartsWith name rest (dropEndWhile isLineEnd line) ∧
        Verb.read? name = some verb ∧ readWord verb argument rest = .ok word := by
  constructor
  · intro shaped
    cases shaped with
    | @intro indent name gap trail blank indented solid known ends padded isWord trailing =>
      have characters : Solid word.toList := (solid_toList_iff word).2 isWord
      have front : indent ++ (name ++ blank :: (gap ++ (word.toList ++ trail))) =
          (indent ++ (name ++ blank :: gap)) ++ (word.toList ++ trail) := by
        simp
      obtain ⟨ending, whole, -⟩ := dropEndWhile_exact isLineEnd trail
      have dropped : dropEndWhile isLineEnd
          (indent ++ (name ++ blank :: gap) ++ (word.toList ++ trail)) = _ :=
        dropEndWhile_behind characters (indent ++ (name ++ blank :: gap))
      generalize dropEndWhile isLineEnd trail = kept at whole dropped
      have body : indent ++ (name ++ blank :: gap) ++ (word.toList ++ kept) =
          indent ++ (name ++ blank :: (gap ++ (word.toList ++ kept))) := by
        simp
      rw [front, dropped, body]
      refine ⟨name, _, .followed indented solid ends, known, readWord_iff.2 ?_⟩
      refine blanks_around_iff.2 ⟨gap, kept, padded, characters, fun c member => ?_, rfl⟩
      refine trailing c ?_
      rw [whole]
      exact List.mem_append_left ending member
  · rintro ⟨name, rest, starts, known, read⟩
    obtain ⟨gap, trail, padded, solid, trailing, rfl⟩ := blanks_around_iff.1 (readWord_iff.1 read)
    obtain ⟨ending, whole, ended, -⟩ := dropEndWhile_exact isLineEnd line
    obtain ⟨indent, blank, indented, ends, body⟩ := starts.separated (by simp [solid.1])
    have blanks : Blanks (trail ++ ending) := by
      intro c member
      rcases List.mem_append.1 member with member | member
      · exact trailing c member
      · exact isBlank_of_isLineEnd (ended c member)
    have shape :
        line = indent ++ (name ++ blank :: (gap ++ (word.toList ++ (trail ++ ending)))) := by
      rw [whole, body]
      simp
    rw [shape]
    exact .intro indented starts.solid known ends padded ((solid_toList_iff word).1 solid) blanks

/-- A line is a request if it starts with the verb of the request, and the verb reads the request
from what follows. -/
theorem read_iff {line : List Char} {request : Request} :
    read line = .ok request ↔
      ∃ name rest, StartsWith name rest (dropEndWhile isLineEnd line) ∧
        Verb.read? name = some request.verb ∧ readArguments rest request.verb = .ok request := by
  rw [read_ok_iff]
  constructor
  · rintro ⟨name, rest, verb, starts, known, accepted⟩
    obtain rfl := verb_of_readArguments accepted
    exact ⟨name, rest, starts, known, accepted⟩
  · rintro ⟨name, rest, starts, known, accepted⟩
    exact ⟨name, rest, _, starts, known, accepted⟩

theorem read_put_iff {line : List Char} {key value : String} :
    read line = .ok (.put key value) ↔ PairLine .put key value line := by
  simp only [read_iff, pairLine_iff, verb, readArguments, bind_ok_iff, pure, Except.pure,
    Except.ok.injEq, Request.put.injEq, Prod.exists, exists_eq_right_right, exists_eq_right]

theorem read_update_iff {line : List Char} {key value : String} :
    read line = .ok (.update key value) ↔ PairLine .update key value line := by
  simp only [read_iff, pairLine_iff, verb, readArguments, bind_ok_iff, pure, Except.pure,
    Except.ok.injEq, Request.update.injEq, Prod.exists, exists_eq_right_right, exists_eq_right]

theorem read_get_iff {line : List Char} {key : String} :
    read line = .ok (.get key) ↔ WordLine .get key line := by
  simp only [read_iff, wordLine_iff .key, verb, readArguments, bind_ok_iff, pure,
    Except.pure, Except.ok.injEq, Request.get.injEq, exists_eq_right]

theorem read_delete_iff {line : List Char} {key : String} :
    read line = .ok (.delete key) ↔ WordLine .delete key line := by
  simp only [read_iff, wordLine_iff .key, verb, readArguments, bind_ok_iff, pure,
    Except.pure, Except.ok.injEq, Request.delete.injEq, exists_eq_right]

theorem read?_name (verb : Verb) : Verb.read? verb.name.toList = some verb := by
  cases verb <;> decide

theorem solid_name (verb : Verb) : Solid verb.name.toList := by
  have solid : verb.name.toList.all (fun c => !isBlank c) = true := by
    cases verb <;> decide
  refine ⟨by cases verb <;> decide, fun c member => ?_⟩
  simpa using List.all_eq_true.1 solid c member

/-- The canonical line of a verb, a key and a value. -/
theorem pairLine_canonical (verb : Verb) {key value : String} (isWord : IsWord key)
    (isValue : IsValue value) :
    PairLine verb key value (verb.name ++ " " ++ key ++ " " ++ value).toList := by
  have parts : (verb.name ++ " " ++ key ++ " " ++ value).toList =
      [] ++ (verb.name.toList ++ ' ' :: ([] ++ (key.toList ++ ' ' :: value.toList))) ++ [] := by
    simp
  rw [parts]
  exact .intro blanks_nil (solid_name verb) (read?_name verb) (by decide) blanks_nil isWord
    (by decide) isValue fun c member => nomatch member

/-- The canonical line of a verb and a word. -/
theorem wordLine_canonical (verb : Verb) {word : String} (isWord : IsWord word) :
    WordLine verb word (verb.name ++ " " ++ word).toList := by
  have parts : (verb.name ++ " " ++ word).toList =
      [] ++ (verb.name.toList ++ ' ' :: ([] ++ (word.toList ++ []))) := by
    simp
  rw [parts]
  exact .intro blanks_nil (solid_name verb) (read?_name verb) (by decide) blanks_nil isWord blanks_nil

theorem bind_error_iff {ε α β : Type} {first : Except ε α} {next : α → Except ε β} {e : ε} :
    (first >>= next) = .error e ↔ first = .error e ∨ ∃ a, first = .ok a ∧ next a = .error e := by
  cases first with
  | error e => simp [bind, Except.bind]
  | ok a => simp [bind, Except.bind]

theorem needed_ne_unknown (verb : Verb) (argument : Argument) (s : List Char) (word : String) :
    needed verb argument s ≠ .error (.unknown word) := by
  rw [needed]
  split <;> simp

theorem nothingMore_ne_unknown (verb : Verb) (rest : List Char) (word : String) :
    nothingMore verb rest ≠ .error (.unknown word) := by
  rw [nothingMore]
  split <;> simp

theorem readArguments_ne_unknown (rest : List Char) (verb : Verb) (word : String) :
    readArguments rest verb ≠ .error (.unknown word) := by
  have counted : ∀ verb rest, readCount verb rest ≠ .error (.unknown word) := by
    intro verb rest refused
    simp only [readCount, bind_error_iff, nothingMore_ne_unknown, needed_ne_unknown,
      false_or] at refused
    obtain ⟨-, -, text, -, failed⟩ := refused
    split at failed <;> cases failed
  have levelled : readLevel rest ≠ .error (.unknown word) := by
    intro refused
    simp only [readLevel, bind_error_iff, nothingMore_ne_unknown, false_or] at refused
    obtain ⟨-, -, failed⟩ := refused
    split at failed
    · cases failed
    · split at failed <;> cases failed
  cases verb <;>
    simp [readArguments, bind_error_iff, readPair, readWord, needed_ne_unknown,
      nothingMore_ne_unknown, counted, levelled, pure, Except.pure]

theorem unknown_of_read {line : List Char} {word : String}
    (refused : read line = .error (.unknown word)) : IsWord word := by
  rw [read] at refused
  rcases found : nextWord (dropEndWhile isLineEnd line) with ⟨first, rest⟩
  rw [found] at refused
  dsimp only at refused
  by_cases nothing : first = []
  · rw [if_pos nothing] at refused
    cases refused
  rw [if_neg nothing] at refused
  split at refused
  next unknown =>
    cases refused
    rw [← solid_toList_iff, String.toList_ofList]
    exact ((nextWord_iff nothing).1 found).solid
  next verb known => exact absurd refused (readArguments_ne_unknown rest verb word)

theorem readCount_le {verb : Verb} {rest : List Char} {count : Nat}
    (accepted : readCount verb rest = .ok count) : count ≤ maxCount := by
  simp only [readCount, bind_ok_iff] at accepted
  obtain ⟨-, -, text, -, counted⟩ := accepted
  split at counted
  next number fits =>
    obtain rfl := Except.ok.inj counted
    exact (readNat_iff.1 fits).2
  next => cases counted

theorem isWord_of_readWord {verb : Verb} {argument : Argument} {rest : List Char} {word : String}
    (accepted : readWord verb argument rest = .ok word) : IsWord word := by
  obtain ⟨trail, starts, -⟩ := readWord_iff.1 accepted
  exact (solid_toList_iff word).1 starts.solid

/-- A line makes well-formed requests only. -/
theorem wellFormed_of_read {line : List Char} {request : Request}
    (accepted : read line = .ok request) : request.WellFormed := by
  obtain ⟨name, rest, -, -, parsed⟩ := read_iff.1 accepted
  cases request with
  | put key value =>
    obtain ⟨_, _, _, _, _, isWord, _, isValue, _⟩ := read_put_iff.1 accepted
    exact ⟨isWord, isValue⟩
  | update key value =>
    obtain ⟨_, _, _, _, _, isWord, _, isValue, _⟩ := read_update_iff.1 accepted
    exact ⟨isWord, isValue⟩
  | level threshold => trivial
  | shutdown => trivial
  | quit => trivial
  | sessionLogs session count =>
    simp only [verb, readArguments, bind_ok_iff, pure, Except.pure, Except.ok.injEq] at parsed
    obtain ⟨_, named, _, counted, ⟨⟩⟩ := parsed
    obtain ⟨some, first⟩ := needed_iff.1 named
    rw [← first] at some
    have starts := (nextWord_iff some).1 (Prod.ext first.symm rfl)
    exact ⟨(solid_toList_iff _).1 starts.solid, readCount_le counted⟩
  | logs count =>
    simp only [verb, readArguments, bind_ok_iff, pure, Except.pure, Except.ok.injEq] at parsed
    obtain ⟨_, counted, ⟨⟩⟩ := parsed
    exact readCount_le counted
  | clear scope =>
    simp only [verb, readArguments, bind_ok_iff, pure, Except.pure, Except.ok.injEq] at parsed
    obtain ⟨word, named, ⟨⟩⟩ := parsed
    rw [scopeOf]
    split
    · trivial
    next other => exact ⟨isWord_of_readWord named, other⟩
  | _ =>
    simp only [verb, readArguments, bind_ok_iff, pure, Except.pure, Except.ok.injEq] at parsed
    obtain ⟨_, named, ⟨⟩⟩ := parsed
    exact isWord_of_readWord named

end Request

end KeyValueService
