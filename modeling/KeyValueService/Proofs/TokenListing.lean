import KeyValueService.Proofs.AccessSetup
import KeyValueService.Proofs.RequestReading

/-!
# What a token file lists

Two hexadecimal digits of either case write a byte, and the digits of its bytes a digest (`Writes`).
Reading is the inverse of this relation, so that a token file adds the digests that its lines write and
no others, and complains of the lines that are neither digests nor to be skipped. Whoever has been given
tokens in plain and by files accepts the tokens with one of these digests. Main statement:
`TokenSet.accepted_as_listed`.
-/

namespace KeyValueService

open Bytes Text

/-! ## Digits -/

/-- A hexadecimal digit and its value, which is its place among the digits of one case or the other. -/
def DigitFor (c : Char) (n : Nat) : Prop :=
  "0123456789abcdef".toList[n]? = some c ∨ "0123456789ABCDEF".toList[n]? = some c

/-- Digits that write bytes, two for each, that of the higher half first. -/
inductive Writes : List Char → List UInt8 → Prop
  | nothing : Writes [] []
  | byte {high low : Char} {b : UInt8} {rest : List Char} {bytes : List UInt8}
    (higher : DigitFor high (b.toNat / 16)) (lower : DigitFor low (b.toNat % 16))
    (behind : Writes rest bytes) : Writes (high :: low :: rest) (b :: bytes)

/-- The code points of the digits: ten for both cases and six for each. -/
theorem digitFor_iff {c : Char} {n : Nat} : DigitFor c n ↔
    (n < 10 ∧ c.toNat = 48 + n) ∨ (10 ≤ n ∧ n < 16 ∧ (c.toNat = 87 + n ∨ c.toNat = 55 + n)) := by
  have table : ∀ n < 16,
      "0123456789abcdef".toList[n]? = some (Char.ofNat (if n < 10 then 48 + n else 87 + n)) ∧
        "0123456789ABCDEF".toList[n]? = some (Char.ofNat (if n < 10 then 48 + n else 55 + n)) := by
    decide
  have points : ∀ n < 16, (Char.ofNat (48 + n)).toNat = 48 + n ∧
      (Char.ofNat (87 + n)).toNat = 87 + n ∧ (Char.ofNat (55 + n)).toNat = 55 + n := by
    decide
  constructor
  · intro digit
    have small : n < 16 := by
      rcases digit with there | there
      · exact (List.getElem?_eq_some_iff.1 there).1
      · exact (List.getElem?_eq_some_iff.1 there).1
    obtain ⟨decimal, lower, upper⟩ := points n small
    rw [DigitFor, (table n small).1, (table n small).2, Option.some.injEq, Option.some.injEq] at digit
    split at digit <;> rcases digit with rfl | rfl <;> omega
  · intro point
    have small : n < 16 := by omega
    rw [DigitFor, (table n small).1, (table n small).2, Option.some.injEq, Option.some.injEq,
      ← Char.ofNat_toNat c]
    rcases point with ⟨decimal, value⟩ | ⟨letter, -, value | value⟩
    · exact .inl (by rw [value, if_pos decimal])
    · exact .inl (by rw [value, if_neg (Nat.not_lt_of_le letter)])
    · exact .inr (by rw [value, if_neg (Nat.not_lt_of_le letter)])

/-- Digits are read as their values, and nothing else is read. -/
theorem hexValue?_eq_some_iff {c : Char} {n : Nat} : hexValue? c = some n ↔ DigitFor c n := by
  have ranges : hexValue? c = if 48 ≤ c.toNat ∧ c.toNat ≤ 57 then some (c.toNat - 48)
      else if 97 ≤ c.toNat ∧ c.toNat ≤ 102 then some (c.toNat - 97 + 10)
      else if 65 ≤ c.toNat ∧ c.toNat ≤ 70 then some (c.toNat - 65 + 10) else none := rfl
  rw [digitFor_iff, ranges]
  split
  next decimal => rw [Option.some.injEq]; omega
  split
  next decimal small => rw [Option.some.injEq]; omega
  split
  next decimal small large => rw [Option.some.injEq]; omega
  next decimal small large => simp only [reduceCtorEq, false_iff]; omega

theorem toNat_toLower (c : Char) :
    c.toLower.toNat = if 65 ≤ c.toNat ∧ c.toNat ≤ 90 then c.toNat + 32 else c.toNat := by
  have capital : (c.val ≥ 'A'.val ∧ c.val ≤ 'Z'.val) ↔ (65 ≤ c.toNat ∧ c.toNat ≤ 90) := Iff.rfl
  by_cases range : 65 ≤ c.toNat ∧ c.toNat ≤ 90
  · have raised : c.toLower.val = c.val + ('a'.val - 'A'.val) :=
      congrArg Char.val (dif_pos (capital.2 range))
    rw [if_pos range, Char.toNat, raised]
    change (c.val.toNat + 32) % 2 ^ 32 = c.val.toNat + 32
    have bound : c.val.toNat ≤ 90 := range.2
    omega
  · have same : c.toLower = c := dif_neg (mt capital.1 range)
    rw [same, if_neg range]

/-- The digits for a value are the one that is written for it and that as a capital. -/
theorem digitFor_iff_toLower {c : Char} {n : Nat} :
    DigitFor c n ↔ n < 16 ∧ c.toLower = hexDigit n := by
  have points : ∀ n < 16, (hexDigit n).toNat = if n < 10 then 48 + n else 87 + n := by decide
  rw [digitFor_iff]
  have same (small : n < 16) : c.toLower = hexDigit n ↔
      c.toLower.toNat = if n < 10 then 48 + n else 87 + n := by
    rw [← points n small, Char.toNat_inj]
  constructor
  · intro point
    have small : n < 16 := by omega
    refine ⟨small, ?_⟩
    rw [same small, toNat_toLower]
    split <;> split <;> omega
  · rintro ⟨small, lowered⟩
    rw [same small, toNat_toLower] at lowered
    split at lowered <;> split at lowered <;> omega

/-- A text writes bytes if it is what is written for them, up to capitals. -/
theorem writes_iff_toLower {s : List Char} {bytes : List UInt8} :
    Writes s bytes ↔ s.map Char.toLower = toHex bytes := by
  constructor
  · intro writes
    induction writes with
    | nothing => rfl
    | byte higher lower behind inductionHypothesis =>
      rw [List.map_cons, List.map_cons, inductionHypothesis, (digitFor_iff_toLower.1 higher).2,
        (digitFor_iff_toLower.1 lower).2]
      rfl
  · intro written
    induction bytes generalizing s with
    | nil =>
      rw [List.map_eq_nil_iff.1 written]
      exact .nothing
    | cons b bytes inductionHypothesis =>
      have parts : s.map Char.toLower =
          hexDigit (b.toNat / 16) :: hexDigit (b.toNat % 16) :: toHex bytes := written
      obtain ⟨high, _, rfl, higher, parts⟩ := List.map_eq_cons_iff.1 parts
      obtain ⟨low, rest, rfl, lower, parts⟩ := List.map_eq_cons_iff.1 parts
      have bound := b.toNat_lt
      exact .byte (digitFor_iff_toLower.2 ⟨by omega, higher⟩)
        (digitFor_iff_toLower.2 ⟨by omega, lower⟩) (inductionHypothesis parts)

/-- Reading is the inverse of writing. -/
theorem ofHex?_eq_some_iff {s : List Char} {bytes : List UInt8} :
    Bytes.ofHex? s = some bytes ↔ Writes s bytes := by
  induction s using Bytes.ofHex?.induct generalizing bytes with
  | case1 =>
    rw [Bytes.ofHex?, Option.some.injEq]
    constructor
    · rintro rfl
      exact .nothing
    · rintro ⟨⟩
      rfl
  | case2 high low rest inductionHypothesis =>
    simp only [Bytes.ofHex?, Option.bind_eq_bind, Option.bind_eq_some_iff, Option.some.injEq,
      inductionHypothesis, hexValue?_eq_some_iff]
    constructor
    · rintro ⟨h, higher, l, lower, others, behind, rfl⟩
      have value : (UInt8.ofNat (h * 16 + l)).toNat = h * 16 + l := by
        rw [digitFor_iff] at higher lower
        rw [UInt8.toNat_ofNat']
        omega
      have lowSmall : l < 16 := (digitFor_iff_toLower.1 lower).1
      refine .byte ?_ ?_ behind
      · rwa [value, show (h * 16 + l) / 16 = h by omega]
      · rwa [value, show (h * 16 + l) % 16 = l by omega]
    · intro writes
      cases writes with
      | @byte _ _ b _ others higher lower behind =>
        refine ⟨_, higher, _, lower, others, behind, ?_⟩
        rw [Nat.div_add_mod', UInt8.ofNat_toNat]
  | case3 c =>
    rw [Bytes.ofHex?]
    constructor
    · rintro ⟨⟩
    · rintro ⟨⟩

/-- A digest is read from the digits of its bytes. -/
theorem digestOfHex?_eq_some_iff {s : List Char} {digest : Digest} :
    Digest.ofHex? s = some digest ↔ Writes s digest.toList := by
  rw [← ofHex?_eq_some_iff, digestOfHex?_eq]
  cases Bytes.ofHex? s with
  | none => simp
  | some bytes =>
    simp only [Option.some.injEq]
    constructor
    · intro sized
      split at sized
      next size =>
        cases sized
        rfl
      next size => cases sized
    · rintro rfl
      exact dif_pos (by simp)

/-- The digits of a digest are 64. -/
theorem Writes.writesDigest {s : List Char} {digest : Digest} (writes : Writes s digest.toList) :
    WritesDigest s := by
  rw [← isSome_ofHex?, digestOfHex?_eq_some_iff.2 writes]
  rfl

/-! ## Lines -/

/-- A line without the blanks at its ends that is not skipped: it is not empty and no comment. -/
def LineCounts (line : List Char) : Prop :=
  line ≠ [] ∧ line.head? ≠ some '#'

/-- A text lists a digest on a line of its own, blanks at the ends of the line aside. -/
def Lists (text : String) (digest : Digest) : Prop :=
  ∃ line ∈ lines text.toList, LineCounts (trimChars line) ∧ WritesDigest (trimChars line) ∧
    Writes (trimChars line) digest.toList

instance (c : Char) : Decidable (IsHexDigit c) :=
  inferInstanceAs (Decidable (_ ∨ _ ∨ _))

instance (s : List Char) : Decidable (WritesDigest s) :=
  decidable_of_iff (s.length = 64 ∧ s.all (fun c => decide (IsHexDigit c)) = true)
    ⟨fun both => ⟨both.1, by simpa using both.2⟩, fun written =>
      ⟨written.length, by simpa using written.digits⟩⟩

instance (line : List Char) : Decidable (LineCounts line) :=
  inferInstanceAs (Decidable (_ ∧ _))

/-- The numbers of the lines that are neither digests nor skipped. -/
def malformedNumbers (numbered : List (Nat × List Char)) : List Nat :=
  (numbered.filter fun line =>
    decide (LineCounts (trimChars line.2) ∧ ¬WritesDigest (trimChars line.2))).map Prod.fst

theorem WritesDigest.counts {s : List Char} (written : WritesDigest s) : LineCounts s := by
  constructor
  · rintro rfl
    exact absurd written.length (by decide)
  · intro comment
    have digit := written.digits '#' (List.mem_of_mem_head? comment)
    revert digit
    decide

/-- Blanks around a word are trimmed. -/
theorem trimChars_around {before word after : List Char} (indented : Request.Blanks before)
    (solid : Request.Solid word) (ended : Request.Blanks after) :
    trimChars (before ++ (word ++ after)) = word := by
  rw [trimChars, stripWhile, Request.dropWhile_indented indented solid]
  exact dropEndWhile_append (fun c last => solid.2 c (List.mem_of_getLast? last)) ended

/-- Digits are no blanks. -/
theorem WritesDigest.solid {s : List Char} (written : WritesDigest s) : Request.Solid s := by
  refine ⟨written.counts.1, fun c member => ?_⟩
  obtain ⟨n, value⟩ := exists_hexValue?.2 (written.digits c member)
  have digit := digitFor_iff.1 (hexValue?_eq_some_iff.1 value)
  rw [← Bool.not_eq_true]
  simp only [isBlank, Bool.or_eq_true, Bool.and_eq_true, decide_eq_true_eq, beq_iff_eq]
  omega

namespace TokenSet

variable {tokens : TokenSet}

theorem contains_insert (digest other : Digest) :
    (tokens.insert digest).contains other = true ↔ tokens.contains other = true ∨ other = digest := by
  rw [insert]
  split
  next known =>
    refine ⟨.inl, fun either => either.elim id ?_⟩
    rintro rfl
    exact decide_eq_true known
  next new =>
    rw [contains, contains, decide_eq_true_iff, decide_eq_true_iff, List.mem_cons, or_comm]

theorem contains_insertToken (hash : String → Digest) (token : String) (digest : Digest) :
    (tokens.insertToken hash token).contains digest = true ↔
      tokens.contains digest = true ∨ token ≠ "" ∧ hash token = digest := by
  rw [insertToken]
  by_cases empty : token = ""
  · rw [if_pos empty]
    exact ⟨.inl, fun either => either.elim id fun plain => absurd empty plain.1⟩
  · rw [if_neg empty, contains_insert, and_iff_right empty, @eq_comm _ digest]

/-- The lines of a token file, by induction on them: a line is skipped, or it is a digest, or its number
is listed. -/
theorem insertLines_exact (numbered : List (Nat × List Char)) :
    (∀ digest, (tokens.insertLines numbered).1.contains digest = true ↔
      tokens.contains digest = true ∨
        ∃ line ∈ numbered, Writes (trimChars line.2) digest.toList) ∧
      (tokens.insertLines numbered).2 = malformedNumbers numbered := by
  induction numbered generalizing tokens with
  | nil => simp [insertLines, malformedNumbers]
  | cons line rest inductionHypothesis =>
    obtain ⟨number, line⟩ := line
    have skipped (idle : ¬LineCounts (trimChars line)) :
        malformedNumbers ((number, line) :: rest) = malformedNumbers rest ∧
          ∀ digest : Digest, ¬Writes (trimChars line) digest.toList := by
      refine ⟨?_, fun digest writes => idle writes.writesDigest.counts⟩
      simp [malformedNumbers, idle]
    simp only [List.mem_cons, exists_eq_or_imp]
    rw [insertLines]
    split
    next blank =>
      obtain ⟨unlisted, noDigest⟩ := skipped (by simp [LineCounts, blank])
      obtain ⟨digests, malformed⟩ := @inductionHypothesis tokens
      refine ⟨fun digest => ?_, unlisted ▸ malformed⟩
      rw [digests, or_iff_right (noDigest digest)]
    next comment text =>
      obtain ⟨unlisted, noDigest⟩ := skipped (by simp [LineCounts, text])
      obtain ⟨digests, malformed⟩ := @inductionHypothesis tokens
      refine ⟨fun digest => ?_, unlisted ▸ malformed⟩
      rw [digests, or_iff_right (noDigest digest)]
    next digits notBlank notComment =>
      have counts : LineCounts (trimChars line) := by
        refine ⟨notBlank, fun comment => ?_⟩
        obtain ⟨text, shown⟩ := List.head?_eq_some_iff.1 comment
        exact notComment text shown
      cases read : Digest.ofHex? (trimChars line) with
      | none =>
        obtain ⟨digests, malformed⟩ := @inductionHypothesis tokens
        have notWritten : ¬WritesDigest (trimChars line) := by
          rw [← isSome_ofHex?, read]
          exact Bool.false_ne_true
        have noDigest (digest : Digest) : ¬Writes (trimChars line) digest.toList :=
          fun writes => notWritten writes.writesDigest
        refine ⟨fun digest => ?_, ?_⟩
        · dsimp only
          rw [digests, or_iff_right (noDigest digest)]
        · dsimp only
          rw [malformed]
          simp [malformedNumbers, counts, notWritten]
      | some found =>
        obtain ⟨digests, malformed⟩ := @inductionHypothesis (tokens.insert found)
        have written := digestOfHex?_eq_some_iff.1 read
        refine ⟨fun digest => ?_, ?_⟩
        · dsimp only
          have same : digest = found ↔ Writes (trimChars line) digest.toList := by
            rw [← digestOfHex?_eq_some_iff, read, Option.some.injEq, eq_comm]
          rw [digests, contains_insert, or_assoc, same]
        · dsimp only
          rw [malformed]
          simp [malformedNumbers, written.writesDigest]

/-- A token file that can be read adds the digests that it lists, and complains of the other lines that
are not skipped, in order. -/
theorem load_exact {fs : FileSystem} {path : Path} {text : String} (read : fs.readText path = .ok text) :
    ∃ loaded, tokens.load fs path =
        .ok (loaded, (malformedNumbers (numberedLines text)).map (⟨·, path⟩)) ∧
      ∀ digest, loaded.contains digest = true ↔
        tokens.contains digest = true ∨ Lists text digest := by
  obtain ⟨digests, malformed⟩ := @insertLines_exact tokens (numberedLines text)
  refine ⟨(tokens.insertLines (numberedLines text)).1, ?_, fun digest => ?_⟩
  · rw [load, read, ← malformed]
  · have counted (line : List Char) : Writes (trimChars line) digest.toList ↔
        LineCounts (trimChars line) ∧ WritesDigest (trimChars line) ∧
          Writes (trimChars line) digest.toList :=
      ⟨fun writes => ⟨writes.writesDigest.counts, writes.writesDigest, writes⟩, fun all => all.2.2⟩
    rw [digests, exists_mem_numberedLines (p := fun line => Writes (trimChars line) digest.toList)]
    simp only [Lists, ← counted]

end TokenSet

/-! ## Supplies -/

/-- Where a set of tokens gets its digests from. -/
inductive TokenSupply
  | plain (token : String)
  | file (fs : FileSystem) (path : Path)

/-- A supply has a digest: it is that of its token, if that is not empty, or its file lists it. -/
def TokenSupply.Has (hash : String → Digest) (digest : Digest) : TokenSupply → Prop
  | plain token => token ≠ "" ∧ hash token = digest
  | file fs path => ∃ text, fs.readText path = .ok text ∧ Lists text digest

namespace TokenSet

variable {tokens : TokenSet}

/-- Adds what a supply has. A file that cannot be read is passed over. -/
def supply (hash : String → Digest) (tokens : TokenSet) : TokenSupply → TokenSet
  | .plain token => tokens.insertToken hash token
  | .file fs path =>
    match tokens.load fs path with
    | .ok (loaded, _) => loaded
    | .error _ => tokens

theorem contains_supply (hash : String → Digest) (given : TokenSupply) (digest : Digest) :
    (tokens.supply hash given).contains digest = true ↔
      tokens.contains digest = true ∨ given.Has hash digest := by
  cases given with
  | plain token => exact contains_insertToken hash token digest
  | file fs path =>
    rw [supply, TokenSupply.Has]
    cases read : fs.readText path with
    | error e => simp [load, read]
    | ok text =>
      obtain ⟨loaded, loading, digests⟩ := @load_exact tokens fs path text read
      rw [loading]
      simp [digests]

/-- Any supplies, by induction on them. -/
theorem contains_supplies (hash : String → Digest) (supplies : List TokenSupply) (digest : Digest) :
    (supplies.foldl (supply hash) tokens).contains digest = true ↔
      tokens.contains digest = true ∨ ∃ given ∈ supplies, given.Has hash digest := by
  induction supplies generalizing tokens with
  | nil => simp
  | cons given supplies inductionHypothesis =>
    rw [List.foldl_cons, inductionHypothesis, contains_supply, or_assoc]
    simp only [List.mem_cons, exists_eq_or_imp]

/-- The line for a token in a token file, its letters in either case, lists the digest of the token. -/
theorem lists_of_hex {text : String} {before digits after : List Char} {digest : Digest}
    (line : before ++ (digits ++ after) ∈ lines text.toList) (indented : Request.Blanks before)
    (ended : Request.Blanks after) (written : digits.map Char.toLower = digest.hex.toList) :
    Lists text digest := by
  have writes : Writes digits digest.toList := by
    rw [writes_iff_toLower, written, Digest.hex, String.toList_ofList]
  have whole := writes.writesDigest
  refine ⟨_, line, ?_⟩
  rw [trimChars_around indented whole.solid ended]
  exact ⟨whole.counts, whole, writes⟩

/-- Whatever the function that gives the digests of tokens:

* A token file that can be read adds to any set of tokens the digests that it lists, and each line that is
  neither one of them nor skipped is complained of by its number, in order. One that cannot be read is an
  error, and the set stays.
* After any supplies a token is accepted if its digest is that of a token given in plain that is not
  empty, or listed in a file that could be read.
* The line for a token, its letters in either case and with any blanks around it, makes a file supply the
  token.

Proof: `Writes` is what reading inverts, so a line adds the digest that it writes. Reading the lines and
supplying are inductions over this. -/
theorem accepted_as_listed (hash : String → Digest) :
    (∀ (tokens : TokenSet) (fs : FileSystem) (path : Path),
      match fs.readText path with
      | .error e => tokens.load fs path = .error e ∧ tokens.supply hash (.file fs path) = tokens
      | .ok text => ∃ loaded, tokens.load fs path =
            .ok (loaded, (malformedNumbers (numberedLines text)).map (⟨·, path⟩)) ∧
          ∀ digest, loaded.contains digest = true ↔
            tokens.contains digest = true ∨ Lists text digest) ∧
      (∀ (supplies : List TokenSupply) (token : String),
        (supplies.foldl (supply hash) empty).accepts hash token = true ↔
          ∃ given ∈ supplies, given.Has hash (hash token)) ∧
      ∀ (tokens : TokenSet) (fs : FileSystem) (path : Path) (text token : String)
        (before digits after : List Char), fs.readText path = .ok text →
        before ++ (digits ++ after) ∈ lines text.toList → Request.Blanks before →
        Request.Blanks after → digits.map Char.toLower = (hash token).hex.toList →
          (tokens.supply hash (.file fs path)).accepts hash token = true := by
  refine ⟨fun tokens fs path => ?_, fun supplies token => ?_, ?_⟩
  · cases read : fs.readText path with
    | error e => simp only [supply, load, read, and_self]
    | ok text => exact load_exact read
  · rw [accepts, contains_supplies]
    simp [contains, empty]
  · intro tokens fs path text token before digits after read line indented ended written
    rw [accepts, contains_supply]
    exact .inr ⟨text, read, lists_of_hex line indented ended written⟩

/-- A file with a comment, an empty line, a line that is no digest, and the line for the token `a` in
capitals between blanks. -/
theorem accepted_by_capitals :
    let hash : String → Digest := fun token => .replicate 32 (UInt8.ofNat (171 + token.length))
    let digits := (List.replicate 32 ['A', 'c']).flatten
    let text := String.ofList ("# tokens\n\nabc\n\t".toList ++ (digits ++ " \n".toList))
    let fs : FileSystem := ⟨[(["t.tokens"], .file 0 text.toUTF8)], [], 1, false⟩
    fs.readText ⟨"t.tokens"⟩ = .ok text ∧
      (∃ loaded, TokenSet.empty.load fs ⟨"t.tokens"⟩ = .ok (loaded, [⟨3, ⟨"t.tokens"⟩⟩])) ∧
      (TokenSet.empty.supply hash (.file fs ⟨"t.tokens"⟩)).accepts hash "a" = true := by
  intro hash digits text fs
  obtain ⟨read, line, written, numbers⟩ : fs.readText ⟨"t.tokens"⟩ = .ok text ∧
      ['\t'] ++ (digits ++ [' ']) ∈ lines text.toList ∧
        digits.map Char.toLower = (hash "a").hex.toList ∧
          malformedNumbers (numberedLines text) = [3] := by
    decide +kernel
  have exact := accepted_as_listed hash
  have loading := exact.1 .empty fs ⟨"t.tokens"⟩
  rw [read] at loading
  obtain ⟨loaded, loading, -⟩ := loading
  rw [numbers] at loading
  exact ⟨read, ⟨loaded, loading⟩, exact.2.2 .empty fs ⟨"t.tokens"⟩ text "a" ['\t'] digits [' '] read
    line (List.forall_mem_singleton.2 (by decide)) (List.forall_mem_singleton.2 (by decide)) written⟩

end TokenSet

end KeyValueService
