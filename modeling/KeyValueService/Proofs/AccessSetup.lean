import KeyValueService.Proofs.GuestIsolation
import KeyValueService.Settings.Serving

/-!
# From the settings to the gate

A service asks its clients for a token as soon as the settings list one, or the token file that they
name has a line that is a digest in hexadecimal. A token file that cannot be read is an error, so
that no service starts open for want of it; one that can be read and lists no digest counts as none
(`ServingOptions.gate_guards`).

A gate that asks for a token keeps out every client that has not shown an accepted one
(`Gate.keepsOut_of_isRequired`).
-/

namespace KeyValueService

open Bytes Text

/-! ## Digests in hexadecimal -/

/-- A hexadecimal digit of either case. -/
def IsHexDigit (c : Char) : Prop :=
  ('0' ≤ c ∧ c ≤ '9') ∨ ('a' ≤ c ∧ c ≤ 'f') ∨ ('A' ≤ c ∧ c ≤ 'F')

/-- The 64 digits of a digest. -/
structure WritesDigest (s : List Char) : Prop where
  length : s.length = 64
  digits : ∀ c ∈ s, IsHexDigit c

/-- A text that lists a digest on a line of its own, blanks at the ends of the line aside. -/
def ListsDigest (text : String) : Prop :=
  ∃ line ∈ lines text.toList, WritesDigest (trimChars line)

theorem exists_hexValue? {c : Char} : (∃ n, hexValue? c = some n) ↔ IsHexDigit c := by
  unfold hexValue? IsHexDigit
  split
  next decimal => exact ⟨fun _ => .inl decimal, fun _ => ⟨_, rfl⟩⟩
  split
  next small => exact ⟨fun _ => .inr (.inl small), fun _ => ⟨_, rfl⟩⟩
  split
  next large => exact ⟨fun _ => .inr (.inr large), fun _ => ⟨_, rfl⟩⟩
  next decimal small large => simp [decimal, small, large]

/-- The texts that are read as so many bytes: two digits for each. -/
theorem exists_ofHex? {s : List Char} {size : Nat} :
    (∃ bytes, Bytes.ofHex? s = some bytes ∧ bytes.length = size) ↔
      s.length = 2 * size ∧ ∀ c ∈ s, IsHexDigit c := by
  induction s using Bytes.ofHex?.induct generalizing size with
  | case1 =>
    simp only [Bytes.ofHex?, Option.some.injEq, exists_eq_left', List.length_nil, List.not_mem_nil,
      false_imp_iff, implies_true, and_true]
    omega
  | case2 high low rest inductionHypothesis =>
    simp only [Bytes.ofHex?, Option.bind_eq_bind, Option.bind_eq_some_iff, Option.some.injEq,
      List.length_cons, List.forall_mem_cons, ← exists_hexValue?]
    constructor
    · rintro ⟨-, ⟨h, highRead, l, lowRead, bytes, restRead, rfl⟩, rfl⟩
      obtain ⟨length, digits⟩ := inductionHypothesis.1 ⟨bytes, restRead, rfl⟩
      refine ⟨by rw [List.length_cons]; omega, ⟨h, highRead⟩, ⟨l, lowRead⟩, ?_⟩
      simpa only [exists_hexValue?] using digits
    · rintro ⟨length, ⟨h, highRead⟩, ⟨l, lowRead⟩, digits⟩
      obtain ⟨before, rfl⟩ := Nat.exists_eq_succ_of_ne_zero (show size ≠ 0 by omega)
      have restDigits : rest.length = 2 * before ∧ ∀ c ∈ rest, IsHexDigit c :=
        ⟨by omega, by simpa only [exists_hexValue?] using digits⟩
      obtain ⟨bytes, restRead, restLength⟩ := inductionHypothesis.2 restDigits
      exact ⟨_, ⟨h, highRead, l, lowRead, bytes, restRead, rfl⟩, congrArg Nat.succ restLength⟩
  | case3 c =>
    simp only [Bytes.ofHex?, List.length_singleton]
    constructor
    · rintro ⟨bytes, none, -⟩
      cases none
    · rintro ⟨length, -⟩
      omega

/-- The bytes of a text, each as a character of its own. -/
def byteChars (s : List Char) : List Char :=
  (String.ofList s).toUTF8.data.toList.map fun b => Char.ofNat b.toNat

/-- The bytes of one character. -/
def charBytes (c : Char) : List Char :=
  (String.utf8EncodeChar c).map fun b => Char.ofNat b.toNat

theorem byteChars_eq (s : List Char) : byteChars s = s.flatMap charBytes := by
  have bytes : (String.ofList s).toUTF8.data.toList = s.flatMap String.utf8EncodeChar := by
    rw [String.toUTF8, String.toByteArray_ofList, List.utf8Encode, List.toList_data_toByteArray]
  rw [byteChars, bytes, List.map_flatMap]
  rfl

theorem IsHexDigit.toNat_lt {c : Char} (digit : IsHexDigit c) : c.toNat < 128 := by
  simp only [IsHexDigit, Char.le_def, UInt32.le_iff_toNat_le] at digit
  have bounds : '9'.val.toNat = 57 ∧ 'f'.val.toNat = 102 ∧ 'F'.val.toNat = 70 := by decide
  change c.val.toNat < 128
  omega

/-- A character of the first 128 is one byte, which stands for it. Of any other the last byte stands for
none of them. -/
theorem charBytes_cases (c : Char) :
    c.toNat < 128 ∧ charBytes c = [c] ∨ ¬ c.toNat < 128 ∧ ∃ d ∈ charBytes c, ¬ d.toNat < 128 := by
  by_cases small : c.toNat < 128
  · left
    have size : c.toNat % 256 = c.toNat := by omega
    have encoded : String.utf8EncodeChar c = [UInt8.ofNat c.toNat] :=
      if_pos (Nat.le_of_lt_succ small)
    refine ⟨small, ?_⟩
    rw [charBytes, encoded, List.map_singleton, UInt8.toNat_ofNat', size, Char.ofNat_toNat]
  · right
    have last : UInt8.ofNat (c.toNat % 64 + 128) ∈ String.utf8EncodeChar c := by
      have large : ¬ c.val.toNat ≤ 127 := fun le => small (Nat.lt_succ_of_le le)
      rw [String.utf8EncodeChar, if_neg large]
      split
      · exact List.mem_of_getLast? rfl
      · split <;> exact List.mem_of_getLast? rfl
    refine ⟨small, _, List.mem_map_of_mem last, ?_⟩
    have value : (UInt8.ofNat (c.toNat % 64 + 128)).toNat = c.toNat % 64 + 128 := by
      rw [UInt8.toNat_ofNat']
      omega
    have valid : (c.toNat % 64 + 128).isValidChar := .inl (by omega)
    have point : (Char.ofNat (c.toNat % 64 + 128)).toNat = c.toNat % 64 + 128 := by
      rw [Char.ofNat, dif_pos valid]
      rfl
    rw [value, point]
    omega

/-- Digits are one byte each. -/
theorem byteChars_of_digits {s : List Char} (digits : ∀ c ∈ s, IsHexDigit c) : byteChars s = s := by
  have single : s.map charBytes = s.map fun c => [c] := by
    refine List.map_congr_left fun c member => ?_
    rcases charBytes_cases c with ⟨-, one⟩ | ⟨large, -⟩
    · exact one
    · exact absurd (digits c member).toNat_lt large
  rw [byteChars_eq, List.flatMap_def, single, ← List.flatMap_def, List.flatMap_singleton']

/-- To read a text byte by byte comes to the same: no byte of a character that takes several is a
digit. -/
theorem ofHex?_byteChars (s : List Char) : Bytes.ofHex? (byteChars s) = Bytes.ofHex? s := by
  have refused : ∀ {t : List Char}, (∃ c ∈ t, ¬ IsHexDigit c) → Bytes.ofHex? t = none := by
    rintro t ⟨c, member, noDigit⟩
    cases read : Bytes.ofHex? t with
    | none => rfl
    | some bytes => exact absurd ((exists_ofHex?.1 ⟨bytes, read, rfl⟩).2 c member) noDigit
  by_cases digits : ∀ c ∈ s, IsHexDigit c
  · rw [byteChars_of_digits digits]
  · obtain ⟨c, member, noDigit⟩ : ∃ c ∈ s, ¬ IsHexDigit c := by simpa using digits
    rw [refused ⟨c, member, noDigit⟩, refused]
    rw [byteChars_eq]
    rcases charBytes_cases c with ⟨-, one⟩ | ⟨-, d, among, large⟩
    · exact ⟨c, List.mem_flatMap.2 ⟨c, member, by simp [one]⟩, noDigit⟩
    · exact ⟨d, List.mem_flatMap.2 ⟨c, member, among⟩, fun digit => large digit.toNat_lt⟩

/-- What lists a digest has as many bytes as characters. -/
theorem WritesDigest.utf8ByteSize {s : List Char} (writes : WritesDigest s) :
    (String.ofList s).utf8ByteSize = 64 := by
  have counted : (byteChars s).length = (String.ofList s).utf8ByteSize := by
    rw [byteChars, List.length_map]
    rfl
  rw [← counted, byteChars_of_digits writes.digits, writes.length]

/-- What is read as a digest has the right number of bytes, whether or not that is tested first. -/
theorem digestOfHex?_eq (s : List Char) :
    Digest.ofHex? s =
      match Bytes.ofHex? s with
      | none => none
      | some bytes => if h : bytes.toArray.size = 32 then some ⟨bytes.toArray, h⟩ else none := by
  rw [Digest.ofHex?]
  by_cases size : (String.ofList s).utf8ByteSize = 64
  · exact if_pos size
  · rw [if_neg size]
    cases read : Bytes.ofHex? s with
    | none => rfl
    | some bytes =>
      have other : ¬ bytes.toArray.size = 32 := by
        intro counted
        obtain ⟨length, digits⟩ := exists_ofHex?.1 ⟨bytes, read, counted⟩
        exact size (WritesDigest.utf8ByteSize ⟨length, digits⟩)
      dsimp only
      rw [dif_neg other]

theorem isSome_ofHex? {s : List Char} : (Digest.ofHex? s).isSome ↔ WritesDigest s := by
  have read : (Digest.ofHex? s).isSome ↔
      ∃ bytes, Bytes.ofHex? s = some bytes ∧ bytes.length = 32 := by
    rw [digestOfHex?_eq]
    cases Bytes.ofHex? s with
    | none => simp
    | some bytes => by_cases size : bytes.length = 32 <;> simp [size]
  rw [read, exists_ofHex?]
  exact ⟨fun written => ⟨written.1, written.2⟩, fun written => ⟨written.length, written.digits⟩⟩

theorem exists_mem_numberedLines {text : String} {p : List Char → Prop} :
    (∃ line ∈ numberedLines text, p line.2) ↔ ∃ line ∈ lines text.toList, p line := by
  simp only [← map_snd_numberedLines, List.mem_map, exists_exists_and_eq_and]

/-! ## Sets of tokens -/

namespace TokenSet

variable {tokens : TokenSet}

theorem isRequired_insert (digest : Digest) : (tokens.insert digest).isRequired = true := by
  rw [insert]
  split
  next known =>
    rw [isRequired, Bool.not_eq_true', List.isEmpty_eq_false_iff]
    exact List.ne_nil_of_mem known
  next new => rfl

/-- A token listed in plain is asked for, unless it is empty. -/
theorem isRequired_foldl (hash : String → Digest) (listed : List String) :
    (listed.foldl (insertToken hash) tokens).isRequired ↔
      tokens.isRequired ∨ ∃ token ∈ listed, token ≠ "" := by
  induction listed generalizing tokens with
  | nil => simp
  | cons token listed inductionHypothesis =>
    rw [List.foldl_cons, inductionHypothesis, insertToken]
    by_cases empty : token = ""
    · simp [empty]
    · simp [empty, isRequired_insert]

theorem isRequired_ofTokens (hash : String → Digest) (listed : List String) :
    (ofTokens hash listed).isRequired ↔ ∃ token ∈ listed, token ≠ "" := by
  rw [ofTokens, isRequired_foldl]
  simp [empty, isRequired]

/-- Of the lines of a token file those count that are digests. -/
theorem isRequired_insertLines (numbered : List (Nat × List Char)) :
    (tokens.insertLines numbered).1.isRequired ↔
      tokens.isRequired ∨ ∃ line ∈ numbered, WritesDigest (trimChars line.2) := by
  induction numbered generalizing tokens with
  | nil => simp [insertLines]
  | cons line rest inductionHypothesis =>
    obtain ⟨number, line⟩ := line
    simp only [List.mem_cons, exists_eq_or_imp]
    rw [insertLines]
    split
    next blank =>
      have noDigest : ¬WritesDigest (trimChars line) := by
        rw [blank]
        exact fun written => absurd written.length (by decide)
      rw [inductionHypothesis, or_iff_right noDigest]
    next comment text =>
      have noDigest : ¬WritesDigest (trimChars line) := by
        rw [text]
        intro written
        have digit := written.digits '#' List.mem_cons_self
        revert digit
        unfold IsHexDigit
        decide
      rw [inductionHypothesis, or_iff_right noDigest]
    next digits _ _ =>
      rw [← isSome_ofHex?]
      cases Digest.ofHex? (trimChars line) with
      | none =>
        dsimp only
        rw [inductionHypothesis]
        simp
      | some digest =>
        dsimp only
        rw [inductionHypothesis, isRequired_insert]
        simp

/-- A token file that can be read adds the digests that it lists, and nothing else can fail. -/
theorem load_cases (tokens : TokenSet) (fs : FileSystem) (path : Path) :
    (∃ e, fs.readText path = .error e ∧ tokens.load fs path = .error e) ∨
      ∃ text loaded skipped, fs.readText path = .ok text ∧
        tokens.load fs path = .ok (loaded, skipped) ∧
        (loaded.isRequired ↔ tokens.isRequired ∨ ListsDigest text) := by
  rw [load]
  cases fs.readText path with
  | error e => exact .inl ⟨e, rfl, rfl⟩
  | ok text =>
    refine .inr ⟨text, _, _, rfl, rfl, ?_⟩
    rw [isRequired_insertLines, ListsDigest,
      exists_mem_numberedLines (p := fun line => WritesDigest (trimChars line))]

end TokenSet

/-! ## Gates -/

/-- A line of a client that none of its lines has let in, this one included, only leaves a warning
behind. -/
theorem Clientele.step_of_guest {hash : String → Digest} {tokens : TokenSet} {client : Nat}
    {name : String} {lines : List (List Char)} {c : Clientele}
    (guards : Guards hash tokens client name lines c) (origin : Origin) {text : List Char}
    (guest : lines.any (tokens.admits hash) = false) (refused : tokens.admits hash text = false) :
    c.step (.line client origin text) =
      (⟨c.service.warned origin name (guestWarning text), c.sessions⟩,
        some (client, tokens.guestAnswer hash text)) := by
  have known := guards.session
  rw [guest] at known
  have unknown : (Session.mk name false).isAuthenticated = false := rfl
  obtain ⟨answer, session, service⟩ := Service.handle_guest guards.gate origin unknown text
  have unchanged : c.sessions.set client ⟨name, false⟩ = c.sessions := by
    obtain ⟨among, there⟩ := List.getElem?_eq_some_iff.1 known
    rw [← there, List.set_getElem_self]
  rw [refused] at session
  simp only [Clientele.step, known, answer, session, service refused, unchanged]

namespace Gate

theorem isRequired_ofTokens (hash : String → Digest) (tokens : TokenSet) :
    (ofTokens hash tokens).isRequired = tokens.isRequired := by
  rw [ofTokens]
  split
  next required => rfl
  next free => exact (eq_false_of_ne_true free).symm

/-- Where nobody has to show a token, the gate is the open one. -/
theorem ofTokens_eq_everyone {hash : String → Digest} {tokens : TokenSet} (free : ¬tokens.isRequired) :
    ofTokens hash tokens = everyone :=
  if_neg free

/-- Whoever comes to a service with this gate, and whatever happens then, is refused every request
but those to show a token and to leave, as long as none of its lines has shown an accepted token. A
refused line changes nothing but which records wait to be written to the logs. -/
def KeepsOut (gate : Gate) : Prop :=
  ∀ (c : Clientele) (name : String) (happenings : List Happening), c.service.gate = gate →
    let client := c.sessions.length
    let reached := ((c.step (.arrival name)).1.run happenings).1
    (∀ said ∈ Happening.linesOf client happenings, ∀ token,
      Request.read said = .ok (.auth token) → gate.accepts token = false) →
    ∀ (origin : Origin) (text : List Char) (request : Request), Request.read text = .ok request →
      (∀ token, request ≠ .auth token) → request ≠ .quit →
        let (after, answer) := reached.step (.line client origin text)
        answer = some (client, .error "authentication required") ∧
          after.sessions = reached.sessions ∧ Service.OnlyLogged reached.service after.service

/-- A gate with tokens asks every client for one. -/
theorem keepsOut_of_isRequired {gate : Gate} (required : gate.isRequired) : gate.KeepsOut := by
  intro c name happenings sameGate client reached unshown origin text request parsed noToken noLeave
  cases gate with
  | everyone => cases required
  | holders hash tokens =>
    have closed : ∀ said ∈ Happening.linesOf client happenings, tokens.admits hash said = false := by
      intro said member
      rw [TokenSet.admits]
      split
      next token shown => exact unshown said member token shown
      next => rfl
    have guards : Clientele.Guards hash tokens client name (Happening.linesOf client happenings)
        reached :=
      (Clientele.guards_arrival required sameGate name).run happenings
    have guest : (Happening.linesOf client happenings).any (tokens.admits hash) = false := by
      simpa using closed
    have refused : tokens.admits hash text = false ∧
        tokens.guestAnswer hash text = .error "authentication required" := by
      rw [TokenSet.admits, TokenSet.guestAnswer, parsed]
      cases request with
      | auth token => exact absurd rfl (noToken token)
      | quit => exact absurd rfl noLeave
      | _ => exact ⟨rfl, rfl⟩
    rw [Clientele.step_of_guest guards origin guest refused.1, refused.2]
    exact ⟨rfl, rfl, Service.onlyLogged_warned _ origin name _⟩

end Gate

namespace ServingOptions

/-- The token file that the options name lists a digest. -/
def FileListsDigest (o : ServingOptions) (fs : FileSystem) : Prop :=
  ∃ path text, o.tokensFile = some path ∧ fs.readText path = .ok text ∧ ListsDigest text

/-- No empty token is read from the settings, so each that is read counts. -/
theorem isRequired_ofTokens_tokens (s : Settings) (hash : String → Digest) :
    (TokenSet.ofTokens hash (ofSettings s).tokens).isRequired ↔ (ofSettings s).tokens ≠ [] := by
  have filled : ∀ token ∈ (ofSettings s).tokens, token ≠ "" := by
    intro token listed
    rw [ofSettings] at listed
    cases value : s.get? group "tokens" with
    | none => simp [value] at listed
    | some value =>
      simp only [value, Option.map_some, Option.getD_some, splitTokens, List.mem_map,
        List.mem_filter, decide_eq_true_eq] at listed
      obtain ⟨piece, ⟨-, filled⟩, rfl⟩ := listed
      rwa [Ne, String.ofList_eq_empty_iff]
  rw [TokenSet.isRequired_ofTokens]
  constructor
  · rintro ⟨token, listed, -⟩
    exact List.ne_nil_of_mem listed
  · intro nonempty
    obtain ⟨token, listed⟩ := List.exists_mem_of_ne_nil _ nonempty
    exact ⟨token, listed, filled token listed⟩

/-- What the gate comes to: only an unreadable token file is an error, and a token is required if
one is listed in the settings or in that file. -/
theorem gate_cases (s : Settings) (hash : String → Digest) (fs : FileSystem) :
    (∃ path e, (ofSettings s).tokensFile = some path ∧ fs.readText path = .error e ∧
      (ofSettings s).gate hash fs = .error e) ∨
    ∃ tokens skipped, (ofSettings s).gate hash fs = .ok (.ofTokens hash tokens, skipped) ∧
      (∀ path, (ofSettings s).tokensFile = some path → ∃ text, fs.readText path = .ok text) ∧
      (tokens.isRequired ↔ (ofSettings s).tokens ≠ [] ∨ (ofSettings s).FileListsDigest fs) := by
  have listed := isRequired_ofTokens_tokens s hash
  rw [gate]
  cases file : (ofSettings s).tokensFile with
  | none =>
    refine .inr ⟨_, _, rfl, by rintro path ⟨⟩, ?_⟩
    simp [listed, FileListsDigest, file]
  | some path =>
    rcases (TokenSet.ofTokens hash (ofSettings s).tokens).load_cases fs path with
      ⟨e, unread, loading⟩ | ⟨text, loaded, skipped, readable, loading, required⟩
    · refine .inl ⟨path, e, rfl, unread, ?_⟩
      dsimp only
      rw [loading]
    · refine .inr ⟨loaded, skipped, ?_, ?_, ?_⟩
      · dsimp only
        rw [loading]
      · rintro other named
        cases named
        exact ⟨text, readable⟩
      · rw [required, listed]
        simp [FileListsDigest, file, readable]

/-- The gate that the settings lead to is an error only for a token file that cannot be read. Else
it asks for a token, and keeps out whoever has not shown an accepted one, as soon as the settings
list a token or the token file lists a digest; and where neither does, it is open. What the digests
are computed by does not matter. -/
theorem gate_guards (s : Settings) (hash : String → Digest) (fs : FileSystem) :
    let o := ofSettings s
    match o.gate hash fs with
    | .error e => ∃ path, o.tokensFile = some path ∧ fs.readText path = .error e
    | .ok (gate, _) =>
      (∀ path, o.tokensFile = some path → ∃ text, fs.readText path = .ok text) ∧
        (o.tokens ≠ [] ∨ o.FileListsDigest fs → gate.isRequired ∧ gate.KeepsOut) ∧
        (o.tokens = [] ∧ ¬o.FileListsDigest fs → gate = .everyone) := by
  intro o
  rcases gate_cases s hash fs with
    ⟨path, e, named, unread, gate⟩ | ⟨tokens, skipped, gate, readable, required⟩
  · rw [gate]
    exact ⟨path, named, unread⟩
  · rw [gate]
    refine ⟨readable, ?_, ?_⟩
    · intro configured
      have asked : (Gate.ofTokens hash tokens).isRequired = true := by
        rw [Gate.isRequired_ofTokens, required]
        exact configured
      exact ⟨asked, Gate.keepsOut_of_isRequired asked⟩
    · rintro ⟨noToken, noDigest⟩
      refine Gate.ofTokens_eq_everyone fun asked => ?_
      rcases required.1 asked with token | digest
      · exact token noToken
      · exact noDigest digest

/-- One token in a list with blanks and a comma too many, and no token file. -/
theorem guards_for_listed_token :
    let s := ((Settings.read "[Server]\ntokens = a ,,\n").toOption).getD .empty
    (ofSettings s).tokens = ["a"] ∧
      ∃ gate, (ofSettings s).gate tokenDigest .empty = .ok (gate, []) ∧ gate.isRequired ∧
        gate.KeepsOut := by
  intro s
  have token : (ofSettings s).tokens = ["a"] := by decide +kernel
  have noFile : (ofSettings s).tokensFile = none := by decide +kernel
  have reached : (ofSettings s).gate tokenDigest .empty =
      .ok (.ofTokens tokenDigest (.ofTokens tokenDigest (ofSettings s).tokens), []) := by
    rw [gate, noFile]
  have guards := gate_guards s tokenDigest .empty
  dsimp only at guards
  rw [reached] at guards
  exact ⟨token, _, reached, guards.2.1 (.inl (token ▸ List.cons_ne_nil _ _))⟩

/-- A token file of comments is named and can be read, and the service is open. -/
theorem open_despite_file_of_comments :
    let s := ((Settings.read "[Server]\ntokens_file = t.tokens\n").toOption).getD .empty
    let fs : FileSystem := ⟨[(["t.tokens"], .file 0 "# none\n".toUTF8)], [], 1, false⟩
    let service : Service :=
      ⟨.create 4 (.ofHistory (.ofFiles fs) (.empty 4 4) ()), .inMemory, .everyone, false⟩
    let session := service.openSession "conn-1"
    (ofSettings s).tokensFile = some ⟨"t.tokens"⟩ ∧ fs.readText ⟨"t.tokens"⟩ = .ok "# none\n" ∧
      (ofSettings s).gate tokenDigest fs = .ok (.everyone, []) ∧ Gate.everyone.isRequired = false ∧
        (service.handle ⟨⟨0⟩, 1⟩ session "SHUTDOWN".toList).1.shutdownRequested := by
  intro s fs service session
  refine ⟨by decide +kernel, by decide +kernel, rfl, rfl, ?_⟩
  decide +kernel

end ServingOptions

end KeyValueService
