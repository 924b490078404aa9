import KeyValueService.Proofs.TokenListing

/-!
# Logging in with the tokens of the settings

The settings cut their list of tokens at commas and trim the pieces, and a client shows a token as the one
word behind the verb of a line. A token of the settings with a blank in it is therefore accepted by the
gate, but no line can show it: the line is refused for what stands behind the first blank. All other
tokens of the settings let a client in. Main statement: `ServingOptions.listed_token_opens_iff`.
-/

namespace KeyValueService

open Bytes Text

namespace Request

/-- A text that neither begins nor ends with a blank. -/
structure Trimmed (s : List Char) : Prop where
  nonempty : s ≠ []
  first : ∀ c, s.head? = some c → isBlank c = false
  last : ∀ c, s.getLast? = some c → isBlank c = false

/-- Trimming leaves nothing, or a text without blanks at its ends. -/
theorem trimmed_trimChars {s : List Char} (nonempty : trimChars s ≠ []) : Trimmed (trimChars s) := by
  obtain ⟨ending, whole, -, stops⟩ := dropEndWhile_exact isBlank (s.dropWhile isBlank)
  rw [← stripWhile, ← trimChars] at whole stops
  refine ⟨nonempty, fun c first => head?_dropWhile (s := s) ?_, stops⟩
  rw [whole, List.head?_append_of_ne_nil _ nonempty]
  exact first

/-- A text without blanks at its ends is a word, or it starts with one and has more than blanks behind
it. -/
theorem Trimmed.cases {s : List Char} (trimmed : Trimmed s) :
    Solid s ∨ ∃ word rest, StartsWith word rest s ∧ trimChars rest ≠ [] := by
  have begins : ∀ {indent : List Char} {more}, s = indent ++ more → Blanks indent → indent = [] := by
    intro indent more whole blanks
    cases indent with
    | nil => rfl
    | cons c indent =>
      have solid := trimmed.first c (by rw [whole]; rfl)
      rw [blanks c List.mem_cons_self] at solid
      cases solid
  rcases blanks_or_startsWith s with blanks | ⟨word, rest, starts⟩
  · exact absurd (begins (List.append_nil s).symm blanks) trimmed.nonempty
  · cases starts with
    | @alone indent indented solid =>
      rw [begins rfl indented]
      exact .inl solid
    | @followed indent rest blank indented solid separates =>
      refine .inr ⟨word, rest, .followed indented solid separates, fun nothing => ?_⟩
      rw [trimChars_eq_nil_iff] at nothing
      have blanks : Blanks (blank :: rest) := List.forall_mem_cons.2 ⟨separates, nothing⟩
      obtain ⟨c, last⟩ := Option.ne_none_iff_exists'.1
        (mt List.getLast?_eq_none_iff.1 (List.cons_ne_nil blank rest))
      have solidEnd := trimmed.last c (by
        rw [List.getLast?_append_of_ne_nil _ (by simp), List.getLast?_append_of_ne_nil _ (by simp), last])
      rw [blanks c (List.mem_of_getLast? last)] at solidEnd
      cases solidEnd

/-- A line of a verb and a text is read by what the verb makes of the text. -/
theorem read_behind_verb (verb : Verb) {text : List Char} (trimmed : Trimmed text) :
    read (verb.name.toList ++ ' ' :: text) = readArguments text verb := by
  have uncut : dropEndWhile isLineEnd (verb.name.toList ++ ' ' :: text) =
      verb.name.toList ++ ' ' :: text := by
    have stops : ∀ c, (verb.name.toList ++ ' ' :: text).getLast? = some c → isLineEnd c = false := by
      intro c last
      rw [List.getLast?_append_of_ne_nil _ (List.cons_ne_nil ' ' text),
        List.getLast?_cons_of_ne_nil trimmed.nonempty] at last
      exact not_isLineEnd_of_solid (trimmed.last c last)
    have cut := @dropEndWhile_append isLineEnd _ [] stops (fun c member => nomatch member)
    rwa [List.append_nil] at cut
  have starts : StartsWith verb.name.toList text (verb.name.toList ++ ' ' :: text) :=
    .followed blanks_nil (solid_name verb) (by decide)
  rw [read, uncut, nextWord_of_startsWith starts]
  simp only [(solid_name verb).1, if_false, read?_name]

/-- Behind a word and a blank nothing more may stand. -/
theorem readWord_of_more {verb : Verb} (argument : Argument) {word rest text : List Char}
    (starts : StartsWith word rest text) (more : trimChars rest ≠ []) :
    readWord verb argument text =
      .error (.invalid verb (.trailing (String.ofList (trimChars rest)))) := by
  have refused : nothingMore verb rest =
      .error (.invalid verb (.trailing (String.ofList (trimChars rest)))) := by
    rw [nothingMore]
    split
    next nothing => exact absurd nothing more
    next => rfl
  rw [readWord, nextWord_of_startsWith starts]
  simp only [needed, if_neg starts.solid.1, refused]
  rfl

end Request

namespace TokenSet

/-- The digests of tokens given in plain, empty ones left out. -/
theorem contains_ofTokens (hash : String → Digest) (listed : List String) (digest : Digest) :
    (ofTokens hash listed).contains digest = true ↔
      ∃ token ∈ listed, token ≠ "" ∧ hash token = digest := by
  have plain : ofTokens hash listed = (listed.map TokenSupply.plain).foldl (supply hash) empty := by
    rw [ofTokens, List.foldl_map]
    rfl
  rw [plain, contains_supplies]
  simp [contains, empty, TokenSupply.Has]

/-- A set with a digest asks for a token. -/
theorem isRequired_of_contains {tokens : TokenSet} {digest : Digest}
    (contains : tokens.contains digest = true) : tokens.isRequired = true := by
  rw [isRequired, Bool.not_eq_true', List.isEmpty_eq_false_iff]
  exact List.ne_nil_of_mem (of_decide_eq_true contains)

end TokenSet

namespace ServingOptions

open Request

/-- A token of the settings has no blanks at its ends. -/
theorem trimmed_of_mem_tokens {s : Settings} {token : String} (listed : token ∈ (ofSettings s).tokens) :
    Trimmed token.toList := by
  rw [ofSettings] at listed
  cases value : s.get? group "tokens" with
  | none => simp [value] at listed
  | some value =>
    simp only [value, Option.map_some, Option.getD_some, splitTokens, List.mem_map, List.mem_filter,
      decide_eq_true_eq] at listed
    obtain ⟨piece, ⟨⟨raw, -, rfl⟩, filled⟩, rfl⟩ := listed
    rw [String.toList_ofList]
    exact trimmed_trimChars filled

/-- The gate that the settings lead to accepts each token of the settings. -/
theorem gate_accepts {s : Settings} {hash : String → Digest} {fs : FileSystem} {gate : Gate}
    {skipped : List MalformedDigest} (built : (ofSettings s).gate hash fs = .ok (gate, skipped))
    {token : String} (listed : token ∈ (ofSettings s).tokens) :
    ∃ tokens, gate = .holders hash tokens ∧ tokens.accepts hash token = true := by
  have filled : token ≠ "" := by
    have trimmed := (trimmed_of_mem_tokens listed).nonempty
    simpa using trimmed
  have known := (TokenSet.contains_ofTokens hash (ofSettings s).tokens (hash token)).2
    ⟨token, listed, filled, rfl⟩
  have holders : ∀ tokens : TokenSet, tokens.contains (hash token) = true →
      Gate.ofTokens hash tokens = .holders hash tokens :=
    fun tokens contains => if_pos (TokenSet.isRequired_of_contains contains)
  rw [ServingOptions.gate] at built
  cases file : (ofSettings s).tokensFile with
  | none =>
    rw [file] at built
    cases built
    exact ⟨_, holders _ known, known⟩
  | some path =>
    rw [file] at built
    dsimp only at built
    cases read : fs.readText path with
    | error e =>
      rw [TokenSet.load, read] at built
      cases built
    | ok text =>
      obtain ⟨loaded, loading, digests⟩ :=
        @TokenSet.load_exact (.ofTokens hash (ofSettings s).tokens) fs path text read
      rw [loading] at built
      cases built
      have kept := (digests (hash token)).2 (.inl known)
      exact ⟨_, holders _ kept, kept⟩

/-- A service has the gate that some settings lead to, and a client has just come to it, which is to show a
token. It shows a token of the settings in the line that is made for it.

* If there is no blank in the token, it is let in, and if there is one, it is not.
* If there is one, the answer is an error about what stands behind the first word of the token, the client
  remains unknown, and there is no other line either that shows this token.

Proof: the gate accepts every token of the settings. Without blanks at its ends the token is a word, which
the line shows, or it starts with a word and has more behind it, which the line must not have. -/
theorem listed_token_opens_iff (s : Settings) {hash : String → Digest} (fs : FileSystem) {gate : Gate}
    {skipped : List MalformedDigest} (built : (ofSettings s).gate hash fs = .ok (gate, skipped))
    {token : String} (listed : token ∈ (ofSettings s).tokens) (service : Service)
    (guarded : service.gate = gate) (origin : Origin) (name : String) :
    let session := service.openSession name
    let handled := service.handle origin session ("AUTH " ++ token).toList
    session.isAuthenticated = false ∧
      (handled.2.2 = .ok ∧ handled.2.1.isAuthenticated = true ↔
        ∀ c ∈ token.toList, isBlank c = false) ∧
      ((∃ c ∈ token.toList, isBlank c = true) →
        (∃ word rest, StartsWith word rest token.toList ∧ handled.2 = (session, .error
          ("AUTH: unexpected trailing input " ++ quoted (String.ofList (trimChars rest))))) ∧
        ∀ line, Request.read line ≠ .ok (.auth token)) := by
  intro session handled
  obtain ⟨tokens, holders, accepted⟩ := gate_accepts built listed
  have required : service.gate.isRequired = true := by
    rw [guarded, holders]
    exact TokenSet.isRequired_of_contains accepted
  have guest : session.isAuthenticated = false := congrArg not required
  have line : ("AUTH " ++ token).toList = Verb.auth.name.toList ++ ' ' :: token.toList := by
    simp [Verb.name]
  have trimmed := trimmed_of_mem_tokens listed
  have reading := read_behind_verb .auth trimmed
  rw [← line] at reading
  obtain ⟨answer, after, -⟩ :=
    Service.handle_guest (guarded.trans holders) origin guest ("AUTH " ++ token).toList
  rw [TokenSet.guestAnswer, reading] at answer
  rw [TokenSet.admits, reading] at after
  refine ⟨guest, ?_⟩
  rcases trimmed.cases with solid | ⟨word, rest, starts, more⟩
  · have shown : readArguments token.toList .auth = .ok (.auth token) := by
      have read : readWord .auth .token token.toList = .ok token :=
        readWord_iff.2 (blanks_around_iff.2
          ⟨[], [], blanks_nil, solid, blanks_nil, (List.append_nil token.toList).symm⟩)
      rw [readArguments, read]
      rfl
    rw [shown] at answer after
    dsimp only at answer after
    rw [if_pos accepted] at answer
    rw [accepted] at after
    refine ⟨iff_of_true ⟨answer, congrArg Session.isAuthenticated after⟩ solid.2, ?_⟩
    rintro ⟨c, member, blank⟩
    rw [solid.2 c member] at blank
    cases blank
  · have refused : readArguments token.toList .auth =
        .error (.invalid .auth (.trailing (String.ofList (trimChars rest)))) := by
      rw [readArguments, readWord_of_more .token starts more]
      rfl
    rw [refused] at answer after
    have unknown : ¬Solid token.toList := by
      intro solid
      have alone : nextWord token.toList = (token.toList, []) :=
        nextWord_of_startsWith (.alone blanks_nil solid)
      rw [nextWord_of_startsWith starts] at alone
      obtain ⟨-, rfl⟩ := Prod.mk.inj alone
      exact more rfl
    refine ⟨iff_of_false (fun admitted => ?_) (fun solid => unknown ⟨trimmed.nonempty, solid⟩),
      fun _ => ⟨⟨word, rest, starts, ?_⟩, fun other read => ?_⟩⟩
    · rw [after] at admitted
      cases admitted.2
    · refine Prod.ext (after.trans ?_) answer
      rw [← guest]
    · exact unknown ((solid_toList_iff token).2 (wellFormed_of_read read))

/-- Of the two tokens of these settings one is a word. -/
theorem word_of_two_opens :
    let s := ((Settings.read "[Server]\ntokens = my token, other\n").toOption).getD .empty
    (ofSettings s).tokens = ["my token", "other"] ∧
      ∃ gate, (ofSettings s).gate tokenDigest .empty = .ok (gate, []) ∧
        let service : Service :=
          ⟨.create 4 (.ofHistory (.ofFiles .empty) (.empty 4 4) ()), .inMemory, gate, false⟩
        let session := service.openSession "conn-1"
        let handled := service.handle ⟨⟨0⟩, 1⟩ session ("AUTH " ++ "other").toList
        (handled.2.2 = .ok ∧ handled.2.1.isAuthenticated = true) ∧
          ∀ line, Request.read line ≠ .ok (.auth "my token") := by
  intro s
  obtain ⟨tokens, noFile⟩ :
      (ofSettings s).tokens = ["my token", "other"] ∧ (ofSettings s).tokensFile = none := by
    decide +kernel
  have built : ∃ gate, (ofSettings s).gate tokenDigest .empty = .ok (gate, []) := by
    rw [ServingOptions.gate, noFile]
    exact ⟨_, rfl⟩
  obtain ⟨gate, built⟩ := built
  refine ⟨tokens, gate, built, ?_⟩
  intro service session handled
  have listed (token : String) (among : token ∈ ["my token", "other"]) :
      token ∈ (ofSettings s).tokens := by
    rwa [tokens]
  have solid : "other".toList.all (fun c => !isBlank c) = true := by decide
  have opens := (listed_token_opens_iff s .empty built (listed "other" (by decide)) service rfl
    ⟨⟨0⟩, 1⟩ "conn-1").2.1
  have stays := (listed_token_opens_iff s .empty built (listed "my token" (by decide)) service rfl
    ⟨⟨0⟩, 1⟩ "conn-1").2.2 ⟨' ', by decide, by decide⟩
  exact ⟨opens.2 fun c member => by simpa using List.all_eq_true.1 solid c member, stays.2⟩

/-- With a blank in the only token of the settings, every client is asked for a token, and the line for this
one is refused, although the gate accepts it. -/
theorem token_with_blank_refused :
    let s := ((Settings.read "[Server]\ntokens = my token\n").toOption).getD .empty
    (ofSettings s).tokens = ["my token"] ∧
      ∃ gate, (ofSettings s).gate tokenDigest .empty = .ok (gate, []) ∧
        gate.accepts "my token" = true ∧
        let service : Service :=
          ⟨.create 4 (.ofHistory (.ofFiles .empty) (.empty 4 4) ()), .inMemory, gate, false⟩
        let session := service.openSession "conn-1"
        session.isAuthenticated = false ∧
          (service.handle ⟨⟨0⟩, 1⟩ session "AUTH my token".toList).2 =
            (session, .error "AUTH: unexpected trailing input \"token\"") := by
  intro s
  obtain ⟨tokens, noFile, reading, message⟩ :
      (ofSettings s).tokens = ["my token"] ∧ (ofSettings s).tokensFile = none ∧
        Request.read "AUTH my token".toList = .error (.invalid .auth (.trailing "token")) ∧
          (RequestError.invalid .auth (.trailing "token")).message =
            "AUTH: unexpected trailing input \"token\"" := by
    decide +kernel
  have built : ∃ gate, (ofSettings s).gate tokenDigest .empty = .ok (gate, []) := by
    rw [ServingOptions.gate, noFile]
    exact ⟨_, rfl⟩
  obtain ⟨gate, built⟩ := built
  have listed : "my token" ∈ (ofSettings s).tokens := by
    rw [tokens]
    exact List.mem_singleton_self _
  obtain ⟨holders, rfl, accepted⟩ := gate_accepts built listed
  refine ⟨tokens, _, built, accepted, ?_⟩
  intro service session
  refine ⟨congrArg not (TokenSet.isRequired_of_contains accepted), ?_⟩
  rw [Service.handle, reading]
  dsimp only
  rw [message]

end ServingOptions

end KeyValueService
