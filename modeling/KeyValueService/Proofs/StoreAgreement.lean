import KeyValueService.Proofs.ImageSaving

/-!
# A store agrees with its file

Calls on a store that is kept in a file, on a disk that may refuse to save what they change. All
answers are those of a finite map, in which a call that fails changes nothing. After each call
the file, if opened, makes the very store that is in memory; and once a change has been saved,
the bytes of the file are the image of that store, whatever calls have come before.
-/

namespace KeyValueService

namespace Store

open FileSystem KeyValueService.Path

/-- What a store is asked. -/
inductive Call
  | put (key value : String)
  | update (key value : String)
  | remove (key : String)
  | get (key : String)
  | reopen
  deriving DecidableEq, Repr

/-- What a store answers: that a value was stored, whether there was one to change, the value of a
key, that the store was opened again, or why the call failed. -/
inductive Answer
  | stored
  | changed (present : Bool)
  | found (value : Option String)
  | reopened
  | failed (cause : StoreError)
  deriving DecidableEq, Repr

/-- Whether an answer tells of a change that has been saved. -/
def Answer.isSaved : Answer → Bool
  | .stored => true
  | .changed present => present
  | _ => false

/-- The answer to a call that may fail. -/
def answered {α : Type} (success : α → Answer) (outcome : FileSystem × Store × Except StoreError α) :
    FileSystem × Store × Answer :=
  match outcome with
  | (fs, store, .ok result) => (fs, store, success result)
  | (fs, store, .error cause) => (fs, store, .failed cause)

/-- Carries a call out on a disk that may refuse one of the steps that save it. -/
def Call.run (refusal : Option Refusal) (fs : FileSystem) (store : Store) :
    Call → FileSystem × Store × Answer
  | .put key value => answered (fun _ => .stored) (store.putBy (saveUnder refusal) fs key value)
  | .update key value => answered .changed (store.updateBy (saveUnder refusal) fs key value)
  | .remove key => answered .changed (store.removeBy (saveUnder refusal) fs key)
  | .get key => (fs, store, .found (store.get? key))
  | .reopen =>
    match openAt? fs store.path with
    | .ok (reopened, _) => (fs, reopened, .reopened)
    | .error cause => (fs, store, .failed cause)

/-- Carries calls out one after the other, each with what the disk refuses of it. -/
def runCalls (fs : FileSystem) (store : Store) :
    List (Call × Option Refusal) → FileSystem × Store × List Answer
  | [] => (fs, store, [])
  | (call, refusal) :: rest =>
    let (fs, store, answer) := call.run refusal fs store
    let (fs, store, answers) := runCalls fs store rest
    (fs, store, answer :: answers)

/-- The map with another value for a key, or none. -/
def assign (map : String → Option String) (key : String) (value : Option String) :
    String → Option String :=
  fun other => if other = key then value else map other

/-- What a map becomes by a call, and the answer it gives. -/
def Call.meaning (map : String → Option String) : Call → (String → Option String) × Answer
  | .put key value => (assign map key (some value), .stored)
  | .update key value =>
    if (map key).isSome then (assign map key (some value), .changed true) else (map, .changed false)
  | .remove key =>
    if (map key).isSome then (assign map key none, .changed true) else (map, .changed false)
  | .get key => (map, .found (map key))
  | .reopen => (map, .reopened)

/-- Whether a call has something to save. -/
def Call.Saves (map : String → Option String) : Call → Prop
  | .put _ _ => True
  | .update key _ => (map key).isSome
  | .remove key => (map key).isSome
  | .get _ => False
  | .reopen => False

/-- Answers that a map gives to calls, one after the other, up to what the map is in the end. A call
that has something to save may fail; the map then stays as it is. -/
inductive Follows :
    (String → Option String) → List Call → List Answer → (String → Option String) → Prop
  | nil (map : String → Option String) : Follows map [] [] map
  | answered {map final : String → Option String} {call : Call} {calls : List Call}
      {answers : List Answer} (more : Follows (call.meaning map).1 calls answers final) :
      Follows map (call :: calls) ((call.meaning map).2 :: answers) final
  | failed {map final : String → Option String} {call : Call} {calls : List Call}
      {answers : List Answer} (saves : call.Saves map) (cause : StoreError)
      (more : Follows map calls answers final) :
      Follows map (call :: calls) (.failed cause :: answers) final

theorem find?_insert_eq (table : Table String) (key value : String) :
    (table.insert key value).find? = assign table.find? key (some value) := by
  funext other
  exact table.find?_insert key other value

theorem find?_erase_eq (table : Table String) (key : String) :
    (table.erase key).find? = assign table.find? key none := by
  funext other
  exact table.find?_erase key other

/-- A call that has something to save commits the table of the map that it means, can undo that, and
gives the answer of the map once that is saved. -/
theorem Call.run_of_saves (refusal : Option Refusal) (fs : FileSystem) {store : Store} {call : Call}
    (saves : call.Saves store.table.find?) :
    ∃ (table : Table String) (undo : Table String → Table String),
      table.find? = (call.meaning store.table.find?).1 ∧ undo table = store.table ∧
      (call.meaning store.table.find?).2.isSaved = true ∧
      call.run refusal fs store =
        answered (fun _ => (call.meaning store.table.find?).2)
          (store.commitBy (saveUnder refusal) fs table undo) := by
  cases call with
  | put key value =>
    exact ⟨_, _, find?_insert_eq store.table key value, undoPut_insert store.table key value,
      rfl, rfl⟩
  | update key value =>
    obtain ⟨old, had⟩ := Option.isSome_iff_exists.1 saves
    simp only [Call.meaning, Call.run, updateBy, had]
    refine ⟨_, (·.insert key old), find?_insert_eq store.table key value,
      Table.insert_insert_of_find? had value, rfl, ?_⟩
    rcases store.commitBy (saveUnder refusal) fs _ _ with ⟨fs', store', cause | ⟨⟩⟩ <;> rfl
  | remove key =>
    obtain ⟨old, had⟩ := Option.isSome_iff_exists.1 saves
    simp only [Call.meaning, Call.run, removeBy, had]
    refine ⟨_, (·.insert key old), find?_erase_eq store.table key,
      Table.insert_erase_of_find? had, rfl, ?_⟩
    rcases store.commitBy (saveUnder refusal) fs _ _ with ⟨fs', store', cause | ⟨⟩⟩ <;> rfl
  | get key => exact saves.elim
  | reopen => exact saves.elim

/-- A disk that refuses nothing saves as a store does by itself. -/
theorem saveUnder_none : saveUnder none = save := rfl

/-- What there is at the path of a store is what the store has in memory. -/
structure Agrees (path : Path) (fs : FileSystem) (store : Store) (shown : Option ByteArray) :
    Prop where
  sound : fs.Sound
  own : store.path = some path
  shows : Shows fs path shown
  opens : ∃ reports, openAt fs path = .ok (store, reports)

/-- Opening a path depends only on what there is at it. -/
theorem openAt_congr {fs fs' : FileSystem} {path : Path} {shown : Option ByteArray}
    (shows : Shows fs path shown) (shows' : Shows fs' path shown) :
    openAt fs' path = openAt fs path := by
  have same : fs'.readText path = fs.readText path := by
    cases shown with
    | none =>
      rw [readText, readText, readBytes, readBytes, find_of_missing shows, find_of_missing shows']
    | some content =>
      rw [Shows] at shows shows'
      rw [readText, readText, shows, shows']
  rw [openAt, openAt, same]

section Agreement

variable {path : Path} (apart : path.extension ≠ draftExtension)

include apart

/-- A table that is taken over is the one in the file; one that is not leaves both as they were. -/
theorem commitBy_exact {fs fs' : FileSystem} {store store' : Store} {shown : Option ByteArray}
    (agrees : Agrees path fs store shown) (refusal : Option Refusal) {table : Table String}
    {undo : Table String → Table String} (restores : undo table = store.table)
    {result : Except StoreError Unit}
    (committed : store.commitBy (saveUnder refusal) fs table undo = (fs', store', result)) :
    match result with
    | .ok () =>
      store' = { store with table } ∧ Agrees path fs' store' (some (image table).toUTF8)
    | .error _ => store' = store ∧ Agrees path fs' store shown := by
  rw [commitBy_of_undo restores] at committed
  obtain ⟨own, before⟩ := store
  obtain rfl : own = some path := agrees.own
  dsimp only at committed
  rcases saved : saveUnder refusal fs (some path) table with ⟨fs₁, e | ⟨⟩⟩
  · rw [saved] at committed
    obtain ⟨rfl, rfl, rfl⟩ := Prod.mk.inj committed |>.imp_right Prod.mk.inj
    obtain ⟨sound, shows⟩ := saveUnder_exact apart refusal agrees.sound agrees.shows saved
    refine ⟨rfl, sound, rfl, shows, ?_⟩
    rw [openAt_congr agrees.shows shows]
    exact agrees.opens
  · rw [saved] at committed
    obtain ⟨rfl, rfl, rfl⟩ := Prod.mk.inj committed |>.imp_right Prod.mk.inj
    obtain ⟨sound, there⟩ := saveUnder_exact apart refusal agrees.sound agrees.shows saved
    exact ⟨rfl, sound, rfl, there, [], openAt_image there⟩

/-- What a call comes to: a change that has been saved is in the file, and any other answer goes
with a store and a file as they were. The answer is that of a map, or a failure to save. -/
structure Settles (path : Path) (store : Store) (shown : Option ByteArray) (call : Call)
    (fs' : FileSystem) (store' : Store) (answer : Answer) (shown' : Option ByteArray) : Prop where
  agrees : Agrees path fs' store' shown'
  saved : answer.isSaved = true → shown' = some (image store'.table).toUTF8
  unsaved : answer.isSaved = false → store' = store ∧ shown' = shown
  meaning : answer = (call.meaning store.table.find?).2 ∧
      store'.table.find? = (call.meaning store.table.find?).1 ∨
    call.Saves store.table.find? ∧ ∃ cause, answer = .failed cause

/-- A change of the table by a call that has something to save. -/
theorem settles_of_commit {fs fs' : FileSystem} {store store' : Store} {shown : Option ByteArray}
    (agrees : Agrees path fs store shown) (refusal : Option Refusal) {call : Call}
    {table : Table String} {undo : Table String → Table String} (restores : undo table = store.table)
    {result : Except StoreError Unit}
    (committed : store.commitBy (saveUnder refusal) fs table undo = (fs', store', result))
    (saves : call.Saves store.table.find?)
    (changes : (call.meaning store.table.find?).1 = table.find?)
    (succeeds : (call.meaning store.table.find?).2.isSaved = true) {answer : Answer}
    (answers : answer = match result with
      | .ok () => (call.meaning store.table.find?).2
      | .error cause => .failed cause) :
    ∃ shown', Settles path store shown call fs' store' answer shown' := by
  have outcome := commitBy_exact apart agrees refusal restores committed
  subst answers
  rcases result with cause | ⟨⟩
  · obtain ⟨rfl, kept⟩ := outcome
    refine ⟨shown, kept, ?_, ?_, .inr ⟨saves, cause, rfl⟩⟩
    · intro saved
      cases saved
    · intro unsaved
      exact ⟨rfl, rfl⟩
  · obtain ⟨rfl, agrees'⟩ := outcome
    refine ⟨_, agrees', ?_, ?_, .inl ⟨rfl, changes.symm⟩⟩
    · intro saved
      rfl
    · intro unsaved
      rw [succeeds] at unsaved
      cases unsaved

omit apart in
/-- A call that has nothing to save leaves the store and the file as they are. -/
theorem settles_of_unchanged {fs : FileSystem} {store : Store} {shown : Option ByteArray}
    (agrees : Agrees path fs store shown) {call : Call} {answer : Answer}
    (means : call.meaning store.table.find? = (store.table.find?, answer))
    (unsaved : answer.isSaved = false) : Settles path store shown call fs store answer shown where
  agrees := agrees
  saved saved := by
    rw [unsaved] at saved
    cases saved
  unsaved _ := ⟨rfl, rfl⟩
  meaning := by
    rw [means]
    exact .inl ⟨rfl, rfl⟩

/-- Every call settles, whatever the disk refuses of it. -/
theorem run_settles {fs fs' : FileSystem} {store store' : Store} {shown : Option ByteArray}
    (agrees : Agrees path fs store shown) (refusal : Option Refusal) {call : Call} {answer : Answer}
    (ran : call.run refusal fs store = (fs', store', answer)) :
    ∃ shown', Settles path store shown call fs' store' answer shown' := by
  by_cases saves : call.Saves store.table.find?
  · obtain ⟨table, undo, changes, restores, succeeds, runs⟩ := Call.run_of_saves refusal fs saves
    rw [runs] at ran
    rcases committed : store.commitBy (saveUnder refusal) fs table undo with
      ⟨fs₁, store₁, cause | ⟨⟩⟩
    · rw [committed] at ran
      obtain ⟨rfl, rfl, rfl⟩ := Prod.mk.inj ran |>.imp_right Prod.mk.inj
      exact settles_of_commit apart agrees refusal restores committed saves changes.symm succeeds rfl
    · rw [committed] at ran
      obtain ⟨rfl, rfl, rfl⟩ := Prod.mk.inj ran |>.imp_right Prod.mk.inj
      exact settles_of_commit apart agrees refusal restores committed saves changes.symm succeeds rfl
  cases call with
  | put key value => exact absurd trivial saves
  | update key value =>
    have absent : store.table.find? key = none := Option.not_isSome_iff_eq_none.1 saves
    simp only [Call.run, updateBy, absent] at ran
    obtain ⟨rfl, rfl, rfl⟩ := Prod.mk.inj ran |>.imp_right Prod.mk.inj
    exact ⟨shown, settles_of_unchanged agrees (if_neg saves) rfl⟩
  | remove key =>
    have absent : store.table.find? key = none := Option.not_isSome_iff_eq_none.1 saves
    simp only [Call.run, removeBy, absent] at ran
    obtain ⟨rfl, rfl, rfl⟩ := Prod.mk.inj ran |>.imp_right Prod.mk.inj
    exact ⟨shown, settles_of_unchanged agrees (if_neg saves) rfl⟩
  | get key =>
    obtain ⟨rfl, rfl, rfl⟩ := Prod.mk.inj ran |>.imp_right Prod.mk.inj
    exact ⟨shown, settles_of_unchanged agrees rfl rfl⟩
  | reopen =>
    obtain ⟨reports, opened⟩ := agrees.opens
    simp only [Call.run, agrees.own, openAt?, opened] at ran
    obtain ⟨rfl, rfl, rfl⟩ := Prod.mk.inj ran |>.imp_right Prod.mk.inj
    exact ⟨shown, settles_of_unchanged agrees rfl rfl⟩

/-- A run answers as a map does. What is at the path afterwards is the image of the store, once a
change has been saved; before that neither has changed. -/
theorem runCalls_exact {calls : List (Call × Option Refusal)} {fs fs' : FileSystem}
    {store store' : Store} {shown : Option ByteArray} {answers : List Answer}
    (agrees : Agrees path fs store shown)
    (ran : runCalls fs store calls = (fs', store', answers)) :
    ∃ shown', Agrees path fs' store' shown' ∧
      Follows store.table.find? (calls.map Prod.fst) answers store'.table.find? ∧
      ((∃ answer ∈ answers, answer.isSaved = true) → shown' = some (image store'.table).toUTF8) ∧
      ((∀ answer ∈ answers, answer.isSaved = false) → store' = store ∧ shown' = shown) := by
  induction calls generalizing fs store shown answers with
  | nil =>
    obtain ⟨rfl, rfl, rfl⟩ := Prod.mk.inj ran |>.imp_right Prod.mk.inj
    refine ⟨shown, agrees, .nil _, ?_, ?_⟩
    · rintro ⟨answer, member, -⟩
      cases member
    · intro unsaved
      exact ⟨rfl, rfl⟩
  | cons call rest inductionHypothesis =>
    obtain ⟨call, refusal⟩ := call
    rcases first : call.run refusal fs store with ⟨fs₁, store₁, answer⟩
    rcases others : runCalls fs₁ store₁ rest with ⟨fs₂, store₂, more⟩
    simp only [runCalls, first, others] at ran
    obtain ⟨rfl, rfl, rfl⟩ := Prod.mk.inj ran |>.imp_right Prod.mk.inj
    obtain ⟨shown₁, settles⟩ := run_settles apart agrees refusal first
    obtain ⟨shown₂, agrees₂, follows, saved, unsaved⟩ :=
      inductionHypothesis settles.agrees others
    refine ⟨shown₂, agrees₂, ?_, ?_, ?_⟩
    · rcases settles.meaning with ⟨rfl, becomes⟩ | ⟨saves, cause, rfl⟩
      · rw [becomes] at follows
        exact .answered follows
      · obtain ⟨rfl, -⟩ := settles.unsaved rfl
        exact .failed saves cause follows
    · rintro ⟨tells, member, isSaved⟩
      by_cases later : ∃ answer ∈ more, answer.isSaved = true
      · exact saved later
      · have quiet : ∀ answer ∈ more, answer.isSaved = false := by
          intro answer member
          cases isSaved : answer.isSaved with
          | false => rfl
          | true => exact absurd ⟨answer, member, isSaved⟩ later
        obtain ⟨rfl, rfl⟩ := unsaved quiet
        rcases List.mem_cons.1 member with rfl | inRest
        · exact settles.saved isSaved
        · exact absurd ⟨tells, inRest, isSaved⟩ later
    · intro quiet
      obtain ⟨rfl, rfl⟩ := settles.unsaved (quiet answer List.mem_cons_self)
      exact unsaved fun other member => quiet other (List.mem_cons_of_mem _ member)

end Agreement

/-- A store and its file at the end of a run: the answers are those of a map, the file makes the store
that is in memory, and once a change has been saved its bytes are the image of any table with the
same values. -/
structure Matches (path : Path) (store : Store) (calls : List (Call × Option Refusal))
    (fs' : FileSystem) (store' : Store) (answers : List Answer) : Prop where
  follows : Follows store.table.find? (calls.map Prod.fst) answers store'.table.find?
  opens : ∃ reports, openAt fs' path = .ok (store', reports)
  bytes : (∃ answer ∈ answers, answer.isSaved = true) →
    ∀ table : Table String, table.find? = store'.table.find? →
      fs'.readBytes path = .ok (image table).toUTF8

/-- A store whose file holds a text, or is missing, can be opened, and after any calls, whatever the
disk has refused of them, it matches its file. There are no links. The file may not be named like a
draft, and it counts as missing only if no directory that is still to be made brings one to light.

Each call keeps the agreement of memory and file: a save either replaces the file as a whole by the
image of the new table, or fails and leaves it with the bytes it had. -/
theorem memory_matches_file {fs : FileSystem} {path : Path} (text : Option String) (sound : fs.Sound)
    (apart : path.extension ≠ draftExtension) (shows : Shows fs path (text.map String.toUTF8)) :
    ∃ store reports, openAt fs path = .ok (store, reports) ∧
      ∀ calls fs' store' answers, runCalls fs store calls = (fs', store', answers) →
        Matches path store calls fs' store' answers := by
  have opens : ∃ table reports, openAt fs path = .ok (⟨some path, table⟩, reports) := by
    cases text with
    | none =>
      refine ⟨.empty, [], ?_⟩
      rw [openAt, readText, readBytes, find_of_missing shows]
    | some text =>
      refine ⟨(readImage text).1, (readImage text).2.map (⟨·, path⟩), ?_⟩
      have there : fs.readBytes path = .ok text.toUTF8 := shows
      rw [openAt, readText, there]
      dsimp only
      rw [fromUTF8?_toUTF8]
  obtain ⟨table, reports, opened⟩ := opens
  refine ⟨_, reports, opened, ?_⟩
  intro calls fs' store' answers ran
  obtain ⟨shown', agrees, follows, saved, -⟩ :=
    runCalls_exact apart ⟨sound, rfl, shows, reports, opened⟩ ran
  refine ⟨follows, agrees.opens, ?_⟩
  intro changed table' same
  have equal : table' = store'.table := Table.ext_find? fun key => congrFun same key
  have there := agrees.shows
  rw [saved changed] at there
  rw [equal]
  exact there

/-- A store that is to be kept in a directory still to be made. -/
theorem unmade_store_matches :
    FileSystem.empty.Sound ∧ (⟨"data/keys.txt"⟩ : Path).extension ≠ draftExtension ∧
      Shows .empty ⟨"data/keys.txt"⟩ none ∧
      ∃ store reports, openAt .empty ⟨"data/keys.txt"⟩ = .ok (store, reports) ∧
        ∀ calls fs' store' answers, runCalls .empty store calls = (fs', store', answers) →
          Matches ⟨"data/keys.txt"⟩ store calls fs' store' answers := by
  have apart : (⟨"data/keys.txt"⟩ : Path).extension ≠ draftExtension := by decide
  have down : Downward (Path.parts "data/keys.txt".toList) :=
    ⟨by decide, by decide, "keys.txt", by decide, by decide⟩
  have missing : Shows .empty ⟨"data/keys.txt"⟩ none :=
    missing_of_downward sound_empty down rfl
  exact ⟨sound_empty, apart, missing, memory_matches_file none sound_empty apart missing⟩

/-- A file, and a directory where its draft would be. -/
def hindered : FileSystem where
  entries := [(["f"], .file 0 "a\t1\n".toUTF8), (["f.tmp"], .directory)]
  workingDirectory := []
  nextNumber := 1
  full := false

theorem entryAt?_hindered (location : Location) :
    hindered.entryAt? location =
      if location = [] then some .directory
      else if location = ["f"] then some (.file 0 "a\t1\n".toUTF8)
      else if location = ["f.tmp"] then some .directory
      else none := by
  cases location with
  | nil => rfl
  | cons name above => rw [if_neg (List.cons_ne_nil name above)]; rfl

/-- There is only one file. -/
theorem file_hindered {location : Location} {number : Nat} {content : ByteArray}
    (there : hindered.entryAt? location = some (.file number content)) :
    location = ["f"] ∧ number = 0 := by
  rw [entryAt?_hindered] at there
  by_cases top : location = []
  · rw [if_pos top] at there
    cases there
  by_cases file : location = ["f"]
  · rw [if_neg top, if_pos file] at there
    cases there
    exact ⟨file, rfl⟩
  by_cases directory : location = ["f.tmp"]
  · rw [if_neg top, if_neg file, if_pos directory] at there
    cases there
  rw [if_neg top, if_neg file, if_neg directory] at there
  cases there

theorem sound_hindered : hindered.Sound where
  workingDirectory := rfl
  above name location entry there := by
    rw [entryAt?_hindered] at there
    by_cases file : name :: location = ["f"]
    · obtain ⟨-, rfl⟩ := List.cons.inj file
      rfl
    by_cases directory : name :: location = ["f.tmp"]
    · obtain ⟨-, rfl⟩ := List.cons.inj directory
      rfl
    rw [if_neg (List.cons_ne_nil name location), if_neg file, if_neg directory] at there
    cases there
  fresh location number content there := by
    rw [(file_hindered there).2]
    decide
  distinct location other number content content' there there' := by
    rw [(file_hindered there).1, (file_hindered there').1]

/-- Behind a missing directory two dots lead nowhere, and the store is empty. Saving makes that
directory before it fails, and now they lead back to a file with an entry. -/
theorem not_matches_behind_dots :
    ¬ ∀ fs path store reports calls fs' store' answers, fs.Sound → path.extension ≠ draftExtension →
      openAt fs path = .ok (store, reports) → runCalls fs store calls = (fs', store', answers) →
      Matches path store calls fs' store' answers := by
  intro claim
  have opened : openAt hindered ⟨"x/../f"⟩ = .ok (⟨some ⟨"x/../f"⟩, .empty⟩, []) := by rfl
  have memory : (runCalls hindered ⟨some ⟨"x/../f"⟩, .empty⟩ [(.put "b" "2", none)]).2.1.get? "a" =
      none := by rfl
  have disk : (openAt (runCalls hindered ⟨some ⟨"x/../f"⟩, .empty⟩ [(.put "b" "2", none)]).1
      ⟨"x/../f"⟩).toOption.map (·.1.get? "a") = some (some "1") := by rfl
  rcases ran : runCalls hindered ⟨some ⟨"x/../f"⟩, .empty⟩ [(.put "b" "2", none)] with
    ⟨fs', store', answers⟩
  rw [ran] at memory disk
  obtain ⟨reports, opens⟩ :=
    (claim hindered ⟨"x/../f"⟩ _ _ _ fs' store' answers sound_hindered (by decide) opened ran).opens
  rw [opens] at disk
  dsimp only [Except.toOption, Option.map_some] at disk memory
  rw [memory] at disk
  cases disk

end Store

end KeyValueService
