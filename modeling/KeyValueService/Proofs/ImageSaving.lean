import KeyValueService.Proofs.DraftPaths
import KeyValueService.Proofs.FileReplacing

/-!
# Saving under refusals

An image is saved in steps, and the disk may refuse any of them: at once, or after a part of the
step has been done. Up to the last step the file is as it was, and the last step replaces it as
a whole. A save that fails therefore keeps what held of the file before, such as the bytes it
had, or that it was missing, and one that succeeds leaves it with those of the new image.
-/

namespace KeyValueService

namespace Store

open FileSystem KeyValueService.Path

/-- What there is at a path: a file with a content, or no file and no entry. -/
def Shows (fs : FileSystem) (path : Path) : Option ByteArray → Prop
  | some content => fs.readBytes path = .ok content
  | none => fs.Missing path

theorem find_of_missing {fs : FileSystem} {path : Path} (missing : fs.Missing path) :
    fs.find path = .error .notFound :=
  missing fs (.refl fs)

theorem Shows.of_prepared {fs fs' : FileSystem} {path : Path} {shown : Option ByteArray}
    (shows : Shows fs path shown) (prepared : Prepared path fs fs') : Shows fs' path shown := by
  cases shown with
  | none => exact Missing.of_prepared shows prepared
  | some content =>
    cases resolved : fs.resolve path with
    | ok target =>
      rw [prepared.eq_of_settled (settled_of_resolve resolved)]
      exact shows
    | error e =>
      rw [Shows, readBytes, find, resolved] at shows
      cases shows

/-- Where the directory of a path is there, the same is to be found as long as the path leads to the
same. -/
theorem Shows.of_resolve {fs fs' : FileSystem} {path : Path} {shown : Option ByteArray}
    (shows : Shows fs path shown) (settled : fs'.Settled path)
    (same : fs'.resolve path = fs.resolve path) : Shows fs' path shown := by
  have found : fs'.find path = fs.find path := by rw [find, find, same]
  cases shown with
  | none =>
    refine missing_of_settled settled ?_
    rw [found]
    exact find_of_missing shows
  | some content =>
    rw [Shows, readBytes, found]
    exact shows

/-- A condition on what there is at a path. It is kept when directories that the path lies in are made,
and, once its own directory is there, as long as the path leads to the same. -/
structure Stable (path : Path) (holds : FileSystem → Prop) : Prop where
  of_prepared : ∀ {fs fs'}, holds fs → Prepared path fs fs' → holds fs'
  of_resolve : ∀ {fs fs'}, holds fs → fs'.Settled path → fs'.resolve path = fs.resolve path → holds fs'

theorem stable_shows (path : Path) (shown : Option ByteArray) :
    Stable path fun fs => Shows fs path shown where
  of_prepared := Shows.of_prepared
  of_resolve := Shows.of_resolve

/-- A step that the disk refuses: how many steps are carried out before it, how much of the step
itself is done, and why it is refused. -/
structure Refusal where
  before : Nat
  amount : Nat
  cause : DiskError

/-- What a step leaves behind of which only a part is done: some of the directories that the path
lies in, without the innermost, or the first of the bytes. A draft is opened, and a file replaced,
all at once. -/
def SaveStep.begin (s : Saving) (amount : Nat) : SaveStep → Saving
  | .makeParents path =>
    match path.parent? with
    | none => s
    | some above => { s with files := (s.files.makeChain (above.ancestors.drop amount)).1 }
  | .openDraft _ => s
  | .write bytes => ((SaveStep.write (bytes.extract 0 amount)).run s).1
  | .replace _ _ => s

/-- Carries steps out one after the other, up to the first that fails or is refused. -/
def runUnder (amount : Nat) (cause : DiskError) (s : Saving) :
    Nat → List SaveStep → Saving × Except DiskError Unit
  | _, [] => (s, .ok ())
  | 0, step :: _ => (step.begin s amount, .error cause)
  | before + 1, step :: rest =>
    match step.run s with
    | (s, .error e) => (s, .error e)
    | (s, .ok ()) => runUnder amount cause s before rest

/-- Saves a table on a disk that may refuse one of the steps. -/
def saveUnder : Option Refusal → Saver
  | none, fs, path, table => save fs path table
  | some _, fs, none, _ => (fs, .ok ())
  | some refusal, fs, some path, table =>
    let (saving, result) := runUnder refusal.amount refusal.cause ⟨fs, none⟩ refusal.before
      (saveSteps path (image table).toUTF8)
    (saving.files, result)

/-- A step goes from one condition to another when it is carried out. When it fails, or only a part
of it is done, a third one holds. -/
structure SaveStep.Secure (kept before after : Saving → Prop) (step : SaveStep) : Prop where
  done : ∀ {s s'}, before s → step.run s = (s', .ok ()) → after s'
  failed : ∀ {s s' e}, before s → step.run s = (s', .error e) → kept s'
  begun : ∀ {s} amount, before s → kept (step.begin s amount)

/-- Steps that go from one condition to the next. -/
inductive Secured (kept : Saving → Prop) : (Saving → Prop) → List SaveStep → (Saving → Prop) → Prop
  | nil (condition : Saving → Prop) : Secured kept condition [] condition
  | cons {before between after : Saving → Prop} {step : SaveStep} {rest : List SaveStep}
      (first : step.Secure kept before between) (more : Secured kept between rest after) :
      Secured kept before (step :: rest) after

/-- The steps end in the last condition, or fail and leave what is kept. -/
def Outcome (kept after : Saving → Prop) (outcome : Saving × Except DiskError Unit) : Prop :=
  match outcome with
  | (s, .ok ()) => after s
  | (s, .error _) => kept s

theorem Secured.runSteps {kept before after : Saving → Prop} {steps : List SaveStep}
    (secured : Secured kept before steps after) {s : Saving} (holds : before s) :
    Outcome kept after (runSteps s steps) := by
  induction secured generalizing s with
  | nil condition => exact holds
  | @cons before between after step rest first more inductionHypothesis =>
    rw [Store.runSteps]
    rcases outcome : step.run s with ⟨s', e | ⟨⟩⟩
    · exact first.failed holds outcome
    · exact inductionHypothesis (first.done holds outcome)

theorem Secured.runUnder {kept before after : Saving → Prop} {steps : List SaveStep}
    (secured : Secured kept before steps after) {s : Saving} (holds : before s) (amount : Nat)
    (cause : DiskError) (count : Nat) :
    Outcome kept after (runUnder amount cause s count steps) := by
  induction secured generalizing s count with
  | nil condition => cases count <;> exact holds
  | @cons before between after step rest first more inductionHypothesis =>
    cases count with
    | zero => exact first.begun amount holds
    | succ count =>
      rw [Store.runUnder]
      rcases outcome : step.run s with ⟨s', e | ⟨⟩⟩
      · exact first.failed holds outcome
      · exact inductionHypothesis (first.done holds outcome) count

section Steps

variable {path : Path} {holds : FileSystem → Prop}

/-- What held of the path before still holds. -/
structure Kept (holds : FileSystem → Prop) (s : Saving) : Prop where
  sound : s.files.Sound
  holds : holds s.files

/-- So it is, and the directory of the path is there. -/
structure Ready (path : Path) (holds : FileSystem → Prop) (s : Saving) : Prop
    extends Kept holds s where
  settled : s.files.Settled path

/-- So it is, and the draft beside the path has a content. -/
structure Drafted (path : Path) (holds : FileSystem → Prop) (content : ByteArray) (s : Saving) : Prop
    extends Ready path holds s where
  draft : ∃ handle name above, s.draft = some handle ∧
    (splitExtension name).2 = draftExtension ∧
    s.files.resolve (draftPath path) =
      .ok ⟨String.ofList name :: above, some (.file handle.number content), false, true⟩ ∧
    ∀ position ∈ handle.offset, position = content.size

/-- The file at the path has a content. -/
structure Replaced (path : Path) (content : ByteArray) (s : Saving) : Prop where
  sound : s.files.Sound
  file : s.files.readBytes path = .ok content

variable (stable : Stable path holds)

include stable

theorem makeParents_secure :
    (SaveStep.makeParents path).Secure (Kept holds) (Kept holds) (Ready path holds) := by
  have prepares : ∀ {s : Saving} {fs' : FileSystem}, Kept holds s →
      Prepared path s.files fs' → Kept holds { s with files := fs' } := by
    intro s fs' kept prepared
    exact ⟨prepared.sound kept.sound, stable.of_prepared kept.holds prepared⟩
  constructor
  case done =>
    intro s s' kept done
    have prepared := s.files.prepared_of_makeParents path
    rcases made : s.files.makeParents path with ⟨files, result⟩
    rw [made] at prepared
    simp only [SaveStep.run, made] at done
    obtain ⟨rfl, rfl⟩ := Prod.mk.inj done
    exact ⟨prepares kept prepared, settled_of_makeParents made⟩
  case failed =>
    intro s s' e kept failed
    have prepared := s.files.prepared_of_makeParents path
    rcases made : s.files.makeParents path with ⟨files, result⟩
    rw [made] at prepared
    simp only [SaveStep.run, made] at failed
    obtain ⟨rfl, -⟩ := Prod.mk.inj failed
    exact prepares kept prepared
  case begun =>
    intro s amount kept
    rw [SaveStep.begin]
    split
    next top => exact kept
    next above lies =>
      refine prepares kept (prepared_of_makeChain lies s.files ?_)
      intro directory member
      exact List.mem_of_mem_drop member

variable (apart : path.extension ≠ draftExtension)

include apart

/-- A change where the draft is changes nothing at the path. -/
theorem Ready.beside {s : Saving} (ready : Ready path holds s) {fs' : FileSystem} (sound : fs'.Sound)
    (keeps : KeepsDirectories s.files fs') {name : List Char} {above : Location}
    (tail : (splitExtension name).2 = draftExtension)
    (elsewhere : ∀ other, other ≠ String.ofList name :: above →
      fs'.entryAt? other = s.files.entryAt? other) (draft : Option Handle) :
    Ready path holds ⟨fs', draft⟩ := by
  have settled := ready.settled.of_keepsDirectories keeps
  have same := resolve_beside_draft ready.sound ready.settled apart keeps tail elsewhere
  exact ⟨⟨sound, stable.of_resolve ready.holds settled same⟩, settled⟩

theorem openDraft_secure :
    (SaveStep.openDraft (draftPath path)).Secure (Kept holds) (Ready path holds)
      (Drafted path holds ByteArray.empty) := by
  constructor
  case done =>
    intro s s' ready done
    rw [SaveStep.run] at done
    split at done
    next e refused => cases done
    next files handle opened =>
      obtain ⟨rfl, -⟩ := Prod.mk.inj done
      obtain ⟨target, resolved, notDirectory, offset, sound, keeps, emptied, elsewhere⟩ :=
        openEmptied_exact ready.sound opened
      obtain ⟨name, above, tail, -, rfl⟩ := draft_cases ready.sound resolved notDirectory
      refine ⟨ready.beside stable apart sound keeps tail elsewhere _, handle, name, above, rfl, tail, ?_, ?_⟩
      · dsimp only at emptied ⊢
        rw [resolve_of_keepsDirectories keeps resolved]
        dsimp only
        rw [emptied]
      · rw [offset]
        intro position member
        cases member
        rfl
  case failed =>
    intro s s' e ready failed
    rw [SaveStep.run] at failed
    split at failed
    next e' refused =>
      obtain ⟨rfl, -⟩ := Prod.mk.inj failed
      exact ready.toKept
    next files handle opened => cases (Prod.mk.inj failed).2
  case begun =>
    intro s amount ready
    exact ready.toKept

theorem write_done {content bytes : ByteArray} {s s' : Saving}
    (drafted : Drafted path holds content s) (done : (SaveStep.write bytes).run s = (s', .ok ())) :
    Drafted path holds (content ++ bytes) s' := by
  obtain ⟨handle, name, above, opened, tail, resolved, atEnd⟩ := drafted.draft
  simp only [SaveStep.run, opened] at done
  split at done
  next e refused => cases (Prod.mk.inj done).2
  next files handle' written =>
    obtain ⟨rfl, -⟩ := Prod.mk.inj done
    obtain ⟨number, sound, keeps, now, atEnd', elsewhere⟩ :=
      write_beside drafted.sound (entry_of_resolve resolved).symm atEnd written
    refine ⟨drafted.toReady.beside stable apart sound keeps tail elsewhere _, handle', name, above, rfl, tail,
      ?_, atEnd'⟩
    dsimp only
    rw [resolve_of_keepsDirectories keeps resolved]
    dsimp only at now ⊢
    rw [now, number]

omit stable apart in
theorem write_failed {bytes : ByteArray} {s s' : Saving} {e : DiskError}
    (failed : (SaveStep.write bytes).run s = (s', .error e)) : s' = s := by
  simp only [SaveStep.run] at failed
  split at failed
  next unopened => cases (Prod.mk.inj failed).2
  next handle opened =>
    split at failed
    next e' refused => exact (Prod.mk.inj failed).1.symm
    next files handle' written => cases (Prod.mk.inj failed).2

theorem write_secure (content bytes : ByteArray) :
    (SaveStep.write bytes).Secure (Kept holds) (Drafted path holds content)
      (Drafted path holds (content ++ bytes)) := by
  constructor
  case done =>
    intro s s' drafted done
    exact write_done stable apart drafted done
  case failed =>
    intro s s' e drafted failed
    rw [write_failed failed]
    exact drafted.toKept
  case begun =>
    intro s amount drafted
    rw [SaveStep.begin]
    rcases outcome : (SaveStep.write (bytes.extract 0 amount)).run s with ⟨s', e | ⟨⟩⟩
    · rw [write_failed outcome]
      exact drafted.toKept
    · exact (write_done stable apart drafted outcome).toKept

omit stable in
theorem replace_secure (content : ByteArray) :
    (SaveStep.replace (draftPath path) path).Secure (Kept holds) (Drafted path holds content)
      (Replaced path content) := by
  constructor
  case done =>
    intro s s' drafted done
    obtain ⟨handle, name, above, opened, tail, resolved, -⟩ := drafted.draft
    rw [SaveStep.run] at done
    split at done
    next e refused => cases (Prod.mk.inj done).2
    next files moved =>
      obtain ⟨rfl, -⟩ := Prod.mk.inj done
      have beside : path.HasName → ∀ between,
          String.ofList (splitLast path.text.toList).2 :: between ≠ String.ofList name :: above := by
        intro named between same
        have lastName := String.ofList_inj.1 (List.cons.inj same).1
        rw [extension, lastName, tail] at apart
        exact apart rfl
      obtain ⟨sound, file⟩ := rename_exact drafted.sound resolved beside moved
      exact ⟨sound, file⟩
  case failed =>
    intro s s' e drafted failed
    rw [SaveStep.run] at failed
    split at failed
    next e' refused =>
      obtain ⟨rfl, -⟩ := Prod.mk.inj failed
      exact drafted.toKept
    next files moved => cases (Prod.mk.inj failed).2
  case begun =>
    intro s amount drafted
    exact drafted.toKept

/-- The steps of a save take what is at the path to a file with the bytes. -/
theorem saveSteps_secured (bytes : ByteArray) :
    Secured (Kept holds) (Kept holds) (saveSteps path bytes) (Replaced path bytes) := by
  have written := write_secure stable apart ByteArray.empty bytes
  rw [ByteArray.empty_append] at written
  exact .cons (makeParents_secure stable) (.cons (openDraft_secure stable apart) (.cons written
    (.cons (replace_secure apart bytes) (.nil _))))

/-- A save that succeeds leaves the image of the table, byte by byte; one that fails keeps what held
before. -/
theorem saveUnder_secured {fs fs' : FileSystem} (refusal : Option Refusal) {table : Table String}
    (sound : fs.Sound) (before : holds fs) {result : Except DiskError Unit}
    (saved : saveUnder refusal fs (some path) table = (fs', result)) :
    fs'.Sound ∧
      match result with
      | .ok () => fs'.readBytes path = .ok (image table).toUTF8
      | .error _ => holds fs' := by
  have secured := saveSteps_secured stable apart (image table).toUTF8
  have kept : Kept holds ⟨fs, none⟩ := ⟨sound, before⟩
  cases refusal with
  | none =>
    have outcome := secured.runSteps kept
    simp only [saveUnder, save] at saved
    rcases run : runSteps ⟨fs, none⟩ (saveSteps path (image table).toUTF8) with ⟨s, e | ⟨⟩⟩
    · rw [run] at saved outcome
      obtain ⟨rfl, rfl⟩ := Prod.mk.inj saved
      exact ⟨outcome.sound, outcome.holds⟩
    · rw [run] at saved outcome
      obtain ⟨rfl, rfl⟩ := Prod.mk.inj saved
      exact ⟨outcome.sound, outcome.file⟩
  | some refusal =>
    have outcome := secured.runUnder kept refusal.amount refusal.cause refusal.before
    simp only [saveUnder] at saved
    rcases run : runUnder refusal.amount refusal.cause ⟨fs, none⟩ refusal.before
      (saveSteps path (image table).toUTF8) with ⟨s, e | ⟨⟩⟩
    · rw [run] at saved outcome
      obtain ⟨rfl, rfl⟩ := Prod.mk.inj saved
      exact ⟨outcome.sound, outcome.holds⟩
    · rw [run] at saved outcome
      obtain ⟨rfl, rfl⟩ := Prod.mk.inj saved
      exact ⟨outcome.sound, outcome.file⟩

omit stable in
/-- A save that fails leaves what was at the path before. -/
theorem saveUnder_exact {fs fs' : FileSystem} (refusal : Option Refusal) {table : Table String}
    {shown : Option ByteArray} (sound : fs.Sound) (shows : Shows fs path shown)
    {result : Except DiskError Unit}
    (saved : saveUnder refusal fs (some path) table = (fs', result)) :
    fs'.Sound ∧
      match result with
      | .ok () => fs'.readBytes path = .ok (image table).toUTF8
      | .error _ => Shows fs' path shown :=
  saveUnder_secured (stable_shows path shown) apart refusal sound shows saved

end Steps

end Store

end KeyValueService
