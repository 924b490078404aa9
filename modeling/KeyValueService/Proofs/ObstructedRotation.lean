import KeyValueService.Proofs.ShiftedNumbers

/-!
# Rotation with something in the way

A rotation goes on when a file cannot be removed or renamed. With a directory under the last number
that is kept, or with a number there that no name can hold, the file before it stays where it is, and
the one before that is moved over it; or none can move at all, and file 0 is emptied where it is. Main
statement: `rotation_loses_one`. What happens at the last number decides whether anything is lost: with
nothing or a file there every file moves up by one, also past directories under other numbers;
otherwise one file may be lost, and never more than one.

File 0 is closed before the advance and opened anew after it. Neither touches what is under the other
numbers, nor does what is written afterwards.
-/

namespace KeyValueService

namespace LogFile

open FileSystem LogSeries BufferedFile

variable {f : LogFile} {host : Host} {file : BufferedFile} {directory : Location}

/-- A flush is refused by a full disk only, and then leaves all as it was. -/
theorem flush_cases (fs : FileSystem) (file : BufferedFile) :
    fs.full = true ∧ file.flush fs = (fs, file, .error .noSpace) ∨
      ∃ files file', file.flush fs = (files, file', .ok ()) ∧
        (fs.full = true → file.pending = ByteArray.empty) := by
  by_cases nothing : file.pending.size = 0
  · have wrote : fs.write file.handle file.pending = .ok (fs, file.handle) := if_pos nothing
    exact .inr ⟨fs, ofHandle file.handle, by rw [BufferedFile.flush, wrote],
      fun _ => ByteArray.size_eq_zero_iff.1 nothing⟩
  by_cases full : fs.full = true
  · have refused : fs.write file.handle file.pending = .error .noSpace := by
      rw [FileSystem.write, if_neg nothing, if_pos full]
    exact .inl ⟨full, by rw [BufferedFile.flush, refused]⟩
  cases wrote : fs.write file.handle file.pending with
  | ok done =>
    exact .inr ⟨done.1, ofHandle done.2, by rw [BufferedFile.flush, wrote],
      fun isFull => absurd isFull full⟩
  | error e =>
    rw [FileSystem.write, if_neg nothing, if_neg full] at wrote
    cases wrote

/-- Closing changes no other file. What was held back is on the disk then, unless that is full. -/
theorem closeCurrent_cases {content : ByteArray} {location : Location} (opened : f.current = some file)
    (there : host.files.entryAt? location = some (.file file.handle.number content))
    (atEnd : ∀ position ∈ file.handle.offset, position = content.size) :
    ChangesOnly file.handle.number host.files (f.closeCurrent host).files ∧
      (f.closeCurrent host).files.entryAt? location = some (.file file.handle.number
        (content ++ if host.files.full then ByteArray.empty else file.pending)) := by
  rw [closeCurrent, opened]
  dsimp only
  rcases flush_cases host.files file with ⟨full, refused⟩ | ⟨files, file', flushed, none⟩
  · have closed : file.close host.files = host.files := by rw [BufferedFile.close, refused]
    rw [refused, if_pos full, ByteArray.append_empty]
    change ChangesOnly _ _ (file.close host.files) ∧ (file.close host.files).entryAt? _ = _
    rw [closed]
    exact ⟨.refl _ _, there⟩
  · obtain ⟨number, only, empty, kept⟩ := BufferedFile.flush_exact flushed
    have there' := (kept location _ ⟨content, there, rfl, atEnd⟩).entryAt? empty
    rw [flushed]
    dsimp only
    rw [close_ofHandle files empty]
    refine ⟨only, ?_⟩
    rw [there', number]
    by_cases full : host.files.full = true
    · rw [if_pos full, none full]
    · rw [if_neg full]

/-- Opening file 0 anew changes nothing under the other numbers, and what is written from then on goes
to none of them. -/
theorem reopen_cases {s : LogSeries} (leads : host.files.Leads s.base.folder directory)
    (fits : (s.path 0).Fits (s.fileName 0))
    (apart : Apart (s.numbered directory host.files) host.files.nextNumber) :
    KeepsDirectories host.files (reopen s host).2.files ∧
      (∀ number, 0 < number → s.numbered directory (reopen s host).2.files number =
        s.numbered directory host.files number) ∧
      ∀ file ∈ (reopen s host).1.current, ∀ number, 0 < number → ∀ content,
        s.numbered directory host.files number ≠ some (.file file.handle.number content) := by
  have below := s.slot_below directory 0
  have others : ∀ number, 0 < number → s.slot directory number ≠ s.slot directory 0 :=
    fun number positive same => absurd (slot_inj.1 same) (Nat.ne_of_gt positive)
  rw [reopen_of_leads leads fits]
  rcases there : host.files.entryAt? (s.slot directory 0) with _ | ⟨⟩ | ⟨fileNumber, content⟩
  · refine ⟨keepsDirectories_addFile _ below (by simp [there]), fun number positive => ?_, ?_⟩
    · exact (entryAt?_addFile _ below _).trans (if_neg (others number positive))
    · intro file current number positive content there'
      cases current
      exact absurd (apart.fresh number _ content there') (Nat.lt_irrefl _)
  · refine ⟨.refl _, fun _ _ => rfl, ?_⟩
    intro file current
    cases current
  · refine ⟨keepsDirectories_set _ below _ (by simp [there]), fun number positive => ?_, ?_⟩
    · exact (entryAt?_set _ below _ _).trans (if_neg (others number positive))
    · intro file current number positive content' there'
      cases current
      exact absurd (apart.distinct number 0 fileNumber content' content there' there)
        (Nat.ne_of_gt positive)

/-- Writing and flushing change at most the file that is open. -/
theorem append_flush_only (f : LogFile) (host : Host) (bytes : ByteArray) :
    let appended := f.append host bytes
    let files := (appended.1.flush appended.2.1).2.1.files
    KeepsDirectories host.files files ∧
      ∀ location, (∀ file ∈ f.current, ∀ content,
          host.files.entryAt? location ≠ some (.file file.handle.number content)) →
        files.entryAt? location = host.files.entryAt? location := by
  cases opened : f.current with
  | none =>
    have appended : f.append host bytes =
        ({ f with size := f.size + bytes.size }, host.print bytes, .completed) := by
      rw [append, opened]
    rw [appended]
    dsimp only
    rw [flush, opened]
    exact ⟨.refl _, fun _ _ => rfl⟩
  | some file =>
    obtain ⟨number, only⟩ := write_only host.files file bytes
    have appended : (f.append host bytes).1.current = some (file.write host.files bytes).2.1 ∧
        (f.append host bytes).2.1.files = (file.write host.files bytes).1 := by
      rw [append, opened]
      dsimp only
      rcases file.write host.files bytes with ⟨files, file', e | ⟨⟩⟩ <;> exact ⟨rfl, rfl⟩
    obtain ⟨-, only'⟩ := flush_only (f.append host bytes).2.1.files (file.write host.files bytes).2.1
    have flushed : ((f.append host bytes).1.flush (f.append host bytes).2.1).2.1.files =
        ((file.write host.files bytes).2.1.flush (f.append host bytes).2.1.files).1 := by
      rw [flush, appended.1]
    dsimp only
    rw [flushed]
    rw [number, appended.2] at only'
    rw [appended.2]
    have both := only.trans only'
    exact ⟨both.keepsDirectories, fun location apart => both.entryAt? location (apart file rfl)⟩

/-- File 0 is open, and what is written to it goes behind its content. -/
structure Appends (f : LogFile) (files : FileSystem) (file : BufferedFile) (content : ByteArray) :
    Prop where
  current : f.current = some file
  find : files.find (f.series.path 0) = .ok (.file file.handle.number content)
  atEnd : ∀ position ∈ file.handle.offset, position = content.size

/-- What is under the numbers of a series, for file 0 with all that is held back and can be written. -/
def held (s : LogSeries) (files : FileSystem) (file : BufferedFile) (content : ByteArray) :
    Nat → Except DiskError ByteArray
  | 0 => .ok (content ++ if files.full then ByteArray.empty else file.pending)
  | number + 1 => files.readBytes (s.path (number + 1))

theorem leads_of_find {fs : FileSystem} {s : LogSeries} {number : Nat} {entry : Entry}
    (found : fs.find (s.path number) = .ok entry) :
    ∃ directory, fs.Leads s.base.folder directory ∧ (s.path number).Fits (s.fileName number) := by
  cases resolved : fs.resolve (s.path number) with
  | error e => simp [find, resolved] at found
  | ok target => exact leads_of_resolve (s.path_splits number) resolved

theorem entry_of_find {fs : FileSystem} {s : LogSeries} {number : Nat} {entry : Entry}
    (leads : fs.Leads s.base.folder directory) (found : fs.find (s.path number) = .ok entry) :
    (s.path number).Fits (s.fileName number) ∧ s.numbered directory fs number = some entry := by
  obtain ⟨-, -, fits⟩ := leads_of_find found
  rw [find_of_leads (s.path_splits number) leads fits, ← slot] at found
  refine ⟨fits, ?_⟩
  rw [numbered]
  cases there : fs.entryAt? (s.slot directory number) with
  | none => simp [there] at found
  | some entry' =>
    rw [there] at found
    exact congrArg some (Except.ok.inj found)

theorem find_of_readBytes {fs : FileSystem} {p : Path} {bytes : ByteArray}
    (read : fs.readBytes p = .ok bytes) : ∃ number, fs.find p = .ok (.file number bytes) := by
  rw [readBytes] at read
  split at read
  next e refused => cases read
  next directory => cases read
  next number content found =>
    cases read
    exact ⟨number, found⟩

/-- A number under which there is nothing or a file is no obstacle. -/
theorem unobstructed {fs : FileSystem} {s : LogSeries} {number : Nat}
    (leads : fs.Leads s.base.folder directory)
    (clear : fs.find (s.path number) = .error .notFound ∨
      ∃ bytes, fs.readBytes (s.path number) = .ok bytes) :
    (s.path number).Fits (s.fileName number) ∧ s.numbered directory fs number ≠ some .directory := by
  rcases clear with missing | ⟨bytes, read⟩
  · have fits : (s.path number).Fits (s.fileName number) := by
      by_contra unfit
      obtain ⟨e, refused, different⟩ := resolve_of_not_fits (s.path_splits number) leads unfit
      rw [find, refused] at missing
      exact different (Except.error.inj missing)
    rw [find_of_leads (s.path_splits number) leads fits, ← slot] at missing
    refine ⟨fits, fun there => ?_⟩
    rw [numbered] at there
    simp [there] at missing
  · obtain ⟨fileNumber, found⟩ := find_of_readBytes read
    obtain ⟨fits, there⟩ := entry_of_find leads found
    exact ⟨fits, by simp [there]⟩

/-- With the same under two numbers, the same is read there. -/
theorem readBytes_congr {fs fs' : FileSystem} {s : LogSeries} {number number' : Nat}
    {directory' : Location} (leads : fs.Leads s.base.folder directory)
    (leads' : fs'.Leads s.base.folder directory') (fits : (s.path number).Fits (s.fileName number))
    (fits' : (s.path number').Fits (s.fileName number'))
    (same : s.numbered directory' fs' number' = s.numbered directory fs number) :
    fs'.readBytes (s.path number') = fs.readBytes (s.path number) := by
  rw [readBytes, readBytes, find_of_leads (s.path_splits number) leads fits,
    find_of_leads (s.path_splits number') leads' fits']
  rw [numbered, numbered, slot, slot] at same
  rw [same]

end LogFile

namespace LogSeries

open FileSystem LogFile

/-- What is under the numbers when file 0 has been closed and holds a content. -/
def closedEntries (s : LogSeries) (directory : Location) (fs : FileSystem) (fileNumber : Nat)
    (whole : ByteArray) : Nat → Option Entry
  | 0 => some (.file fileNumber whole)
  | number + 1 => s.numbered directory fs (number + 1)

theorem closedEntries_of_pos {s : LogSeries} {directory : Location} {fs : FileSystem}
    {fileNumber number : Nat} {whole : ByteArray} (positive : 0 < number) :
    s.closedEntries directory fs fileNumber whole number = s.numbered directory fs number := by
  cases number with
  | zero => exact absurd positive (Nat.lt_irrefl 0)
  | succ number => rfl

theorem apart_closedEntries {fs : FileSystem} {s : LogSeries} {directory : Location}
    {fileNumber : Nat} {content : ByteArray} (sound : fs.Sound)
    (first : s.numbered directory fs 0 = some (.file fileNumber content)) (whole : ByteArray) :
    Apart (s.closedEntries directory fs fileNumber whole) fs.nextNumber := by
  have before : ∀ {number other content'},
      s.closedEntries directory fs fileNumber whole number = some (.file other content') →
      ∃ content'', s.numbered directory fs number = some (.file other content'') := by
    intro number other content' there
    cases number with
    | zero =>
      cases there
      exact ⟨content, first⟩
    | succ number => exact ⟨content', there⟩
  constructor
  · intro number other content' there
    obtain ⟨content'', there'⟩ := before there
    exact sound.fresh _ other content'' there'
  · intro number number' other content' content'' there there'
    obtain ⟨_, there⟩ := before there
    obtain ⟨_, there'⟩ := before there'
    exact slot_inj.1 (sound.distinct _ _ _ _ _ there there')

end LogSeries

namespace LogFile

open FileSystem LogSeries

/-- A record that makes a rotation due is consumed, and the log file flushed: under the other numbers
than 0 is what an advance makes of what was there when file 0 had been closed. -/
theorem consume_flush_entries {f : LogFile} {host : Host} {file : BufferedFile} {content : ByteArray}
    {directory : Location} (sound : host.files.Sound) (appends : f.Appends host.files file content)
    (leads : host.files.Leads f.series.base.folder directory)
    (noDots : ".." ∉ Path.parts f.series.base.folder) (r : Record)
    (due : f.isDue (f.series.line r).size = true) :
    let s := f.series
    let consumed := f.consume host r
    let files := (consumed.1.flush consumed.2.1).2.1.files
    files.Leads s.base.folder directory ∧ ∃ closed : Host,
      closed.files.Leads s.base.folder directory ∧
      s.numbered directory closed.files = s.closedEntries directory host.files file.handle.number
        (content ++ if host.files.full then ByteArray.empty else file.pending) ∧
      ∀ place, 0 < place →
        s.numbered directory files place = s.numbered directory (s.advance closed).files place := by
  intro s consumed files
  obtain ⟨fits, first⟩ := entry_of_find leads appends.find
  obtain ⟨only, whole⟩ := closeCurrent_cases appends.current first appends.atEnd
  -- Closing brings file 0 up to date and changes nothing under the other numbers.
  have leads₁ := leads.of_keepsDirectories only.keepsDirectories
  have entries₁ : s.numbered directory (f.closeCurrent host).files =
      s.closedEntries directory host.files file.handle.number
        (content ++ if host.files.full then ByteArray.empty else file.pending) := by
    funext number
    cases number with
    | zero => exact whole
    | succ number =>
      refine only.entryAt? _ fun content' there => ?_
      exact absurd (slot_inj.1 (sound.distinct _ _ _ _ _ there first)) (Nat.succ_ne_zero number)
  have apart₁ : Apart (s.numbered directory (f.closeCurrent host).files)
      (f.closeCurrent host).files.nextNumber := by
    rw [entries₁, only.nextNumber]
    exact apart_closedEntries sound first _
  obtain ⟨same₂, apart₂⟩ := same_advance noDots leads₁ apart₁
  have leads₂ := leads₁.of_same noDots same₂
  -- The new file 0 is none of the others, nor is what is written from then on.
  obtain ⟨keeps₃, others₃, foreign⟩ := reopen_cases leads₂ fits apart₂
  obtain ⟨keeps₄, others₄⟩ := append_flush_only (f.rotate host).1 (f.rotate host).2 (s.line r)
  have consumes : consumed = (f.rotate host).1.append (f.rotate host).2 (s.line r) := by
    simp only [consumed, consume, s, due, if_true]
  refine ⟨?_, f.closeCurrent host, leads₁, entries₁, fun place positive => ?_⟩
  · simp only [files, consumes]
    exact (leads₂.of_keepsDirectories keeps₃).of_keepsDirectories keeps₄
  · rw [← others₃ place positive]
    simp only [files, consumes]
    refine others₄ _ fun file' current content' there => ?_
    exact foreign file' current place positive content' ((others₃ place positive).symm.trans there)

theorem closedEntries_of_held {s : LogSeries} {fs : FileSystem} {directory : Location}
    {file : BufferedFile} {content bytes : ByteArray} {number : Nat}
    (leads : fs.Leads s.base.folder directory) (fits : (s.path 0).Fits (s.fileName 0))
    (isHeld : held s fs file content number = .ok bytes) :
    (s.path number).Fits (s.fileName number) ∧ ∃ fileNumber,
      s.closedEntries directory fs file.handle.number
        (content ++ if fs.full then ByteArray.empty else file.pending) number =
          some (.file fileNumber bytes) := by
  cases number with
  | zero => exact ⟨fits, file.handle.number, by cases isHeld; rfl⟩
  | succ number =>
    obtain ⟨fileNumber, known⟩ := find_of_readBytes isHeld
    obtain ⟨fits', there⟩ := entry_of_find leads known
    exact ⟨fits', fileNumber, there⟩

end LogFile

open FileSystem LogSeries LogFile

/-- A record for which a rotation is due is consumed, and the log file flushed. Whatever is under the
numbers of the series, files of any content, directories or nothing:

* if there is nothing or a file under the last number that is kept, each other number afterwards shows
  what the one before it showed, number 1 all that was written to file 0;
* if there is a directory under the last number and files under all others, it is so up to the number
  before the last, and what that number showed is gone;
* in any case what was under a number below the last is to be read under that number or the next,
  unchanged, except for one file at most.

A full disk does not take what was held back for file 0. There are no links, and no two dots in the
folder of the series, which could lead through a directory under one of its numbers.

Proof: things stay where they are from the last number down to the first that moves. That one leaves
its place free, so that all below it move up; the one over which it moved is the one that is lost. If
none moves, it is file 0, which is emptied where it is. -/
theorem rotation_loses_one {f : LogFile} {host : Host} {file : BufferedFile} {content : ByteArray}
    (sound : host.files.Sound) (appends : f.Appends host.files file content)
    (noDots : ".." ∉ Path.parts f.series.base.folder) (r : Record)
    (due : f.isDue (f.series.line r).size = true) :
    let s := f.series
    let consumed := f.consume host r
    let files := (consumed.1.flush consumed.2.1).2.1.files
    let held := held s host.files file content
    (host.files.find (s.path s.maxFiles) = .error .notFound ∨
        (∃ bytes, host.files.readBytes (s.path s.maxFiles) = .ok bytes) →
      ∀ number < s.maxFiles, files.readBytes (s.path (number + 1)) = held number) ∧
    (host.files.find (s.path s.maxFiles) = .ok .directory →
      (∀ number < s.maxFiles, ∃ bytes, held number = .ok bytes) →
      files.find (s.path s.maxFiles) = .ok .directory ∧
        ∀ number, number + 1 < s.maxFiles → files.readBytes (s.path (number + 1)) = held number) ∧
    ∃ lost, ∀ number < s.maxFiles, number ≠ lost → ∀ bytes, held number = .ok bytes →
      ∃ place, (place = number ∨ place = number + 1) ∧ 0 < place ∧
        files.readBytes (s.path place) = .ok bytes := by
  intro s consumed files held
  obtain ⟨directory, leads, fits⟩ := leads_of_find appends.find
  obtain ⟨leads', closed, leads₁, entries₁, entries⟩ :=
    consume_flush_entries sound appends leads noDots r due
  have last := congrFun entries₁ s.maxFiles
  rw [closedEntries_of_pos s.maxFiles_pos] at last
  have shows : ∀ {number}, (s.path (number + 1)).Fits (s.fileName (number + 1)) →
      s.numbered directory (s.advance closed).files (number + 1) =
        s.numbered directory closed.files number →
      files.readBytes (s.path (number + 1)) = held number := by
    intro number fits' moved
    rw [entries₁, ← entries _ (Nat.succ_pos number)] at moved
    cases number with
    | zero => exact readBytes_of_leads (s.path_splits 1) leads' fits' moved
    | succ number => exact readBytes_congr leads leads' (fits_of_le (Nat.le_succ _) fits') fits' moved
  refine ⟨fun clear number below => ?_, fun blocked filesHeld => ?_, ?_⟩
  · obtain ⟨fitsLast, notDirectory⟩ := unobstructed leads clear
    rw [← last] at notDirectory
    exact shows (fits_of_le below fitsLast)
      (advance_of_clear noDots leads₁ fitsLast notDirectory number below)
  · obtain ⟨fitsLast, directoryLast⟩ := entry_of_find leads blocked
    rw [← last] at directoryLast
    have filesThere : ∀ number < s.maxFiles, ∃ fileNumber content,
        s.numbered directory closed.files number = some (.file fileNumber content) := by
      intro number below
      obtain ⟨bytes, isHeld⟩ := filesHeld number below
      obtain ⟨-, fileNumber, there⟩ := closedEntries_of_held leads fits isHeld
      exact ⟨fileNumber, bytes, by rw [entries₁, there]⟩
    obtain ⟨stays, moves⟩ := advance_onto_directory noDots leads₁ fitsLast directoryLast filesThere
    refine ⟨?_, fun number below => shows (fits_of_le (Nat.le_of_lt below) fitsLast) (moves number below)⟩
    rw [← entries _ s.maxFiles_pos, numbered] at stays
    rw [find_of_leads (s.path_splits s.maxFiles) leads' fitsLast, ← slot, stays]
  · obtain ⟨lost, found⟩ := losesOne_advance noDots leads₁
    refine ⟨lost, fun number below notLost bytes isHeld => ?_⟩
    obtain ⟨fits', fileNumber, there⟩ := closedEntries_of_held leads fits isHeld
    obtain ⟨place, near, positive, fits'', there'⟩ :=
      found number below notLost fits' fileNumber bytes (by rw [entries₁, there])
    rw [← entries place positive] at there'
    exact ⟨place, near, positive, readBytes_of_leads (s.path_splits place) leads' fits'' there'⟩

/-- A directory with a name of a number beside a file 0 that is still empty. -/
def besideDirectory : FileSystem :=
  (FileSystem.empty.set ["app.1.log"] .directory).addFile ["app.0.log"]

theorem sound_besideDirectory : besideDirectory.Sound := by
  have below : ["app.1.log"] ≠ [] := by simp
  have made : (FileSystem.empty.set ["app.1.log"] .directory).Sound :=
    sound_empty.set rfl (by simp [FileSystem.empty, entryAt?, lookup?]) (by simp)
  refine made.addFile rfl ?_
  rw [entryAt?_set _ below, if_neg (by decide)]
  simp [FileSystem.empty, entryAt?, lookup?]

theorem find_besideDirectory :
    besideDirectory.find ⟨"app.0.log"⟩ = .ok (.file 0 ByteArray.empty) ∧
      besideDirectory.find ⟨"app.2.log"⟩ = .error .notFound :=
  ⟨by rfl, by rfl⟩

/-- A directory under number 1 moves out of the way, and what was held back for file 0 comes to lie
there. -/
theorem rotation_past_directory :
    let s := LogSeries.of ⟨"app"⟩ 5 2 .line
    let file : BufferedFile := ⟨⟨0, some 0⟩, "zero\n".toUTF8⟩
    let f : LogFile := ⟨s, some file, 5⟩
    let r : Record := ⟨⟨0⟩, 1, .info, none, "next"⟩
    let consumed := f.consume (.ofFiles besideDirectory) r
    let files := (consumed.1.flush consumed.2.1).2.1.files
    besideDirectory.Sound ∧ f.Appends besideDirectory file ByteArray.empty ∧
      ".." ∉ Path.parts s.base.folder ∧ f.isDue (s.line r).size = true ∧
      besideDirectory.find (s.path 2) = .error .notFound ∧
      files.readBytes (s.path 1) = .ok "zero\n".toUTF8 ∧
      files.readBytes (s.path 2) = .error .isDirectory := by
  intro s file f r
  have appends : f.Appends besideDirectory file ByteArray.empty :=
    ⟨rfl, find_besideDirectory.1, by decide +kernel⟩
  have noDots : ".." ∉ Path.parts s.base.folder := by decide +kernel
  have due : f.isDue (s.line r).size = true := by decide +kernel
  have missing : besideDirectory.find (s.path 2) = .error .notFound := find_besideDirectory.2
  have moves := (@rotation_loses_one f (.ofFiles besideDirectory) file ByteArray.empty
    sound_besideDirectory appends noDots r due).1 (.inl missing)
  have first : held s besideDirectory file ByteArray.empty 0 = .ok "zero\n".toUTF8 := by
    decide +kernel
  have second : held s besideDirectory file ByteArray.empty 1 = .error .isDirectory := by
    decide +kernel
  exact ⟨sound_besideDirectory, appends, noDots, due, missing, (moves 0 (by decide)).trans first,
    (moves 1 (by decide)).trans second⟩

/-- Under the last number that is kept, the same directory is not removed, file 0 cannot move, and what
was written to it is lost. -/
theorem rotation_onto_directory :
    let s := LogSeries.of ⟨"app"⟩ 5 1 .line
    let file : BufferedFile := ⟨⟨0, some 0⟩, "zero\n".toUTF8⟩
    let f : LogFile := ⟨s, some file, 5⟩
    let r : Record := ⟨⟨0⟩, 1, .info, none, "next"⟩
    let consumed := f.consume (.ofFiles besideDirectory) r
    let files := (consumed.1.flush consumed.2.1).2.1.files
    f.Appends besideDirectory file ByteArray.empty ∧ f.isDue (s.line r).size = true ∧
      held s besideDirectory file ByteArray.empty 0 = .ok "zero\n".toUTF8 ∧
      files.readBytes (s.path 0) = .ok (s.line r) ∧
      files.readBytes (s.path 1) = .error .isDirectory := by
  intro s file f r consumed files
  exact ⟨⟨rfl, find_besideDirectory.1, by decide +kernel⟩, by decide +kernel⟩

end KeyValueService
