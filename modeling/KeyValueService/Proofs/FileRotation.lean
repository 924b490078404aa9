import KeyValueService.Proofs.NumberedFiles
import KeyValueService.Proofs.SettledPaths
import KeyValueService.Sink.LogFile

/-!
# Rotation

What a log file does with its series when nothing is complained about: closing puts on the
disk what was held back, the files move up, and a new file 0 is made with a number that no
file had before. The file that was current is found under number 1 with all that was
written to it.
-/

namespace KeyValueService

namespace LogFile

open FileSystem LogSeries BufferedFile

/-- Closing a file with nothing held back leaves the disk alone. -/
theorem close_ofHandle (fs : FileSystem) {file : BufferedFile}
    (empty : file.pending = ByteArray.empty) :
    file.close fs = fs := by
  rw [BufferedFile.close, BufferedFile.flush, empty]
  rfl

/-- Closing without a complaint is flushing. -/
theorem closeCurrent_exact {f : LogFile} {host : Host} {file : BufferedFile}
    (opened : f.current = some file) (quiet : (f.closeCurrent host).reports = host.reports) :
    ∃ files file', file.flush host.files = (files, file', .ok ()) ∧
      f.closeCurrent host = { host with files } := by
  rw [closeCurrent, opened] at quiet ⊢
  dsimp only at quiet ⊢
  rcases flushed : file.flush host.files with ⟨files, file', e | ⟨⟩⟩
  · rw [flushed] at quiet
    exact absurd quiet (report_ne { host with files := file'.close files } _)
  · obtain ⟨-, -, empty, -⟩ := flush_exact flushed
    refine ⟨files, file', rfl, ?_⟩
    dsimp only
    rw [close_ofHandle files empty]

/-- Opening file 0 anew makes it where it is missing, and empties it where it is not. -/
theorem reopen_of_leads {s : LogSeries} {host : Host} {directory : Location}
    (leads : host.files.Leads s.base.folder directory) (fits : (s.path 0).Fits (s.fileName 0)) :
    reopen s host =
      match host.files.entryAt? (s.slot directory 0) with
      | none => (⟨s, some (.ofHandle ⟨host.files.nextNumber, some 0⟩), 0⟩,
          { host with files := host.files.addFile (s.slot directory 0) })
      | some .directory => (⟨s, none, 0⟩, host.report (fallbackReport "reopen" s .isDirectory))
      | some (.file number _) => (⟨s, some (.ofHandle ⟨number, some 0⟩), 0⟩,
          { host with files := host.files.set (s.slot directory 0) (.file number ByteArray.empty) }) := by
  have settled := settled_of_resolve (resolve_of_leads (s.path_splits 0) leads fits)
  rw [reopen, openFresh, makeParents_of_settled settled]
  dsimp only
  rw [openEmptied_of_leads (s.path_splits 0) leads fits, ← slot]
  rcases host.files.entryAt? (s.slot directory 0) with _ | ⟨⟩ | ⟨number, content⟩
  all_goals rfl

theorem reports_closeCurrent (f : LogFile) (host : Host) :
    host.reports <+: (f.closeCurrent host).reports := by
  rw [closeCurrent]
  split
  next fallback => exact List.prefix_refl _
  next file opened =>
    split
    next files file' flushed => exact List.prefix_refl _
    next files file' e refused => exact List.prefix_append _ _

theorem reports_reopen (s : LogSeries) (host : Host) : host.reports <+: (reopen s host).2.reports := by
  rw [reopen]
  split
  next files handle opened => exact List.prefix_refl _
  next files e refused => exact List.prefix_append _ _

theorem reports_start (s : LogSeries) (host : Host) : host.reports <+: (start s host).2.reports := by
  rw [start]
  split
  next files handle size opened => exact List.prefix_refl _
  next files e refused => exact List.prefix_append _ _

theorem reports_rotate (f : LogFile) (host : Host) : host.reports <+: (f.rotate host).2.reports :=
  (f.reports_closeCurrent host).trans
    ((f.series.reports_advance _).trans (reports_reopen f.series _))

/-- Writing to a log file reports nothing; its failure is the caller's to tell. -/
theorem reports_append (f : LogFile) (host : Host) (bytes : ByteArray) :
    (f.append host bytes).2.1.reports = host.reports := by
  rw [append]
  split
  next fallback => rfl
  next file opened =>
    split
    next files file' wrote => rfl
    next files file' e refused => rfl

theorem reports_flush (f : LogFile) (host : Host) : (f.flush host).2.1.reports = host.reports := by
  rw [flush]
  split <;> rfl

/-- Closing is a last flush. -/
theorem close_eq_flush (f : LogFile) (host : Host) : f.close host = (f.flush host).2.1 := by
  rw [close, flush]
  split <;> rfl

/-- What is done to a file system when the files that numbered paths lead to move up and a new file 0
is made. -/
structure Renewed (s : LogSeries) (directory : Location) (fs fs' : FileSystem) : Prop where
  workingDirectory : fs'.workingDirectory = fs.workingDirectory
  nextNumber : fs'.nextNumber = fs.nextNumber + 1
  first : fs'.entryAt? (s.slot directory 0) = some (.file fs.nextNumber ByteArray.empty)
  next : ∀ number < s.maxFiles, (s.path (number + 1)).Fits (s.fileName (number + 1)) →
    fs'.entryAt? (s.slot directory (number + 1)) = fs.entryAt? (s.slot directory number)
  elsewhere : ∀ location, (∀ number ≤ s.maxFiles, (s.path number).Fits (s.fileName number) →
    location ≠ s.slot directory number) → fs'.entryAt? location = fs.entryAt? location

/-- The directories are the same as long as no numbered path led to one. -/
theorem Renewed.directory_iff {s : LogSeries} {directory : Location} {fs fs' : FileSystem}
    (renewed : Renewed s directory fs fs') (files : s.HoldsFiles directory (s.maxFiles + 1) fs)
    (location : Location) :
    fs'.entryAt? location = some .directory ↔ fs.entryAt? location = some .directory := by
  by_cases inside : ∃ number ≤ s.maxFiles, (s.path number).Fits (s.fileName number) ∧
      location = s.slot directory number
  · obtain ⟨number, within, fits, rfl⟩ := inside
    refine iff_of_false ?_ (files number (Nat.lt_succ_of_le within) fits)
    cases number with
    | zero => simp [renewed.first]
    | succ number =>
      rw [renewed.next number within fits]
      exact files number (by omega) (fits_of_le (Nat.le_succ number) fits)
  · rw [renewed.elsewhere location fun number within fits same => inside ⟨number, within, fits, same⟩]

theorem Renewed.keepsDirectories {s : LogSeries} {directory : Location} {fs fs' : FileSystem}
    (renewed : Renewed s directory fs fs') (files : s.HoldsFiles directory (s.maxFiles + 1) fs) :
    KeepsDirectories fs fs' :=
  ⟨renewed.workingDirectory, fun location => (renewed.directory_iff files location).2⟩

/-- Advancing and reopening without a complaint. -/
theorem reopen_advance_exact {s : LogSeries} {host : Host} {directory : Location}
    (leads : host.files.Leads s.base.folder directory)
    (files : s.HoldsFiles directory s.maxFiles host.files)
    (quiet : (reopen s (s.advance host)).2.reports = host.reports) :
    (s.path s.maxFiles).Fits (s.fileName s.maxFiles) ∧
      s.HoldsFiles directory (s.maxFiles + 1) host.files ∧
      (reopen s (s.advance host)).1 =
        ⟨s, some (.ofHandle ⟨host.files.nextNumber, some 0⟩), 0⟩ ∧
      Renewed s directory host.files (reopen s (s.advance host)).2.files := by
  have quietAdvance : (s.advance host).reports = host.reports :=
    eq_of_prefixes (s.reports_advance host) (reports_reopen s _) quiet
  obtain ⟨fits, last, shifted⟩ := advance_exact leads files quietAdvance
  have all : s.HoldsFiles directory (s.maxFiles + 1) host.files := by
    intro number within fits'
    rcases Nat.lt_succ_iff_lt_or_eq.1 within with below | rfl
    · exact files number below fits'
    · exact last
  have keeps := shifted.keepsDirectories fits files last
  have reopened := reopen_of_leads (leads.of_keepsDirectories keeps) (fits_of_le (Nat.zero_le _) fits)
  rw [shifted.first, shifted.nextNumber] at reopened
  have entries := fun location =>
    entryAt?_addFile (s.advance host).files (s.slot_below directory 0) location
  have positive : ∀ number, s.slot directory (number + 1) ≠ s.slot directory 0 := fun number same =>
    absurd (slot_inj.1 same) (Nat.succ_ne_zero number)
  rw [reopened]
  refine ⟨fits, all, rfl, shifted.workingDirectory, congrArg (· + 1) shifted.nextNumber, ?_, ?_, ?_⟩
  · rw [entries, if_pos rfl, shifted.nextNumber]
  · intro number below _
    rw [entries, if_neg (positive number), shifted.next number below]
  · intro location outside
    have unlike : ∀ number ≤ s.maxFiles, location ≠ s.slot directory number :=
      fun number within => outside number within (fits_of_le within fits)
    rw [entries, if_neg (unlike 0 (Nat.zero_le _)), shifted.elsewhere location unlike]

/-- What a rotation has done when file 0 held `whole`. -/
structure Rotated (s : LogSeries) (directory : Location) (number : Nat) (whole : ByteArray)
    (fs fs' : FileSystem) : Prop where
  workingDirectory : fs'.workingDirectory = fs.workingDirectory
  nextNumber : fs'.nextNumber = fs.nextNumber + 1
  first : fs'.entryAt? (s.slot directory 0) = some (.file fs.nextNumber ByteArray.empty)
  second : fs'.entryAt? (s.slot directory 1) = some (.file number whole)
  next : ∀ other, 0 < other → other < s.maxFiles →
    fs'.entryAt? (s.slot directory (other + 1)) = fs.entryAt? (s.slot directory other)
  elsewhere : ∀ location, (∀ other ≤ s.maxFiles, location ≠ s.slot directory other) →
    (∀ content, fs.entryAt? location ≠ some (.file number content)) →
    fs'.entryAt? location = fs.entryAt? location
  keepsDirectories : KeepsDirectories fs fs'

/-- A rotation without a complaint. Besides file 0 no file that moves may have its number. -/
theorem rotate_exact {f : LogFile} {host : Host} {file : BufferedFile} {whole : ByteArray}
    {directory : Location} (opened : f.current = some file)
    (holds : file.Holds host.files (f.series.slot directory 0) whole)
    (leads : host.files.Leads f.series.base.folder directory)
    (files : f.series.HoldsFiles directory f.series.maxFiles host.files)
    (alone : ∀ other, 0 < other → other < f.series.maxFiles →
      (f.series.path other).Fits (f.series.fileName other) → ∀ content,
        host.files.entryAt? (f.series.slot directory other) ≠ some (.file file.handle.number content))
    (quiet : (f.rotate host).2.reports = host.reports) :
    (f.series.path f.series.maxFiles).Fits (f.series.fileName f.series.maxFiles) ∧
      (f.rotate host).1 = ⟨f.series, some (.ofHandle ⟨host.files.nextNumber, some 0⟩), 0⟩ ∧
      Rotated f.series directory file.handle.number whole host.files (f.rotate host).2.files := by
  obtain ⟨s, current, size⟩ := f
  dsimp only at opened holds leads files alone quiet ⊢
  -- Closing and all that follows are without a complaint, since complaints stay.
  have quietClose : ((LogFile.mk s current size).closeCurrent host).reports = host.reports :=
    eq_of_prefixes (reports_closeCurrent _ host)
      ((s.reports_advance _).trans (reports_reopen s _)) quiet
  obtain ⟨flushed, file', flushes, closed⟩ := closeCurrent_exact opened quietClose
  obtain ⟨sameNumber, only, empty, kept⟩ := flush_exact flushes
  have current₁ : flushed.entryAt? (s.slot directory 0) = some (.file file.handle.number whole) := by
    rw [(kept _ whole holds).entryAt? empty, sameNumber]
  have others₁ : ∀ other, 0 < other → other < s.maxFiles → (s.path other).Fits (s.fileName other) →
      flushed.entryAt? (s.slot directory other) = host.files.entryAt? (s.slot directory other) :=
    fun other positive below fits => only.entryAt? _ (alone other positive below fits)
  have files₁ : s.HoldsFiles directory s.maxFiles flushed := by
    intro other below fits
    cases other with
    | zero => simp [current₁]
    | succ other =>
      rw [others₁ (other + 1) (Nat.succ_pos other) below fits]
      exact files (other + 1) below fits
  have rotates : (LogFile.mk s current size).rotate host =
      reopen s (s.advance { host with files := flushed }) := by
    rw [← closed]
    rfl
  rw [rotates] at quiet ⊢
  have leads₁ := leads.of_keepsDirectories only.keepsDirectories
  obtain ⟨fits, all, log, renewed⟩ :=
    @reopen_advance_exact s { host with files := flushed } directory leads₁ files₁ quiet
  rw [log]
  refine ⟨fits, ?_, renewed.workingDirectory.trans only.workingDirectory, ?_, ?_, ?_, ?_, ?_, ?_⟩
  · rw [only.nextNumber]
  · rw [renewed.nextNumber, only.nextNumber]
  · rw [renewed.first, only.nextNumber]
  · rw [renewed.next 0 s.maxFiles_pos (fits_of_le s.maxFiles_pos fits), current₁]
  · intro other positive below
    rw [renewed.next other below (fits_of_le below fits),
      others₁ other positive below (fits_of_le (Nat.le_of_lt below) fits)]
  · intro location outside foreign
    rw [renewed.elsewhere location fun other within _ => outside other within,
      only.entryAt? location foreign]
  · exact only.keepsDirectories.trans (renewed.keepsDirectories all)

/-- Starting makes the directories and opens file 0, or complains and leaves file 0 where it cannot be
read. -/
theorem start_cases (s : LogSeries) (host : Host) :
    (∃ made directory, host.files.makeParents (s.path 0) = (made, .ok ()) ∧
      made.Leads s.base.folder directory ∧ made.Settled (s.path 0) ∧
      (s.path 0).Fits (s.fileName 0) ∧ ∃ files handle size,
        made.openToAppend (s.path 0) = .ok (files, handle, size) ∧
        start s host = (⟨s, some (.ofHandle handle), size⟩, { host with files })) ∨
    ∃ made e, (host.files.makeParents (s.path 0)).1 = made ∧
      (∀ content, made.readBytes (s.path 0) ≠ .ok content) ∧
      start s host = (⟨s, none, 0⟩, { host with files := made }.report (fallbackReport "open" s e)) := by
  rcases prepared : host.files.makeParents (s.path 0) with ⟨made, e | ⟨⟩⟩
  · refine .inr ⟨made, e, rfl, ?_, by rw [start, openCurrent, prepared]⟩
    intro content read
    rw [readBytes, find] at read
    cases resolved : made.resolve (s.path 0) with
    | error e' => simp [resolved] at read
    | ok target => exact resolve_of_makeParents_error prepared target resolved
  · cases resolved : made.resolve (s.path 0) with
    | error e =>
      refine .inr ⟨made, e, rfl, ?_, ?_⟩
      · intro content read
        simp [readBytes, find, resolved] at read
      · rw [start, openCurrent, prepared]
        dsimp only
        rw [openToAppend, resolved]
    | ok target =>
      obtain ⟨directory, leads, fits⟩ := leads_of_resolve (s.path_splits 0) resolved
      cases opened : made.openToAppend (s.path 0) with
      | error e =>
        refine .inr ⟨made, e, rfl, ?_, ?_⟩
        · intro content read
          rw [openToAppend_of_leads (s.path_splits 0) leads fits] at opened
          rw [readBytes, find_of_leads (s.path_splits 0) leads fits] at read
          rcases there : made.entryAt? (String.ofList (s.fileName 0) :: directory) with
            _ | ⟨⟩ | ⟨number, content⟩
          · simp [there] at read
          · simp [there] at read
          · simp [there] at opened
        · rw [start, openCurrent, prepared]
          dsimp only
          rw [opened]
      | ok done =>
        obtain ⟨files, handle, size⟩ := done
        refine .inl ⟨made, directory, rfl, leads, settled_of_makeParents prepared, fits, files, handle,
          size, opened, ?_⟩
        rw [start, openCurrent, prepared]
        dsimp only
        rw [opened]

/-- Starting without a complaint: the directories are made, file 0 opened, and its size is that of
its content. -/
theorem start_exact {s : LogSeries} {host : Host} (quiet : (start s host).2.reports = host.reports) :
    ∃ made directory, host.files.makeParents (s.path 0) = (made, .ok ()) ∧
      made.Leads s.base.folder directory ∧ made.Settled (s.path 0) ∧
      (s.path 0).Fits (s.fileName 0) ∧ ∃ files handle size,
        made.openToAppend (s.path 0) = .ok (files, handle, size) ∧
        start s host = (⟨s, some (.ofHandle handle), size⟩, { host with files }) := by
  rcases start_cases s host with opened | ⟨made, e, -, -, started⟩
  · exact opened
  · rw [started] at quiet
    exact absurd quiet (report_ne { host with files := made } _)

/-- Starting again where file 0 is there changes nothing on the disk. No complaint can arise. -/
theorem start_of_present {s : LogSeries} {host : Host} {directory : Location} {number : Nat}
    {content : ByteArray} (leads : host.files.Leads s.base.folder directory)
    (settled : host.files.Settled (s.path 0)) (fits : (s.path 0).Fits (s.fileName 0))
    (there : host.files.entryAt? (s.slot directory 0) = some (.file number content)) :
    start s host = (⟨s, some (.ofHandle ⟨number, none⟩), content.size⟩, host) := by
  rw [start, openCurrent, makeParents_of_settled settled]
  dsimp only
  rw [openToAppend_of_leads (s.path_splits 0) leads fits, ← slot, there]

/-- A record is written as it is if the bytes counted leave room for it, or are none. -/
theorem consume_of_room {f : LogFile} (host : Host) {r : Record}
    (room : f.size = 0 ∨ f.size + (f.series.line r).size ≤ f.series.maxBytes) :
    f.consume host r = f.append host (f.series.line r) := by
  have notDue : f.isDue (f.series.line r).size = false := by
    simp only [isDue, Bool.and_eq_false_iff, decide_eq_false_iff_not]
    omega
  simp only [consume, notDue, Bool.false_eq_true, if_false]

/-- Otherwise it is written after a rotation, if there is a file to be rotated. -/
theorem consume_of_full {f : LogFile} (host : Host) {r : Record} {file : BufferedFile}
    (opened : f.current = some file)
    (full : ¬(f.size = 0 ∨ f.size + (f.series.line r).size ≤ f.series.maxBytes)) :
    f.consume host r = (f.rotate host).1.append (f.rotate host).2 (f.series.line r) := by
  have due : f.isDue (f.series.line r).size = true := by
    simp only [isDue, isFallback, opened, Option.isNone_some, Bool.not_false, Bool.true_and,
      decide_eq_true_eq]
    omega
  simp only [consume, due, if_true]

/-- Writing that completes adds the bytes to what file 0 holds and counts them. -/
theorem append_exact {f f' : LogFile} {host host' : Host} {file : BufferedFile} {bytes : ByteArray}
    (opened : f.current = some file) (done : f.append host bytes = (f', host', .completed)) :
    ∃ files file', file.write host.files bytes = (files, file', .ok ()) ∧
      f' = { f with current := some file', size := f.size + bytes.size } ∧
      host' = { host with files } := by
  rw [append, opened] at done
  dsimp only at done
  rcases wrote : file.write host.files bytes with ⟨files, file', e | ⟨⟩⟩
  · simp [wrote] at done
  · simp only [wrote, Prod.mk.injEq] at done
    exact ⟨files, file', rfl, done.1.symm, done.2.1.symm⟩

theorem flush_exact {f f' : LogFile} {host host' : Host} {file : BufferedFile}
    (opened : f.current = some file) (done : f.flush host = (f', host', .completed)) :
    ∃ files file', file.flush host.files = (files, file', .ok ()) ∧
      f' = { f with current := some file' } ∧ host' = { host with files } := by
  rw [flush, opened] at done
  dsimp only at done
  rcases wrote : file.flush host.files with ⟨files, file', e | ⟨⟩⟩
  · simp [wrote, Outcome.ofExcept] at done
  · simp only [wrote, Prod.mk.injEq] at done
    exact ⟨files, file', rfl, done.1.symm, done.2.1.symm⟩

end LogFile

end KeyValueService
