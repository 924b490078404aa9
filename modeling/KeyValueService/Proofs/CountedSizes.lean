import KeyValueService.Proofs.ObstructedRotation

/-!
# The bytes that a log file counts

A log file counts the bytes of file 0 and does not ask the disk again. Started on whatever files there
are, and started again with other bounds, it counts exactly what is on the disk and what is held back.
Main statement: `each_write_bounded`. After each record file 0 is within the bound, or it has that
record alone; and a record is written behind the others wherever it fits, or where there are none.

The invariant (`Counted`) ties the count to the bytes of file 0 and those held back. It is lost in no
rotation: where no number of the series is that of a directory, files move and directories stay, so that
file 0 can be opened anew and the count begins with nothing.
-/

namespace KeyValueService

namespace FileSystem

/-- Removing a file removes no directory. -/
theorem keepsDirectories_remove {fs files : FileSystem} {p : Path} (done : fs.remove p = .ok files) :
    KeepsDirectories fs files := by
  unfold remove at done
  split at done
  next e refused => cases done
  next location slash isNamed resolved => cases done
  next location slash isNamed resolved => cases done
  next location number content isNamed resolved => cases done
  next location number content isNamed resolved =>
    cases done
    have there : some (.file number content) = fs.entryAt? location := entry_of_resolve resolved
    have below : location ≠ [] := by
      rintro rfl
      cases there
    exact keepsDirectories_unset fs below (by simp [← there])

/-- A file moves over nothing or over a file, and no directory goes. -/
theorem keepsDirectories_renameFile {fs files : FileSystem} {source target : Location} {number : Nat}
    {content : ByteArray} (below : source ≠ []) (below' : target ≠ [])
    (there : fs.entryAt? source = some (.file number content))
    (done : fs.renameFile source target (.file number content) (fs.entryAt? target) = .ok files) :
    KeepsDirectories fs files := by
  by_cases free : fs.entryAt? target = some .directory
  · rw [free] at done
    cases done
  rw [renameFile] at done
  · by_cases same : source = target
    · rw [if_pos same] at done
      cases done
      exact .refl fs
    · rw [if_neg same] at done
      cases done
      have unset := keepsDirectories_unset fs below (by simp [there])
      refine unset.trans (keepsDirectories_set _ below' _ ?_)
      rwa [entryAt?_unset fs below, if_neg (Ne.symm same)]
  · exact free

/-- Writing makes no directories. -/
theorem directory_of_write {fs fs' : FileSystem} {handle handle' : Handle} {bytes : ByteArray}
    (done : fs.write handle bytes = .ok (fs', handle')) {location : Location}
    (there : fs'.entryAt? location = some .directory) : fs.entryAt? location = some .directory := by
  by_cases nothing : bytes.size = 0
  · rw [FileSystem.write, if_pos nothing] at done
    cases done
    exact there
  · rw [entryAt?_write done nothing] at there
    obtain ⟨entry, before, same⟩ := Option.map_eq_some_iff.1 there
    cases entry with
    | directory => exact before
    | file number content =>
      rw [filled] at same
      split at same <;> cases same

end FileSystem

namespace BufferedFile

open FileSystem

theorem directory_of_flush {fs : FileSystem} {file : BufferedFile} {location : Location}
    (there : (file.flush fs).1.entryAt? location = some .directory) :
    fs.entryAt? location = some .directory := by
  rw [flush] at there
  split at there
  next files handle wrote => exact directory_of_write wrote there
  next e refused => exact there

theorem directory_of_write {fs : FileSystem} {file : BufferedFile} {bytes : ByteArray}
    {location : Location} (there : (file.write fs bytes).1.entryAt? location = some .directory) :
    fs.entryAt? location = some .directory := by
  rw [write] at there
  split at there
  next fits => exact there
  next full =>
    rcases flushed : file.flush fs with ⟨files, file', e | ⟨⟩⟩
    all_goals
      have before := @directory_of_flush fs file location
      rw [flushed] at before there
      dsimp only at before there
    · exact before there
    · split at there
      next short => exact before there
      next long =>
        split at there
        next files' handle wrote => exact before (FileSystem.directory_of_write wrote there)
        next e refused => exact before there

end BufferedFile

namespace LogSeries

open FileSystem

/-- No number of a series is that of a directory. -/
def Plain (s : LogSeries) (directory : Location) (fs : FileSystem) : Prop :=
  ∀ number, (s.path number).Fits (s.fileName number) →
    s.numbered directory fs number ≠ some .directory

/-- No path of a series leads to a directory, however many of the directories that it lies in have been
made. -/
def Regular (s : LogSeries) (fs : FileSystem) : Prop :=
  ∀ fs', Prepared (s.path 0) fs fs' → ∀ number, fs'.isDirectory (s.path number) = false

variable {s : LogSeries} {host : Host} {directory : Location}

theorem Regular.plain {fs fs' : FileSystem} (regular : s.Regular fs)
    (prepared : Prepared (s.path 0) fs fs') (leads : fs'.Leads s.base.folder directory) :
    s.Plain directory fs' := by
  intro number fits there
  have isDirectory : fs'.isDirectory (s.path number) = true :=
    isDirectory_iff.2 ⟨_, resolve_of_leads (s.path_splits number) leads fits, there⟩
  rw [regular fs' prepared number] at isDirectory
  cases isDirectory

theorem Plain.of_directories {fs fs' : FileSystem} (plain : s.Plain directory fs)
    (directories : ∀ location, fs'.entryAt? location = some .directory →
      fs.entryAt? location = some .directory) : s.Plain directory fs' :=
  fun number fits there => plain number fits (directories _ there)

/-- Removing the oldest file removes no directory and makes none. -/
theorem dropOldest_of_plain (leads : host.files.Leads s.base.folder directory)
    (plain : s.Plain directory host.files) :
    KeepsDirectories host.files (s.dropOldest host).files ∧
      s.Plain directory (s.dropOldest host).files := by
  constructor
  · rw [dropOldest]
    split
    next files removed => exact keepsDirectories_remove removed
    next missing => exact .refl _
    next e missing refused => exact .refl _
  · obtain ⟨-, others, last, -⟩ := dropOldest_cases leads
    intro number fits
    by_cases isLast : number = s.maxFiles
    · subst isLast
      rcases last with gone | stays
      · simp [gone]
      · rw [stays]
        exact plain _ fits
    · rw [others number isLast]
      exact plain number fits

/-- With no directory under a number, a shift moves a file or nothing. -/
theorem shift_of_plain (leads : host.files.Leads s.base.folder directory)
    (plain : s.Plain directory host.files) (number : Nat) :
    KeepsDirectories host.files (s.shift host number).files ∧
      s.Plain directory (s.shift host number).files := by
  constructor
  · by_cases fits : (s.path (number + 1)).Fits (s.fileName (number + 1))
    · have fits' := fits_of_le (Nat.le_succ number) fits
      rw [shift]
      split
      next known =>
        split
        next files renamed =>
          rw [pathExists_of_leads (s.path_splits number) leads fits', ← slot] at known
          obtain ⟨entry, there⟩ := Option.isSome_iff_exists.1 known
          cases entry with
          | directory => exact absurd there (plain number fits')
          | file fileNumber content =>
            rw [rename_of_leads (s.path_splits number) leads fits' (s.path_splits (number + 1)) leads
              fits there, ← slot, ← slot] at renamed
            exact keepsDirectories_renameFile (s.slot_below _ _) (s.slot_below _ _) there renamed
        next e refused => exact .refl _
      next missing => exact .refl _
    · rw [shift_of_not_fits leads fits]
      exact .refl _
  · intro other fits
    rcases (shift_cases leads number).2 with ⟨stays, -⟩ | ⟨fits', moves⟩
    · rw [stays]
      exact plain other fits
    · rw [moves, raised]
      split
      next isNext => exact plain number (fits_of_le (Nat.le_succ number) fits')
      next elsewhere =>
        split
        next own => simp
        next foreign => exact plain other fits

/-- With no directory under a number, an advance removes no directory and makes none. -/
theorem advance_of_plain (leads : host.files.Leads s.base.folder directory)
    (plain : s.Plain directory host.files) :
    KeepsDirectories host.files (s.advance host).files ∧ s.Plain directory (s.advance host).files := by
  have shifts : ∀ count (host : Host), host.files.Leads s.base.folder directory →
      s.Plain directory host.files → KeepsDirectories host.files (s.shiftBelow host count).files ∧
        s.Plain directory (s.shiftBelow host count).files := by
    intro count
    induction count with
    | zero => exact fun host leads plain => ⟨.refl _, plain⟩
    | succ count inductionHypothesis =>
      intro host leads plain
      obtain ⟨keeps, plain'⟩ := shift_of_plain leads plain count
      obtain ⟨keeps', plain''⟩ :=
        inductionHypothesis (s.shift host count) (leads.of_keepsDirectories keeps) plain'
      exact ⟨keeps.trans keeps', plain''⟩
  obtain ⟨keeps, plain'⟩ := dropOldest_of_plain leads plain
  obtain ⟨keeps', plain''⟩ := shifts s.maxFiles _ (leads.of_keepsDirectories keeps) plain'
  exact ⟨keeps.trans keeps', plain''⟩

end LogSeries

namespace LogFile

open FileSystem LogSeries

/-- Closing makes no directories. -/
theorem directory_of_closeCurrent {f : LogFile} {host : Host} {location : Location}
    (there : (f.closeCurrent host).files.entryAt? location = some .directory) :
    host.files.entryAt? location = some .directory := by
  rw [closeCurrent] at there
  split at there
  next fallback => exact there
  next file opened =>
    have before := @BufferedFile.directory_of_flush host.files file location
    rcases flushed : file.flush host.files with ⟨files, file', e | ⟨⟩⟩
    all_goals
      rw [flushed] at before there
      exact before (BufferedFile.directory_of_flush there)

/-- How a log file with its open file and the disk have the bytes counted. Nothing is in the way of
rotations. -/
structure Counted (f : LogFile) (files : FileSystem) (directory : Location) (file : BufferedFile)
    (whole : ByteArray) : Prop where
  current : f.current = some file
  size : f.size = whole.size
  leads : files.Leads f.series.base.folder directory
  fits : (f.series.path 0).Fits (f.series.fileName 0)
  plain : f.series.Plain directory files
  holds : file.Holds files (f.series.slot directory 0) whole

/-- With an empty file put in the place of file 0, whatever file was there, nothing is counted. -/
theorem counted_of_put {s : LogSeries} {fs files : FileSystem} {directory : Location} {handle : Handle}
    (leads : fs.Leads s.base.folder directory) (fits : (s.path 0).Fits (s.fileName 0))
    (plain : s.Plain directory fs) (workingDirectory : files.workingDirectory = fs.workingDirectory)
    (entries : ∀ other, files.entryAt? other = if other = s.slot directory 0 then
      some (.file handle.number ByteArray.empty) else fs.entryAt? other)
    (atStart : ∀ position ∈ handle.offset, position = 0) :
    Counted ⟨s, some (.ofHandle handle), 0⟩ files directory (.ofHandle handle) ByteArray.empty := by
  have keeps : KeepsDirectories fs files := by
    refine ⟨workingDirectory, fun location there => ?_⟩
    rw [entries, if_neg, there]
    rintro rfl
    exact plain 0 fits there
  refine ⟨rfl, rfl, leads.of_keepsDirectories keeps, fits, ?_, ByteArray.empty, ?_, rfl, atStart⟩
  · refine plain.of_directories fun location there => ?_
    rw [entries] at there
    split at there
    next own => cases there
    next other => exact there
  · rw [entries, if_pos rfl]
    rfl

/-- Opening file 0 anew succeeds, and it is empty then. -/
theorem reopen_of_plain {s : LogSeries} {host : Host} {directory : Location}
    (leads : host.files.Leads s.base.folder directory) (fits : (s.path 0).Fits (s.fileName 0))
    (plain : s.Plain directory host.files) :
    (reopen s host).1.series = s ∧ ∃ file,
      Counted (reopen s host).1 (reopen s host).2.files directory file ByteArray.empty := by
  have below := s.slot_below directory 0
  have atStart : ∀ position ∈ some 0, position = 0 := by simp
  rw [reopen_of_leads leads fits]
  rcases there : host.files.entryAt? (s.slot directory 0) with _ | ⟨⟩ | ⟨number, content⟩
  · have entries := entryAt?_addFile host.files below
    exact ⟨rfl, _, counted_of_put leads fits plain rfl entries atStart⟩
  · exact absurd there (plain 0 fits)
  · have entries := entryAt?_set host.files below (.file number ByteArray.empty)
    exact ⟨rfl, _, counted_of_put leads fits plain rfl entries atStart⟩

namespace Counted

variable {f f' : LogFile} {host host' : Host} {directory : Location} {file : BufferedFile}
  {whole : ByteArray}

/-- Bytes that are written join those that file 0 is to have, and are counted. -/
theorem append {bytes : ByteArray} (counted : Counted f host.files directory file whole)
    (done : f.append host bytes = (f', host', .completed)) :
    f'.series = f.series ∧ ∃ file', Counted f' host'.files directory file' (whole ++ bytes) := by
  obtain ⟨files, file', wrote, rfl, rfl⟩ := append_exact counted.current done
  obtain ⟨-, only, exact⟩ := BufferedFile.write_exact wrote
  refine ⟨rfl, file', rfl, ?_, counted.leads.of_keepsDirectories only.keepsDirectories, counted.fits,
    ?_, exact _ _ counted.holds⟩
  · rw [ByteArray.size_append, ← counted.size]
  · refine counted.plain.of_directories fun location there => ?_
    have before := @BufferedFile.directory_of_write host.files file bytes location
    rw [wrote] at before
    exact before there

/-- A flush changes no count, and leaves nothing held back. -/
theorem flush (counted : Counted f host.files directory file whole)
    (done : f.flush host = (f', host', .completed)) :
    f'.series = f.series ∧ ∃ file', file'.pending = ByteArray.empty ∧
      Counted f' host'.files directory file' whole := by
  obtain ⟨files, file', wrote, rfl, rfl⟩ := LogFile.flush_exact counted.current done
  obtain ⟨-, only, empty, exact⟩ := BufferedFile.flush_exact wrote
  refine ⟨rfl, file', empty, rfl, counted.size,
    counted.leads.of_keepsDirectories only.keepsDirectories, counted.fits, ?_, exact _ _ counted.holds⟩
  refine counted.plain.of_directories fun location there => ?_
  have before := @BufferedFile.directory_of_flush host.files file location
  rw [wrote] at before
  exact before there

/-- A rotation leads to an empty file 0, also where it complains. -/
theorem rotate (counted : Counted f host.files directory file whole) :
    (f.rotate host).1.series = f.series ∧ ∃ file',
      Counted (f.rotate host).1 (f.rotate host).2.files directory file' ByteArray.empty := by
  obtain ⟨content, there, -, atEnd⟩ := counted.holds
  have keeps := (closeCurrent_cases counted.current there atEnd).1.keepsDirectories
  have leads := counted.leads.of_keepsDirectories keeps
  have plain : f.series.Plain directory (f.closeCurrent host).files :=
    counted.plain.of_directories fun location there => directory_of_closeCurrent there
  obtain ⟨keeps', plain'⟩ := advance_of_plain leads plain
  exact reopen_of_plain (leads.of_keepsDirectories keeps') counted.fits plain'

/-- After a record file 0 is to have no more than the bound, or the record alone. -/
theorem consume {r : Record} (counted : Counted f host.files directory file whole)
    (done : f.consume host r = (f', host', .completed)) :
    f'.series = f.series ∧ ∃ file' whole', Counted f' host'.files directory file' whole' ∧
      (whole'.size ≤ f.series.maxBytes ∨ whole' = f.series.line r) := by
  by_cases room : f.size = 0 ∨ f.size + (f.series.line r).size ≤ f.series.maxBytes
  · rw [consume_of_room host room] at done
    obtain ⟨series, file', appended⟩ := counted.append done
    refine ⟨series, file', _, appended, ?_⟩
    rw [counted.size] at room
    rcases room with nothing | fits
    · right
      rw [ByteArray.size_eq_zero_iff.1 nothing, ByteArray.empty_append]
    · left
      rwa [ByteArray.size_append]
  · rw [consume_of_full host counted.current room] at done
    obtain ⟨series, file₁, rotated⟩ := counted.rotate
    obtain ⟨series', file', appended⟩ := rotated.append done
    exact ⟨series'.trans series, file', _, appended, .inr ByteArray.empty_append⟩

/-- Started again, with any bounds, a log file counts what it finds, which is what was counted. -/
theorem start (counted : Counted f host.files directory file whole)
    (empty : file.pending = ByteArray.empty) (maxBytes maxFiles : Nat) (style : FileStyle) :
    ∃ file', Counted (LogFile.start (.of f.series.base maxBytes maxFiles style) host).1
      (LogFile.start (.of f.series.base maxBytes maxFiles style) host).2.files directory file' whole := by
  have settled := settled_of_resolve
    (resolve_of_leads (f.series.path_splits 0) counted.leads counted.fits)
  have there := counted.holds.entryAt? empty
  rw [@start_of_present (.of f.series.base maxBytes maxFiles style) host directory file.handle.number
    whole counted.leads settled counted.fits there]
  exact ⟨_, rfl, rfl, counted.leads, counted.fits, counted.plain, whole, there,
    ByteArray.append_empty, by simp [BufferedFile.ofHandle]⟩

/-- The bytes counted are those of file 0 on the disk and those held back. -/
theorem readBytes (counted : Counted f host.files directory file whole) :
    ∃ content, host.files.readBytes (f.series.path 0) = .ok content ∧
      content ++ file.pending = whole := by
  obtain ⟨content, there, joined, -⟩ := counted.holds
  exact ⟨content, readBytes_of_leads (f.series.path_splits 0) counted.leads counted.fits there, joined⟩

end Counted

/-- Without a file records are printed, and flushing does nothing. -/
theorem consume_of_fallback {f : LogFile} (host : Host) (none : f.current = none) {r : Record} :
    f.consume host r = ({ f with size := f.size + (f.series.line r).size },
      host.print (f.series.line r), .completed) := by
  have notDue : f.isDue (f.series.line r).size = false := by simp [isDue, isFallback, none]
  simp only [consume, notDue, Bool.false_eq_true, if_false]
  rw [append, none]

theorem flush_of_fallback {f : LogFile} (host : Host) (none : f.current = none) :
    f.flush host = (f, host, .completed) := by
  rw [flush, none]

/-- What a log file is used for. One that is reopened is closed and started again at the same place,
perhaps with other bounds or in another style. -/
inductive Use
  | consume (r : Record)
  | flush
  | reopen (maxBytes maxFiles : Nat) (style : FileStyle)

namespace Use

/-- Uses a log file once. Reopening ends as the last attempt to write what was held back does. -/
def apply (f : LogFile) (host : Host) : Use → LogFile × Host × Outcome
  | consume r => f.consume host r
  | flush => f.flush host
  | reopen maxBytes maxFiles style =>
    let (started, host') :=
      LogFile.start (.of f.series.base maxBytes maxFiles style) (f.close host)
    (started, host', (f.flush host).2.2)

/-- Uses a log file several times, one after the other. -/
def run (f : LogFile) (host : Host) : List Use → LogFile × Host × List Outcome
  | [] => (f, host, [])
  | use :: rest =>
    let (f, host, outcome) := use.apply f host
    let (f, host, outcomes) := run f host rest
    (f, host, outcome :: outcomes)

end Use

/-- A log file at a place either counts the bytes of file 0, or it has no file, and there is none to be
read either. -/
inductive Accounted (base : Path) (f : LogFile) (host : Host) : Prop
  | file {directory : Location} {file : BufferedFile} {whole : ByteArray} (based : f.series.base = base)
      (counted : Counted f host.files directory file whole)
  | fallback (based : f.series.base = base) (none : f.current = none)
      (unreadable : ∀ content, host.files.readBytes (f.series.path 0) ≠ .ok content)
      (regular : f.series.Regular host.files)

namespace Accounted

variable {base : Path} {f : LogFile} {host : Host}

theorem start (s : LogSeries) (regular : s.Regular host.files) :
    Accounted s.base (LogFile.start s host).1 (LogFile.start s host).2 := by
  have prepares := prepared_of_makeParents host.files (s.path 0)
  rcases start_cases s host with
    ⟨made, directory, prepared, leads, -, fits, files, handle, size, opened, started⟩ |
      ⟨made, e, prepared, unreadable, started⟩
  · rw [prepared] at prepares
    have plain := regular.plain prepares leads
    rw [openToAppend_of_leads (s.path_splits 0) leads fits, ← slot] at opened
    rw [started]
    rcases there : made.entryAt? (s.slot directory 0) with _ | ⟨⟩ | ⟨number, content⟩
    · rw [there] at opened
      cases opened
      have entries := entryAt?_addFile made (s.slot_below directory 0)
      exact .file rfl (counted_of_put leads fits plain rfl entries (by simp))
    · rw [there] at opened
      cases opened
    · rw [there] at opened
      cases opened
      exact .file rfl ⟨rfl, rfl, leads, fits, plain, content, there, ByteArray.append_empty,
        by simp [BufferedFile.ofHandle]⟩
  · rw [prepared] at prepares
    rw [started]
    exact .fallback rfl rfl unreadable fun fs' more => regular fs' (prepares.trans more)

/-- One use without a failure. -/
theorem apply (accounted : Accounted base f host) {use : Use}
    (completed : (use.apply f host).2.2 = .completed) :
    Accounted base (use.apply f host).1 (use.apply f host).2.1 := by
  cases accounted with
  | @file directory file whole based counted =>
    cases use with
    | consume r =>
      obtain ⟨series, file', whole', counted', -⟩ :=
        counted.consume (Prod.ext rfl (Prod.ext rfl completed))
      exact .file (series ▸ based) counted'
    | flush =>
      obtain ⟨series, file', -, counted'⟩ := counted.flush (Prod.ext rfl (Prod.ext rfl completed))
      exact .file (series ▸ based) counted'
    | reopen maxBytes maxFiles style =>
      rcases flushed : f.flush host with ⟨f₁, host₁, outcome⟩
      rw [Use.apply, flushed] at completed
      dsimp only at completed
      subst completed
      obtain ⟨series, file₁, empty, counted₁⟩ := counted.flush flushed
      obtain ⟨file', counted'⟩ := counted₁.start empty maxBytes maxFiles style
      have closed : f.close host = host₁ := by rw [close_eq_flush, flushed]
      rw [series] at counted'
      rw [Use.apply, closed]
      have base' : (LogFile.start (.of f.series.base maxBytes maxFiles style) host₁).1.series.base =
          f.series.base := by
        rw [LogFile.start]
        split <;> rfl
      exact .file (base'.trans based) counted'
  | fallback based none unreadable regular =>
    cases use with
    | consume r =>
      rw [Use.apply, consume_of_fallback host none]
      exact .fallback based none unreadable regular
    | flush =>
      rw [Use.apply, flush_of_fallback host none]
      exact .fallback based none unreadable regular
    | reopen maxBytes maxFiles style =>
      have closed : f.close host = host := by rw [close, none]
      rw [Use.apply, closed]
      subst based
      exact start (.of f.series.base maxBytes maxFiles style) regular

/-- Any uses, by induction on them. -/
theorem run {uses : List Use} (accounted : Accounted base f host)
    (completed : ∀ outcome ∈ (Use.run f host uses).2.2, outcome = .completed) :
    Accounted base (Use.run f host uses).1 (Use.run f host uses).2.1 := by
  induction uses generalizing f host with
  | nil => exact accounted
  | cons use rest inductionHypothesis =>
    exact inductionHypothesis (accounted.apply (completed _ List.mem_cons_self))
      fun outcome member => completed outcome (List.mem_cons_of_mem _ member)

end Accounted

end LogFile

open FileSystem LogFile

/-- A log file is started where a series has any regular files or none, and used any number of times, as
often reopened with other bounds as one likes, and no write fails.

* If it has a file, the bytes counted are those of file 0 on the disk and those held back. A record is
  written without a rotation if these are none, or if it fits behind them.
* If it has no file, there is no file 0 to be read.
* After one more record and a flush nothing is held back, so that the bytes counted are those of file 0
  on the disk, and file 0 is within the bound or has this record alone. No rotation has left the log
  file without a file.

Proof: `Accounted` holds when the log file is started and is kept by each use. With no directory in the
way a rotation ends with an empty file 0, whatever it could not remove or rename. -/
theorem each_write_bounded (base : Path) (maxBytes maxFiles : Nat) (style : FileStyle) (host : Host)
    (uses : List Use) {started : LogFile × Host} {ended : LogFile × Host × List Outcome}
    (opened : LogFile.start (.of base maxBytes maxFiles style) host = started)
    (ran : Use.run started.1 started.2 uses = ended)
    (regular : (LogSeries.of base maxBytes maxFiles style).Regular host.files)
    (completed : ∀ outcome ∈ ended.2.2, outcome = .completed) :
    let f := ended.1
    let host := ended.2.1
    let s := f.series
    s.base = base ∧
      (f.isFallback = false → ∃ file content, f.current = some file ∧
        host.files.readBytes (s.path 0) = .ok content ∧ f.size = content.size + file.pending.size ∧
        ∀ r, f.size = 0 ∨ f.size + (s.line r).size ≤ s.maxBytes →
          f.consume host r = f.append host (s.line r)) ∧
      (f.isFallback = true → ∀ content, host.files.readBytes (s.path 0) ≠ .ok content) ∧
      ∀ r f₁ host₁ f₂ host₂, f.consume host r = (f₁, host₁, .completed) →
        f₁.flush host₁ = (f₂, host₂, .completed) → f₂.isFallback = f.isFallback ∧
          (∀ file, f₂.current = some file → file.pending = ByteArray.empty ∧
            ∃ content, host₂.files.readBytes (s.path 0) = .ok content ∧ f₂.size = content.size) ∧
          ∀ content, host₂.files.readBytes (s.path 0) = .ok content →
            content.size ≤ s.maxBytes ∨ content = s.line r := by
  intro f host' s
  subst opened ran
  have accounted := (Accounted.start (.of base maxBytes maxFiles style) regular).run completed
  cases accounted with
  | @file directory file whole based counted =>
    have isFile : f.isFallback = false := by rw [isFallback, counted.current]; rfl
    refine ⟨based, fun _ => ?_, fun fallback => ?_, ?_⟩
    · obtain ⟨content, read, joined⟩ := counted.readBytes
      refine ⟨file, content, counted.current, read, ?_, fun r room => consume_of_room host' room⟩
      rw [← ByteArray.size_append, joined]
      exact counted.size
    · rw [isFile] at fallback
      cases fallback
    · intro r f₁ host₁ f₂ host₂ consumed flushed
      obtain ⟨series, file₁, whole₁, counted₁, bound⟩ := counted.consume consumed
      obtain ⟨series', file₂, empty, counted₂⟩ := counted₁.flush flushed
      obtain ⟨written, read, rfl⟩ := counted₂.readBytes
      rw [series', series] at read
      rw [empty, ByteArray.append_empty] at bound counted₂
      refine ⟨?_, fun file₃ current => ?_, fun content read' => ?_⟩
      · rw [isFile, isFallback, counted₂.current]
        rfl
      · rw [counted₂.current] at current
        cases current
        exact ⟨empty, written, read, counted₂.size⟩
      · rw [read] at read'
        cases read'
        exact bound
  | fallback based none unreadable regular' =>
    have isFallback : f.isFallback = true := by rw [isFallback, none]; rfl
    refine ⟨based, fun isFile => ?_, fun _ => unreadable, ?_⟩
    · rw [isFallback] at isFile
      cases isFile
    · intro r f₁ host₁ f₂ host₂ consumed flushed
      rw [consume_of_fallback host' none] at consumed
      cases consumed
      rw [@flush_of_fallback { f with size := f.size + (f.series.line r).size } _ none] at flushed
      cases flushed
      refine ⟨rfl, fun file current => ?_, fun content read => absurd read (unreadable content)⟩
      rw [none] at current
      cases current

/-- With nothing but files, a series in the working directory has regular files or none. -/
theorem regular_of_files {s : LogSeries} {fs : FileSystem} (single : (s.path 0).parent? = some ⟨""⟩)
    (files : ∀ location, (location, Entry.directory) ∉ fs.entries) : s.Regular fs := by
  have settled : fs.Settled (s.path 0) := by
    intro above lies named
    rw [single] at lies
    cases lies
    exact absurd rfl named
  intro fs' prepared number
  rw [prepared.eq_of_settled settled]
  by_contra isDirectory
  rw [Bool.not_eq_false] at isDirectory
  obtain ⟨target, resolved, there⟩ := isDirectory_iff.1 isDirectory
  obtain ⟨directory, leads, fits⟩ := leads_of_resolve (s.path_splits number) resolved
  rw [resolve_of_leads (s.path_splits number) leads fits] at resolved
  cases resolved
  exact files _ (mem_of_lookup? there)

/-- A file 0 that is longer than the bounds to come. -/
def overfull : FileSystem where
  entries := [(["app.0.log"], .file 0
    "Something else has written this line, and it has more than sixty bytes.\n".toUTF8)]
  workingDirectory := []
  nextNumber := 1
  full := false

/-- The long file 0 makes way for a record. Reopened with a larger bound, it takes another one, and
reopened with a smaller one than it then has, it makes way again. -/
theorem write_after_long_file :
    let r : Record := ⟨⟨0⟩, 1, .info, none, "hello"⟩
    let s := LogSeries.of ⟨"app"⟩ 60 1 .line
    let started := LogFile.start s (.ofFiles overfull)
    let ended := Use.run started.1 started.2
      [.consume r, .reopen 200 2 .line, .consume r, .flush, .reopen 50 1 .json]
    let consumed := ended.1.consume ended.2.1 r
    let flushed := consumed.1.flush consumed.2.1
    s.Regular overfull ∧ (∀ outcome ∈ ended.2.2, outcome = .completed) ∧
      ended.1.isFallback = false ∧ 50 < ended.1.size ∧
      (flushed.2.1.files.readBytes (ended.1.series.path 0)).isOk = true ∧
      (∀ file, flushed.1.current = some file → file.pending = ByteArray.empty ∧
        ∃ content, flushed.2.1.files.readBytes (ended.1.series.path 0) = .ok content ∧
          flushed.1.size = content.size) ∧
      ∀ content, flushed.2.1.files.readBytes (ended.1.series.path 0) = .ok content →
        content.size ≤ ended.1.series.maxBytes ∨ content = ended.1.series.line r := by
  intro r s started ended consumed flushed
  have regular : s.Regular overfull := by
    refine regular_of_files (by decide +kernel) fun location member => ?_
    rcases List.mem_singleton.1 member with ⟨⟩
  obtain ⟨completed, consumes, flushes, isFile, long, read⟩ :
      (∀ outcome ∈ ended.2.2, outcome = .completed) ∧ consumed.2.2 = .completed ∧
        flushed.2.2 = .completed ∧ ended.1.isFallback = false ∧ 50 < ended.1.size ∧
        (flushed.2.1.files.readBytes (ended.1.series.path 0)).isOk = true := by
    decide +kernel
  have bounded := (each_write_bounded ⟨"app"⟩ 60 1 .line (.ofFiles overfull)
    [.consume r, .reopen 200 2 .line, .consume r, .flush, .reopen 50 1 .json] (Eq.refl started)
    (Eq.refl ended) regular completed).2.2.2 r consumed.1 consumed.2.1 flushed.1 flushed.2.1
    (by rw [← consumes]) (by rw [← flushes])
  exact ⟨regular, completed, isFile, long, read, bounded.2⟩

end KeyValueService
