import KeyValueService.Proofs.FileRotation
import Mathlib.Data.List.Induction

/-!
# Log files pack their lines greedily

The lines written to a log file are cut into chunks: a line joins the current chunk if that
has no line yet or stays within the bound, and begins a new one otherwise. The files of the
series hold the latest chunks, one each, file 0 the current one. Where the log file was
flushed, or closed and started again, is not to be seen in them.

The invariant (`Tracks`) ties the bytes counted, those held back and the files on the disk to
the chunks. File 0 has a number that no older file has, and no file yet to be made, so
writing reaches file 0 alone.
-/

namespace KeyValueService

/-- Lines cut into chunks: the current chunk, and those before it, the latest first. -/
structure Packing where
  current : List ByteArray
  older : List (List ByteArray)

namespace Packing

/-- The size of a chunk in bytes. -/
def total (chunk : List ByteArray) : Nat :=
  chunk.foldl (fun size line => size + line.size) 0

/-- The bytes of a chunk. -/
def joined (chunk : List ByteArray) : ByteArray :=
  chunk.foldl (· ++ ·) ByteArray.empty

/-- No line has been cut off yet. -/
def empty : Packing := ⟨[], []⟩

/-- A line joins the current chunk if that is empty or stays within the bound. -/
def add (bound : Nat) (p : Packing) (line : ByteArray) : Packing :=
  if p.current = [] ∨ total p.current + line.size ≤ bound then
    { p with current := p.current ++ [line] }
  else ⟨[line], p.current :: p.older⟩

/-- Lines cut greedily. -/
def of (bound : Nat) (lines : List ByteArray) : Packing :=
  lines.foldl (add bound) empty

/-- All chunks, counted from the last one. -/
def chunks (p : Packing) : List (List ByteArray) :=
  p.current :: p.older

theorem total_append (chunk : List ByteArray) (line : ByteArray) :
    total (chunk ++ [line]) = total chunk + line.size := by
  simp [total]

theorem joined_append (chunk : List ByteArray) (line : ByteArray) :
    joined (chunk ++ [line]) = joined chunk ++ line := by
  simp [joined]

/-- Chunks are as long as their lines together. -/
theorem size_joined (chunk : List ByteArray) : (joined chunk).size = total chunk := by
  induction chunk using List.reverseRecOn with
  | nil => rfl
  | append_singleton chunk line inductionHypothesis =>
    rw [joined_append, total_append, ByteArray.size_append, inductionHypothesis]

/-- Cutting keeps every line, once and in its place. -/
theorem flatten_chunks (bound : Nat) (lines : List ByteArray) :
    (of bound lines).chunks.reverse.flatten = lines := by
  induction lines using List.reverseRecOn with
  | nil => rfl
  | append_singleton lines line inductionHypothesis =>
    have cut : of bound (lines ++ [line]) = add bound (of bound lines) line := by
      simp [of]
    have flattened : ∀ p : Packing,
        p.chunks.reverse.flatten = p.older.reverse.flatten ++ p.current := by
      intro p
      simp [chunks]
    rw [flattened] at inductionHypothesis
    rw [cut, add, flattened]
    by_cases joins : (of bound lines).current = [] ∨
        total (of bound lines).current + line.size ≤ bound
    · rw [if_pos joins]
      dsimp only
      rw [← List.append_assoc, inductionHypothesis]
    · rw [if_neg joins]
      dsimp only
      rw [List.reverse_cons, List.flatten_append, List.flatten_singleton, inductionHypothesis]

end Packing

/-- What a log file is called for. One that is reopened is closed and started again on its series. -/
inductive FileCall
  | consume (r : Record)
  | flush
  | reopen

namespace FileCall

/-- The record that a call brings. -/
def record? : FileCall → Option Record
  | consume r => some r
  | flush => none
  | reopen => none

/-- Carries a call out. Reopening ends as the last attempt to write what was held back does. -/
def apply (f : LogFile) (host : Host) : FileCall → LogFile × Host × Outcome
  | consume r => f.consume host r
  | flush => f.flush host
  | reopen =>
    let (started, host') := LogFile.start f.series (f.close host)
    (started, host', (f.flush host).2.2)

/-- Carries calls out one after the other. -/
def run (f : LogFile) (host : Host) : List FileCall → LogFile × Host × List Outcome
  | [] => (f, host, [])
  | call :: rest =>
    let (f, host, outcome) := call.apply f host
    let (f, host, outcomes) := run f host rest
    (f, host, outcome :: outcomes)

end FileCall

open FileSystem LogSeries LogFile Packing

namespace LogSeries

/-- The lines that calls write. -/
def linesOf (s : LogSeries) (calls : List FileCall) : List ByteArray :=
  (calls.filterMap FileCall.record?).map s.line

theorem linesOf_cons (s : LogSeries) (call : FileCall) (calls : List FileCall) :
    s.linesOf (call :: calls) = (call.record?.map s.line).toList ++ s.linesOf calls := by
  cases call <;> rfl

/-- In the directory of the series, once it is there, is none of its files. -/
def Fresh (s : LogSeries) (fs : FileSystem) : Prop :=
  ∀ number, (fs.makeParents (s.path 0)).1.pathExists (s.path number) = false

/-- The older files of a series hold the older chunks, as many of them as are kept. Their numbers
are below a limit. -/
structure Shelved (s : LogSeries) (directory : Location) (older : List (List ByteArray))
    (limit : Nat) (fs : FileSystem) : Prop where
  kept : ∀ index < s.maxFiles, ∀ chunk, older[index]? = some chunk →
    ∃ number < limit, fs.entryAt? (s.slot directory (index + 1)) = some (.file number (joined chunk))
  absent : ∀ index, s.maxFiles ≤ index ∨ older.length ≤ index →
    (s.path (index + 1)).Fits (s.fileName (index + 1)) →
    fs.entryAt? (s.slot directory (index + 1)) = none
  fits : older ≠ [] → (s.path s.maxFiles).Fits (s.fileName s.maxFiles)

variable {s : LogSeries} {directory : Location} {older : List (List ByteArray)} {limit : Nat}
  {fs fs' : FileSystem}

/-- An older file is not there, or it has a number below the limit. -/
theorem Shelved.older_cases (shelved : s.Shelved directory older limit fs) {index : Nat}
    (fits : (s.path (index + 1)).Fits (s.fileName (index + 1))) :
    fs.entryAt? (s.slot directory (index + 1)) = none ∨ ∃ number < limit, ∃ content,
      fs.entryAt? (s.slot directory (index + 1)) = some (.file number content) := by
  by_cases below : index < s.maxFiles ∧ index < older.length
  · obtain ⟨number, small, there⟩ := shelved.kept index below.1 older[index]
      (List.getElem?_eq_getElem below.2)
    exact .inr ⟨number, small, _, there⟩
  · exact .inl (shelved.absent index (by omega) fits)

/-- Older files are left alone by what changes files with other numbers only. -/
theorem Shelved.of_changesOnly (shelved : s.Shelved directory older limit fs) {number : Nat}
    (le : limit ≤ number) (only : ChangesOnly number fs fs') :
    s.Shelved directory older limit fs' where
  kept index below chunk chosen := by
    obtain ⟨other, small, there⟩ := shelved.kept index below chunk chosen
    refine ⟨other, small, ?_⟩
    rw [only.entryAt?, there]
    intro content same
    rw [there] at same
    cases same
    omega
  absent index beyond fits := by
    have free := shelved.absent index beyond fits
    rw [only.entryAt?, free]
    simp [free]
  fits := shelved.fits

/-- A rotation puts the chunk of file 0 on the shelf, before all the others. -/
theorem Shelved.of_rotated {chunk : List ByteArray} (shelved : s.Shelved directory older limit fs)
    (rotated : Rotated s directory limit (joined chunk) fs fs') (below : limit < fs.nextNumber)
    (fits : (s.path s.maxFiles).Fits (s.fileName s.maxFiles)) :
    s.Shelved directory (chunk :: older) fs.nextNumber fs' where
  kept index lower other chosen := by
    cases index with
    | zero =>
      cases chosen
      exact ⟨limit, below, rotated.second⟩
    | succ index =>
      obtain ⟨number, small, there⟩ := shelved.kept index (by omega) other chosen
      refine ⟨number, by omega, ?_⟩
      rw [rotated.next (index + 1) (Nat.succ_pos index) lower, there]
  absent index beyond fits' := by
    rcases Nat.lt_or_ge index s.maxFiles with lower | past
    · cases index with
      | zero => simp at beyond; omega
      | succ index =>
        have past : older.length ≤ index := by
          simp only [List.length_cons] at beyond
          omega
        rw [rotated.next (index + 1) (Nat.succ_pos index) lower]
        exact shelved.absent index (.inr past) (fits_of_le (Nat.le_succ _) fits')
    · have free := shelved.absent index (.inl past) fits'
      rw [rotated.elsewhere, free]
      · intro other le same
        have equal := slot_inj.1 same
        omega
      · simp [free]
  fits _ := fits

/-- Every line has at least its line break. -/
theorem line_size_pos (s : LogSeries) (r : Record) : 0 < (s.line r).size := by
  change 0 < (s.style.render r ++ "\n").utf8ByteSize
  rw [String.utf8ByteSize_append]
  exact Nat.lt_add_left _ (by decide)

end LogSeries

/-- How a log file, with its open file, and the disk have the chunks of a packing. -/
structure Tracks (s : LogSeries) (directory : Location) (packing : Packing) (f : LogFile) (host : Host)
    (file : BufferedFile) : Prop where
  series : f.series = s
  opened : f.current = some file
  size : f.size = total packing.current
  begun : packing.current ≠ [] → 0 < total packing.current
  leads : host.files.Leads s.base.folder directory
  settled : host.files.Settled (s.path 0)
  fits : (s.path 0).Fits (s.fileName 0)
  holds : file.Holds host.files (s.slot directory 0) (joined packing.current)
  number : file.handle.number < host.files.nextNumber
  shelved : s.Shelved directory packing.older file.handle.number host.files

namespace Tracks

variable {s : LogSeries} {directory : Location} {packing : Packing} {f : LogFile} {host : Host}
  {file : BufferedFile}

/-- Writing a line without rotating puts it at the end of the current chunk. -/
theorem append {f' : LogFile} {host' : Host} {line : ByteArray}
    (tracks : Tracks s directory packing f host file) (filled : 0 < line.size)
    (done : f.append host line = (f', host', .completed)) :
    ∃ file', Tracks s directory ⟨packing.current ++ [line], packing.older⟩ f' host' file' := by
  obtain ⟨files, file', wrote, rfl, rfl⟩ := append_exact tracks.opened done
  obtain ⟨number, only, exact⟩ := BufferedFile.write_exact wrote
  refine ⟨file', ?_⟩
  constructor
  case series => exact tracks.series
  case opened => rfl
  case size => rw [total_append, ← tracks.size]
  case begun =>
    intro nonempty
    rw [total_append]
    omega
  case leads => exact tracks.leads.of_keepsDirectories only.keepsDirectories
  case settled => exact tracks.settled.of_keepsDirectories only.keepsDirectories
  case fits => exact tracks.fits
  case holds =>
    rw [joined_append]
    exact exact _ _ tracks.holds
  case number =>
    rw [number]
    exact only.nextNumber ▸ tracks.number
  case shelved =>
    rw [number]
    exact tracks.shelved.of_changesOnly (Nat.le_refl _) only

/-- Flushing changes no chunk, and leaves nothing held back. -/
theorem flush {f' : LogFile} {host' : Host} (tracks : Tracks s directory packing f host file)
    (done : f.flush host = (f', host', .completed)) :
    ∃ file', file'.pending = ByteArray.empty ∧ Tracks s directory packing f' host' file' := by
  obtain ⟨files, file', wrote, rfl, rfl⟩ := LogFile.flush_exact tracks.opened done
  obtain ⟨number, only, empty, exact⟩ := BufferedFile.flush_exact wrote
  refine ⟨file', empty, ?_⟩
  constructor
  case series => exact tracks.series
  case opened => rfl
  case size => exact tracks.size
  case begun => exact tracks.begun
  case leads => exact tracks.leads.of_keepsDirectories only.keepsDirectories
  case settled => exact tracks.settled.of_keepsDirectories only.keepsDirectories
  case fits => exact tracks.fits
  case holds => exact exact _ _ tracks.holds
  case number =>
    rw [number]
    exact only.nextNumber ▸ tracks.number
  case shelved =>
    rw [number]
    exact tracks.shelved.of_changesOnly (Nat.le_refl _) only

/-- Once nothing is held back, file 0 holds the current chunk. -/
theorem current_of_flushed (tracks : Tracks s directory packing f host file)
    (empty : file.pending = ByteArray.empty) :
    host.files.entryAt? (s.slot directory 0) =
      Option.some (.file file.handle.number (joined packing.current)) :=
  tracks.holds.entryAt? empty

/-- Rotating makes the current chunk an older one. -/
theorem rotate (tracks : Tracks s directory packing f host file)
    (quiet : (f.rotate host).2.reports = host.reports) :
    ∃ file', Tracks s directory ⟨[], packing.current :: packing.older⟩ (f.rotate host).1
      (f.rotate host).2 file' := by
  obtain ⟨series, opened, size, begun, leads, settled, fits, holds, number, shelved⟩ := tracks
  subst series
  have files : f.series.HoldsFiles directory f.series.maxFiles host.files := by
    intro other below fits'
    cases other with
    | zero =>
      obtain ⟨content, there, -⟩ := holds
      simp [there]
    | succ other =>
      rcases shelved.older_cases fits' with free | ⟨number', -, content, there⟩
      · simp [free]
      · simp [there]
  obtain ⟨lastFits, newFile, rotated⟩ := rotate_exact opened holds leads files
    (by
      intro other positive below fits' content there
      obtain ⟨index, rfl⟩ := Nat.exists_eq_succ_of_ne_zero (Nat.pos_iff_ne_zero.1 positive)
      rcases shelved.older_cases fits' with free | ⟨number', small, content', there'⟩
      · simp [free] at there
      · rw [there] at there'
        cases there'
        omega)
    quiet
  refine ⟨.ofHandle ⟨host.files.nextNumber, Option.some 0⟩, ?_⟩
  constructor
  case series => rw [newFile]
  case opened => rw [newFile]
  case size =>
    rw [newFile]
    rfl
  case begun => simp
  case leads => exact leads.of_keepsDirectories rotated.keepsDirectories
  case settled => exact settled.of_keepsDirectories rotated.keepsDirectories
  case fits => exact fits
  case holds =>
    refine ⟨ByteArray.empty, rotated.first, rfl, ?_⟩
    rintro position ⟨⟩
    rfl
  case number =>
    rw [rotated.nextNumber]
    exact Nat.lt_succ_self _
  case shelved => exact shelved.of_rotated rotated number lastFits

/-- Closing and starting again changes no chunk, and finds the size of the current one. -/
theorem reopen (tracks : Tracks s directory packing f host file)
    (completed : (f.flush host).2.2 = .completed) :
    ∃ file', Tracks s directory packing (LogFile.start f.series (f.close host)).1
      (LogFile.start f.series (f.close host)).2 file' := by
  rcases flushes : f.flush host with ⟨f₁, host₁, outcome⟩
  have closed : f.close host = host₁ := by
    rw [close_eq_flush, flushes]
  rw [flushes] at completed
  dsimp only at completed
  subst completed
  obtain ⟨file₁, empty, tracks₁⟩ := tracks.flush flushes
  have there := tracks₁.current_of_flushed empty
  rw [closed, tracks.series, start_of_present tracks₁.leads tracks₁.settled tracks₁.fits there]
  refine ⟨.ofHandle ⟨file₁.handle.number, none⟩, ?_⟩
  constructor
  case series => rfl
  case opened => rfl
  case size => exact size_joined packing.current
  case begun => exact tracks.begun
  case leads => exact tracks₁.leads
  case settled => exact tracks₁.settled
  case fits => exact tracks.fits
  case holds =>
    refine ⟨joined packing.current, there, ByteArray.append_empty, ?_⟩
    simp [BufferedFile.ofHandle]
  case number => exact tracks₁.number
  case shelved => exact tracks₁.shelved

/-- A record's line joins the current chunk or begins a new one, as greedy cutting has it. -/
theorem consume {r : Record} {f' : LogFile} {host' : Host}
    (tracks : Tracks s directory packing f host file)
    (done : f.consume host r = (f', host', .completed)) (quiet : host'.reports = host.reports) :
    ∃ file', Tracks s directory (packing.add s.maxBytes (s.line r)) f' host' file' := by
  have line : f.series.line r = s.line r := by rw [tracks.series]
  by_cases joins : packing.current = [] ∨ total packing.current + (s.line r).size ≤ s.maxBytes
  · have room : f.size = 0 ∨ f.size + (f.series.line r).size ≤ f.series.maxBytes := by
      rw [tracks.size, tracks.series]
      refine joins.imp_left ?_
      intro nothing
      rw [nothing]
      rfl
    rw [consume_of_room host room, line] at done
    rw [add, if_pos joins]
    exact tracks.append (s.line_size_pos r) done
  · have full : ¬(f.size = 0 ∨ f.size + (f.series.line r).size ≤ f.series.maxBytes) := by
      rw [tracks.size, tracks.series]
      rw [not_or] at joins ⊢
      exact ⟨Nat.ne_of_gt (tracks.begun joins.1), joins.2⟩
    rw [consume_of_full host tracks.opened full, line] at done
    have kept := reports_append (f.rotate host).1 (f.rotate host).2 (s.line r)
    rw [done] at kept
    obtain ⟨file₁, tracks₁⟩ := tracks.rotate (kept.symm.trans quiet)
    rw [add, if_neg joins]
    exact tracks₁.append (s.line_size_pos r) done

end Tracks

namespace FileCall

/-- Complaints stay. -/
theorem reports_apply (f : LogFile) (host : Host) (call : FileCall) :
    host.reports <+: (call.apply f host).2.1.reports := by
  cases call with
  | consume r =>
    rw [apply, LogFile.consume]
    by_cases due : f.isDue (f.series.line r).size = true
    · simp only [due, if_true]
      rw [reports_append]
      exact reports_rotate f host
    · simp only [due, Bool.false_eq_true, if_false]
      exact (reports_append f host _).symm ▸ List.prefix_refl host.reports
  | flush => exact (reports_flush f host).symm ▸ List.prefix_refl host.reports
  | reopen =>
    have closed : (f.close host).reports = host.reports := by
      rw [close_eq_flush, reports_flush]
    rw [apply]
    exact closed ▸ reports_start f.series (f.close host)

theorem reports_run (f : LogFile) (host : Host) (calls : List FileCall) :
    host.reports <+: (run f host calls).2.1.reports := by
  induction calls generalizing f host with
  | nil => exact List.prefix_refl _
  | cons call rest inductionHypothesis =>
    exact (reports_apply f host call).trans (inductionHypothesis _ _)

theorem run_append (f : LogFile) (host : Host) (calls more : List FileCall) :
    run f host (calls ++ more) =
      ((run (run f host calls).1 (run f host calls).2.1 more).1,
        (run (run f host calls).1 (run f host calls).2.1 more).2.1,
        (run f host calls).2.2 ++ (run (run f host calls).1 (run f host calls).2.1 more).2.2) := by
  induction calls generalizing f host with
  | nil => rfl
  | cons call rest inductionHypothesis =>
    simp only [List.cons_append, run, inductionHypothesis]

end FileCall

namespace Tracks

variable {s : LogSeries} {directory : Location} {packing : Packing} {f : LogFile} {host : Host}
  {file : BufferedFile}

/-- One call: its line, if it brings a record, is cut as the next one. -/
theorem apply {call : FileCall} (tracks : Tracks s directory packing f host file)
    (completed : (call.apply f host).2.2 = .completed)
    (quiet : (call.apply f host).2.1.reports = host.reports) :
    ∃ file', Tracks s directory ((call.record?.map s.line).toList.foldl (add s.maxBytes) packing)
      (call.apply f host).1 (call.apply f host).2.1 file' := by
  cases call with
  | consume r => exact tracks.consume (Prod.ext rfl (Prod.ext rfl completed)) quiet
  | flush =>
    obtain ⟨file', -, tracks'⟩ := tracks.flush (Prod.ext rfl (Prod.ext rfl completed))
    exact ⟨file', tracks'⟩
  | reopen => exact tracks.reopen completed

/-- Any calls, by induction on them: complaints stay, so none of the calls has made one. -/
theorem run {calls : List FileCall} (tracks : Tracks s directory packing f host file)
    (completed : ∀ outcome ∈ (FileCall.run f host calls).2.2, outcome = .completed)
    (quiet : (FileCall.run f host calls).2.1.reports = host.reports) :
    ∃ file', Tracks s directory ((s.linesOf calls).foldl (add s.maxBytes) packing)
      (FileCall.run f host calls).1 (FileCall.run f host calls).2.1 file' := by
  induction calls generalizing packing f host file with
  | nil => exact ⟨file, tracks⟩
  | cons call rest inductionHypothesis =>
    have quietCall : (call.apply f host).2.1.reports = host.reports :=
      eq_of_prefixes (FileCall.reports_apply f host call) (FileCall.reports_run _ _ rest) quiet
    obtain ⟨file₁, tracks₁⟩ := tracks.apply (completed _ List.mem_cons_self) quietCall
    rw [linesOf_cons, List.foldl_append]
    exact inductionHypothesis tracks₁
      (fun outcome member => completed outcome (List.mem_cons_of_mem _ member))
      (quiet.trans quietCall.symm)

/-- A log file that is started where its series has no files tracks the packing of no lines. -/
theorem start (fresh : s.Fresh host.files)
    (quiet : (LogFile.start s host).2.reports = host.reports) :
    ∃ directory file, Tracks s directory Packing.empty (LogFile.start s host).1
      (LogFile.start s host).2 file := by
  obtain ⟨made, directory, prepared, leads, settled, fits, files, handle, size, opened, started⟩ :=
    start_exact quiet
  have free : ∀ number, (s.path number).Fits (s.fileName number) →
      made.entryAt? (s.slot directory number) = none := by
    intro number fits'
    have missing := fresh number
    rw [prepared, pathExists_of_leads (s.path_splits number) leads fits', ← slot] at missing
    simpa using missing
  have nothing := free 0 fits
  rw [openToAppend_of_leads (s.path_splits 0) leads fits, ← slot, nothing] at opened
  cases opened
  have keeps := keepsDirectories_addFile made (s.slot_below directory 0) (by simp [nothing])
  rw [started]
  refine ⟨directory, .ofHandle ⟨made.nextNumber, none⟩, ?_⟩
  constructor
  case series => rfl
  case opened => rfl
  case size => rfl
  case begun => simp [Packing.empty]
  case leads => exact leads.of_keepsDirectories keeps
  case settled => exact settled.of_keepsDirectories keeps
  case fits => exact fits
  case holds =>
    refine ⟨ByteArray.empty, ?_, rfl, by simp [BufferedFile.ofHandle]⟩
    rw [entryAt?_addFile _ (s.slot_below directory 0), if_pos rfl]
    rfl
  case number => exact Nat.lt_succ_self _
  case shelved =>
    refine ⟨by simp [Packing.empty], ?_, by simp [Packing.empty]⟩
    intro index beyond fits'
    rw [entryAt?_addFile _ (s.slot_below directory 0), if_neg, free _ fits']
    rw [slot_inj]
    omega

/-- A chunk that is kept can be read where it belongs, once nothing is held back. -/
theorem readBytes {number : Nat} {chunk : List ByteArray}
    (tracks : Tracks s directory packing f host file) (empty : file.pending = ByteArray.empty)
    (le : number ≤ s.maxFiles) (chosen : packing.chunks[number]? = Option.some chunk) :
    host.files.readBytes (s.path number) = .ok (joined chunk) := by
  cases number with
  | zero =>
    cases chosen
    exact readBytes_of_leads (s.path_splits 0) tracks.leads tracks.fits
      (tracks.current_of_flushed empty)
  | succ index =>
    have among : packing.older[index]? = Option.some chunk := chosen
    have nonempty : packing.older ≠ [] := by
      intro none
      simp [none] at among
    obtain ⟨fileNumber, -, there⟩ := tracks.shelved.kept index le chunk among
    exact readBytes_of_leads (s.path_splits (index + 1)) tracks.leads
      (fits_of_le le (tracks.shelved.fits nonempty)) there

/-- Where no chunk belongs there is no file. -/
theorem pathExists {number : Nat} (tracks : Tracks s directory packing f host file)
    (beyond : s.maxFiles < number ∨ packing.chunks.length ≤ number) :
    host.files.pathExists (s.path number) = false := by
  cases number with
  | zero => simp [chunks] at beyond
  | succ index =>
    have past : s.maxFiles ≤ index ∨ packing.older.length ≤ index := by
      simp only [chunks, List.length_cons] at beyond
      omega
    by_cases fits : (s.path (index + 1)).Fits (s.fileName (index + 1))
    · rw [pathExists_of_leads (s.path_splits (index + 1)) tracks.leads fits, ← slot,
        tracks.shelved.absent index past fits]
      rfl
    · exact pathExists_of_not_fits (s.path_splits (index + 1)) tracks.leads fits

end Tracks

/-- After any calls and a last flush, none of which failed or complained, the files of a series that
had none hold exactly the chunks into which the lines are cut: file `number` the one that many
before the last, as far as files are kept, and no other file is there. Together the chunks are the
lines. Flushing and reopening do not appear in the lines and so have no influence.

Proof: starting establishes the invariant for no lines, every call keeps it for the lines so far,
and after the flush the invariant is what the files hold. -/
theorem files_hold_packing (base : Path) (maxBytes maxFiles : Nat) (style : FileStyle) (host : Host)
    (calls : List FileCall) {started : LogFile × Host} {ended : LogFile × Host × List Outcome}
    (opened : LogFile.start (.of base maxBytes maxFiles style) host = started)
    (ran : FileCall.run started.1 started.2 (calls ++ [.flush]) = ended)
    (fresh : (LogSeries.of base maxBytes maxFiles style).Fresh host.files)
    (completed : ∀ outcome ∈ ended.2.2, outcome = .completed)
    (quiet : ended.2.1.reports = host.reports) :
    let s := LogSeries.of base maxBytes maxFiles style
    let packing := Packing.of maxBytes (s.linesOf calls)
    packing.chunks.reverse.flatten = s.linesOf calls ∧
      (∀ number ≤ max maxFiles 1, ∀ chunk, packing.chunks[number]? = some chunk →
        ended.2.1.files.readBytes (s.path number) = .ok (joined chunk)) ∧
      ∀ number, max maxFiles 1 < number ∨ packing.chunks.length ≤ number →
        ended.2.1.files.pathExists (s.path number) = false := by
  intro s packing
  subst opened ran
  have quietStart : (LogFile.start s host).2.reports = host.reports :=
    eq_of_prefixes (reports_start s host) (FileCall.reports_run _ _ (calls ++ [.flush])) quiet
  obtain ⟨directory, file, tracks⟩ := Tracks.start fresh quietStart
  rw [FileCall.run_append] at completed quiet ⊢
  have quietCalls := eq_of_prefixes (FileCall.reports_run _ _ calls)
    (FileCall.reports_apply _ _ .flush) (quiet.trans quietStart.symm)
  obtain ⟨file₁, tracks₁⟩ := tracks.run
    (fun outcome member => completed outcome (List.mem_append_left _ member)) quietCalls
  have flushed := completed _ (List.mem_append_right _ List.mem_cons_self)
  obtain ⟨file₂, empty, tracks₂⟩ := tracks₁.flush (Prod.ext rfl (Prod.ext rfl flushed))
  refine ⟨flatten_chunks maxBytes (s.linesOf calls), ?_, ?_⟩
  · intro number le chunk chosen
    exact tracks₂.readBytes empty le chosen
  · intro number beyond
    exact tracks₂.pathExists beyond

/-- In an empty file system a series in the working directory has no files. -/
theorem fresh_of_empty {s : LogSeries} (flat : s.base.folder = [])
    (single : (s.path 0).parent? = some ⟨""⟩) : s.Fresh .empty := by
  intro number
  have noParents : (FileSystem.empty.makeParents (s.path 0)).1 = .empty := by
    rw [makeParents, single]
    rfl
  have leads : FileSystem.empty.Leads s.base.folder [] := by
    rw [flat]
    exact ⟨rfl, rfl⟩
  rw [noParents]
  by_cases fits : (s.path number).Fits (s.fileName number)
  · rw [pathExists_of_leads (s.path_splits number) leads fits]
    rfl
  · exact pathExists_of_not_fits (s.path_splits number) leads fits

/-- Two lines that do not fit into one file, with a restart between them. -/
theorem lines_packed_apart :
    let r : Record := ⟨⟨0⟩, 1, .info, none, "hello"⟩
    let s := LogSeries.of ⟨"app"⟩ 60 0 .line
    let started := LogFile.start s (.ofFiles .empty)
    let ended := FileCall.run started.1 started.2 ([.consume r, .reopen, .consume r] ++ [.flush])
    s.Fresh .empty ∧ (∀ outcome ∈ ended.2.2, outcome = .completed) ∧ ended.2.1.reports = [] ∧
      ended.2.1.files.readBytes (s.path 0) = .ok (joined [s.line r]) ∧
      ended.2.1.files.readBytes (s.path 1) = .ok (joined [s.line r]) ∧
      ended.2.1.files.pathExists (s.path 2) = false := by
  intro r s started ended
  have fresh : s.Fresh .empty := fresh_of_empty (by decide +kernel) (by decide +kernel)
  have completed : ∀ outcome ∈ ended.2.2, outcome = .completed := by decide +kernel
  have quiet : ended.2.1.reports = [] := by decide +kernel
  have packed := files_hold_packing ⟨"app"⟩ 60 0 .line (.ofFiles .empty)
    [.consume r, .reopen, .consume r] (Eq.refl started) (Eq.refl ended) fresh completed quiet
  refine ⟨fresh, completed, quiet, ?_, ?_, ?_⟩
  · exact packed.2.1 0 (by decide) [s.line r] (by decide +kernel)
  · exact packed.2.1 1 (by decide) [s.line r] (by decide +kernel)
  · exact packed.2.2 2 (.inl (by decide))

end KeyValueService
