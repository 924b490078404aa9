import KeyValueService.Proofs.CountedSizes
import KeyValueService.Proofs.GreedyPacking

/-!
# Which numbers of a series keep their files

A log file is started where its series has no files, used, and started again with other bounds. The
numbers that have files are then those up to one number, which grows with a rotation while it is below
the bound in force (`raiseTop`). So no rotation adds a number above its bound, and none takes one away:
what a log file with a higher bound has left there stays for good, byte for byte. Main statement:
`retained_numbers_exact`.

The invariant (`Filled`) has a file under each number up to the highest and none above, and file 0 made
after all of them, so that writing to it reaches none of them.
-/

namespace KeyValueService

open FileSystem LogSeries LogFile

namespace LogSeries

/-- The highest number with a file after a rotation under a bound. -/
def raiseTop (top bound : Nat) : Nat :=
  if top < bound then top + 1 else top

/-- Above its bound a rotation leaves nothing if there was nothing before. -/
theorem raiseTop_le_iff {top bound : Nat} : raiseTop top bound ≤ bound ↔ top ≤ bound := by
  unfold raiseTop
  split <;> omega

/-- Numbers do not grow beyond the highest bound of all rotations. -/
theorem foldl_raiseTop_le {top limit : Nat} {bounds : List Nat} (within : top ≤ limit)
    (bounded : ∀ bound ∈ bounds, bound ≤ limit) : bounds.foldl raiseTop top ≤ limit := by
  induction bounds generalizing top with
  | nil => exact within
  | cons bound rest inductionHypothesis =>
    obtain ⟨first, others⟩ := List.forall_mem_cons.1 bounded
    refine inductionHypothesis ?_ others
    unfold raiseTop
    split <;> omega

/-- Besides file 0 there are the files up to a number and no others. Their own numbers on the disk are
below a limit. -/
structure FilledTo (s : LogSeries) (directory : Location) (top limit : Nat) (fs : FileSystem) :
    Prop where
  present : ∀ number, 0 < number → number ≤ top → ∃ fileNumber < limit, ∃ content,
    fs.entryAt? (s.slot directory number) = some (.file fileNumber content)
  absent : ∀ number, top < number → (s.path number).Fits (s.fileName number) →
    fs.entryAt? (s.slot directory number) = none
  fits : (s.path top).Fits (s.fileName top)

namespace FilledTo

variable {s : LogSeries} {directory : Location} {top limit : Nat} {fs fs' : FileSystem}

/-- Under a number there is nothing, or a file with a number below the limit. -/
theorem cases (filled : s.FilledTo directory top limit fs) {number : Nat} (positive : 0 < number)
    (fits : (s.path number).Fits (s.fileName number)) :
    fs.entryAt? (s.slot directory number) = none ∨ ∃ fileNumber < limit, ∃ content,
      fs.entryAt? (s.slot directory number) = some (.file fileNumber content) := by
  rcases Nat.lt_or_ge top number with beyond | within
  · exact .inl (filled.absent number beyond fits)
  · exact .inr (filled.present number positive within)

/-- No file with a number from the limit on is among them. -/
theorem ne_file (filled : s.FilledTo directory top limit fs) {number fileNumber : Nat}
    (positive : 0 < number) (fits : (s.path number).Fits (s.fileName number))
    (le : limit ≤ fileNumber) (content : ByteArray) :
    fs.entryAt? (s.slot directory number) ≠ some (.file fileNumber content) := by
  intro there
  rcases filled.cases positive fits with free | ⟨other, small, content', there'⟩
  · rw [free] at there
    cases there
  · rw [there'] at there
    cases there
    omega

theorem fits_of_le_top (filled : s.FilledTo directory top limit fs) {number : Nat}
    (le : number ≤ top) : (s.path number).Fits (s.fileName number) :=
  fits_of_le le filled.fits

/-- They are left alone by what changes files with other numbers only. -/
theorem of_changesOnly (filled : s.FilledTo directory top limit fs) {fileNumber : Nat}
    (le : limit ≤ fileNumber) (only : ChangesOnly fileNumber fs fs') :
    s.FilledTo directory top limit fs' where
  present number positive within := by
    rw [only.entryAt? _ (filled.ne_file positive (filled.fits_of_le_top within) le)]
    exact filled.present number positive within
  absent number beyond fits := by
    rw [only.entryAt? _ (filled.ne_file (Nat.zero_lt_of_lt beyond) fits le)]
    exact filled.absent number beyond fits
  fits := filled.fits

/-- A rotation leaves what is above its bound. -/
theorem above_of_rotated (filled : s.FilledTo directory top limit fs) {whole : ByteArray}
    (rotated : Rotated s directory limit whole fs fs') {number : Nat} (above : s.maxFiles < number)
    (fits : (s.path number).Fits (s.fileName number)) :
    fs'.entryAt? (s.slot directory number) = fs.entryAt? (s.slot directory number) := by
  refine rotated.elsewhere _ (fun other le same => ?_)
    (filled.ne_file (Nat.zero_lt_of_lt above) fits (Nat.le_refl limit))
  have equal := slot_inj.1 same
  omega

/-- A rotation adds a number at the top if that is below its bound. Case by case on where the number is:
file 1 is what file 0 was, up to the bound all have moved up, above it all have stayed. -/
theorem of_rotated (filled : s.FilledTo directory top limit fs) {whole : ByteArray}
    (rotated : Rotated s directory limit whole fs fs') (below : limit < fs.nextNumber)
    (fits : (s.path s.maxFiles).Fits (s.fileName s.maxFiles)) :
    s.FilledTo directory (raiseTop top s.maxFiles) fs.nextNumber fs' where
  present number positive within := by
    unfold raiseTop at within
    rcases Nat.lt_or_ge s.maxFiles number with above | kept
    · have old : number ≤ top := by
        split at within <;> omega
      rw [filled.above_of_rotated rotated above (filled.fits_of_le_top old)]
      obtain ⟨fileNumber, small, content, there⟩ := filled.present number positive old
      exact ⟨fileNumber, by omega, content, there⟩
    · obtain ⟨before, rfl⟩ := Nat.exists_eq_add_one_of_ne_zero (Nat.ne_of_gt positive)
      rcases Nat.eq_zero_or_pos before with rfl | older
      · exact ⟨limit, below, whole, rotated.second⟩
      · rw [rotated.next before older kept]
        have old : before ≤ top := by
          split at within <;> omega
        obtain ⟨fileNumber, small, content, there⟩ := filled.present before older old
        exact ⟨fileNumber, by omega, content, there⟩
  absent number beyond fits' := by
    unfold raiseTop at beyond
    rcases Nat.lt_or_ge s.maxFiles number with above | kept
    · rw [filled.above_of_rotated rotated above fits']
      refine filled.absent number ?_ fits'
      split at beyond <;> omega
    · obtain ⟨before, rfl⟩ := Nat.exists_eq_add_one_of_ne_zero (Nat.ne_of_gt (Nat.zero_lt_of_lt beyond))
      have higher : top < before := by
        split at beyond <;> omega
      rw [rotated.next before (Nat.zero_lt_of_lt higher) kept]
      exact filled.absent before higher (fits_of_le (Nat.le_succ before) fits')
  fits := by
    unfold raiseTop
    split
    next room => exact fits_of_le room fits
    next => exact filled.fits

end FilledTo

end LogSeries

namespace LogFile

namespace Use

/-- The bound under which a use rotates the series, if it does. -/
def rotation? (f : LogFile) : Use → Option Nat
  | consume r => if f.isDue (f.series.line r).size then some f.series.maxFiles else none
  | flush => none
  | reopen _ _ _ => none

/-- The bounds under which a run rotates, in order. -/
def rotations (f : LogFile) (host : Host) : List Use → List Nat
  | [] => []
  | use :: rest =>
    (use.rotation? f).toList ++ rotations (use.apply f host).1 (use.apply f host).2.1 rest

/-- Complaints stay. -/
theorem reports_apply (f : LogFile) (host : Host) (use : Use) :
    host.reports <+: (use.apply f host).2.1.reports := by
  cases use with
  | consume r => exact FileCall.reports_apply f host (.consume r)
  | flush => exact FileCall.reports_apply f host .flush
  | reopen maxBytes maxFiles style =>
    have closed : (f.close host).reports = host.reports := by
      rw [close_eq_flush, reports_flush]
    rw [apply]
    exact closed ▸ reports_start _ (f.close host)

theorem reports_run (f : LogFile) (host : Host) (uses : List Use) :
    host.reports <+: (run f host uses).2.1.reports := by
  induction uses generalizing f host with
  | nil => exact List.prefix_refl _
  | cons use rest inductionHypothesis =>
    exact (reports_apply f host use).trans (inductionHypothesis _ _)

end Use

/-- Where a rotation is due, a record without a complaint is a rotation without one, and its line is
written after that. -/
theorem consume_of_due {f f' : LogFile} {host host' : Host} {r : Record} {outcome : Outcome}
    (due : f.isDue (f.series.line r).size = true) (done : f.consume host r = (f', host', outcome))
    (quiet : host'.reports = host.reports) :
    (f.rotate host).2.reports = host.reports ∧
      (f.rotate host).1.append (f.rotate host).2 (f.series.line r) = (f', host', outcome) := by
  rw [consume] at done
  simp only [due, if_true] at done
  have kept := reports_append (f.rotate host).1 (f.rotate host).2 (f.series.line r)
  rw [done] at kept
  exact ⟨kept.symm.trans quiet, done⟩

/-- A log file with its open file, and the highest number that has a file on the disk. -/
structure Filled (top : Nat) (f : LogFile) (files : FileSystem) (directory : Location)
    (file : BufferedFile) (whole : ByteArray) : Prop where
  current : f.current = some file
  leads : files.Leads f.series.base.folder directory
  holds : file.Holds files (f.series.slot directory 0) whole
  number : file.handle.number < files.nextNumber
  filled : f.series.FilledTo directory top file.handle.number files

namespace Filled

variable {top : Nat} {f f' : LogFile} {host host' : Host} {directory : Location} {file : BufferedFile}
  {whole : ByteArray}

theorem fits (filled : Filled top f host.files directory file whole) :
    (f.series.path 0).Fits (f.series.fileName 0) :=
  filled.filled.fits_of_le_top (Nat.zero_le top)

/-- The numbers up to the highest have files, and no others have. -/
theorem pathExists_iff (filled : Filled top f host.files directory file whole) (number : Nat) :
    host.files.pathExists (f.series.path number) = true ↔ number ≤ top := by
  by_cases fits : (f.series.path number).Fits (f.series.fileName number)
  · rw [pathExists_of_leads (f.series.path_splits number) filled.leads fits, ← slot]
    rcases Nat.eq_zero_or_pos number with rfl | positive
    · obtain ⟨content, there, -⟩ := filled.holds
      simp [there]
    rcases Nat.lt_or_ge top number with beyond | within
    · simp [filled.filled.absent number beyond fits, Nat.not_le_of_lt beyond]
    · obtain ⟨fileNumber, -, content, there⟩ := filled.filled.present number positive within
      simp [there, within]
  · rw [pathExists_of_not_fits (f.series.path_splits number) filled.leads fits]
    have beyond : ¬number ≤ top := fun within => fits (filled.filled.fits_of_le_top within)
    simp [beyond]

/-- Writing to file 0 changes no other file. -/
theorem of_changesOnly (filled : Filled top f host.files directory file whole)
    {files : FileSystem} {file' : BufferedFile} {whole' : ByteArray}
    (sameNumber : file'.handle.number = file.handle.number)
    (only : ChangesOnly file.handle.number host.files files)
    (holds : file'.Holds files (f.series.slot directory 0) whole') (size : Nat) :
    Filled top ⟨f.series, some file', size⟩ files directory file' whole' where
  current := rfl
  leads := filled.leads.of_keepsDirectories only.keepsDirectories
  holds := holds
  number := sameNumber ▸ only.nextNumber ▸ filled.number
  filled := sameNumber ▸ filled.filled.of_changesOnly (Nat.le_refl _) only

/-- What is written joins file 0, and the other files stay. -/
theorem append {bytes : ByteArray} (filled : Filled top f host.files directory file whole)
    (done : f.append host bytes = (f', host', .completed)) :
    f'.series = f.series ∧ (∃ file', Filled top f' host'.files directory file' (whole ++ bytes)) ∧
      ∀ number, 0 < number → (f.series.path number).Fits (f.series.fileName number) →
        host'.files.entryAt? (f.series.slot directory number) =
          host.files.entryAt? (f.series.slot directory number) := by
  obtain ⟨files, file', wrote, rfl, rfl⟩ := append_exact filled.current done
  obtain ⟨number, only, exact⟩ := BufferedFile.write_exact wrote
  refine ⟨rfl, ⟨file', filled.of_changesOnly number only (exact _ _ filled.holds) _⟩, ?_⟩
  exact fun number positive fits =>
    only.entryAt? _ (filled.filled.ne_file positive fits (Nat.le_refl _))

theorem flush (filled : Filled top f host.files directory file whole)
    (done : f.flush host = (f', host', .completed)) :
    f'.series = f.series ∧ ∃ file', file'.pending = ByteArray.empty ∧
      Filled top f' host'.files directory file' whole := by
  obtain ⟨files, file', wrote, rfl, rfl⟩ := flush_exact filled.current done
  obtain ⟨number, only, empty, exact⟩ := BufferedFile.flush_exact wrote
  exact ⟨rfl, file', empty, filled.of_changesOnly number only (exact _ _ filled.holds) _⟩

/-- A rotation without a complaint adds at most the next number, and leaves what is above its bound. -/
theorem rotate (filled : Filled top f host.files directory file whole)
    (quiet : (f.rotate host).2.reports = host.reports) :
    (f.rotate host).1.series = f.series ∧
      (∃ file', Filled (raiseTop top f.series.maxFiles) (f.rotate host).1 (f.rotate host).2.files
        directory file' ByteArray.empty) ∧
      ∀ number, f.series.maxFiles < number → (f.series.path number).Fits (f.series.fileName number) →
        (f.rotate host).2.files.entryAt? (f.series.slot directory number) =
          host.files.entryAt? (f.series.slot directory number) := by
  have files : f.series.HoldsFiles directory f.series.maxFiles host.files := by
    intro other below fits
    rcases Nat.eq_zero_or_pos other with rfl | positive
    · obtain ⟨content, there, -⟩ := filled.holds
      simp [there]
    · rcases filled.filled.cases positive fits with free | ⟨fileNumber, -, content, there⟩
      · simp [free]
      · simp [there]
  have alone : ∀ other, 0 < other → other < f.series.maxFiles →
      (f.series.path other).Fits (f.series.fileName other) → ∀ content,
        host.files.entryAt? (f.series.slot directory other) ≠
          some (.file file.handle.number content) :=
    fun other positive below fits => filled.filled.ne_file positive fits (Nat.le_refl _)
  obtain ⟨lastFits, renewed, rotated⟩ :=
    rotate_exact filled.current filled.holds filled.leads files alone quiet
  have newNumber := rotated.nextNumber
  have newFirst := rotated.first
  rw [renewed]
  refine ⟨rfl, ⟨.ofHandle ⟨host.files.nextNumber, some 0⟩, rfl, ?_, ?_, ?_, ?_⟩, ?_⟩
  · exact filled.leads.of_keepsDirectories rotated.keepsDirectories
  · refine ⟨ByteArray.empty, newFirst, rfl, ?_⟩
    rintro position ⟨⟩
    rfl
  · rw [newNumber]
    exact Nat.lt_succ_self _
  · exact filled.filled.of_rotated rotated filled.number lastFits
  · exact fun number above fits => filled.filled.above_of_rotated rotated above fits

/-- Started again with nothing held back, with any bounds, a log file finds the numbers as they were. -/
theorem start (filled : Filled top f host.files directory file whole)
    (empty : file.pending = ByteArray.empty) (maxBytes maxFiles : Nat) (style : FileStyle) :
    ∃ file', Filled top (LogFile.start (.of f.series.base maxBytes maxFiles style) host).1
      (LogFile.start (.of f.series.base maxBytes maxFiles style) host).2.files directory file'
        whole := by
  have settled := settled_of_resolve
    (resolve_of_leads (f.series.path_splits 0) filled.leads filled.fits)
  have there := filled.holds.entryAt? empty
  rw [@start_of_present (.of f.series.base maxBytes maxFiles style) host directory file.handle.number
    whole filled.leads settled filled.fits there]
  refine ⟨.ofHandle ⟨file.handle.number, none⟩, rfl, filled.leads, ?_, filled.number,
    filled.filled.present, filled.filled.absent, filled.filled.fits⟩
  exact ⟨whole, there, ByteArray.append_empty, by simp [BufferedFile.ofHandle]⟩

/-- A record joins file 0, after a rotation if one is due. -/
theorem consume {r : Record} (filled : Filled top f host.files directory file whole)
    (done : f.consume host r = (f', host', .completed)) (quiet : host'.reports = host.reports) :
    f'.series = f.series ∧ ∃ file' whole',
      Filled (((Use.consume r).rotation? f).toList.foldl raiseTop top) f' host'.files directory file'
        whole' := by
  rw [Use.rotation?]
  by_cases due : f.isDue (f.series.line r).size = true
  · obtain ⟨quietRotation, appended⟩ := consume_of_due due done quiet
    rw [if_pos due]
    obtain ⟨series, ⟨file₁, filled₁⟩, -⟩ := filled.rotate quietRotation
    obtain ⟨series', ⟨file', filled'⟩, -⟩ := filled₁.append appended
    exact ⟨series'.trans series, file', _, filled'⟩
  · rw [LogFile.consume] at done
    simp only [due, if_false, Bool.false_eq_true] at done
    rw [if_neg due]
    obtain ⟨series, ⟨file', filled'⟩, -⟩ := filled.append done
    exact ⟨series, file', _, filled'⟩

/-- A record with a rotation leaves each file above the bound as it was. -/
theorem consume_above {r : Record} (filled : Filled top f host.files directory file whole)
    (due : f.isDue (f.series.line r).size = true)
    (done : f.consume host r = (f', host', .completed)) (quiet : host'.reports = host.reports)
    {number : Nat} (above : f.series.maxFiles < number) (within : number ≤ top) :
    ∃ content, host.files.readBytes (f.series.path number) = .ok content ∧
      host'.files.readBytes (f.series.path number) = .ok content := by
  obtain ⟨quietRotation, appended⟩ := consume_of_due due done quiet
  obtain ⟨series, ⟨file₁, filled₁⟩, stays⟩ := filled.rotate quietRotation
  obtain ⟨series', ⟨file', filled'⟩, stays'⟩ := filled₁.append appended
  have positive := Nat.zero_lt_of_lt above
  have fits := filled.filled.fits_of_le_top within
  obtain ⟨fileNumber, -, content, there⟩ := filled.filled.present number positive within
  have leads' := filled'.leads
  rw [series', series] at leads'
  rw [series] at stays'
  have there' := (stays' number positive fits).trans ((stays number above fits).trans there)
  exact ⟨content, readBytes_of_leads (f.series.path_splits number) filled.leads fits there,
    readBytes_of_leads (f.series.path_splits number) leads' fits there'⟩

/-- One use without a failure and without a complaint. -/
theorem apply {use : Use} (filled : Filled top f host.files directory file whole)
    (completed : (use.apply f host).2.2 = .completed)
    (quiet : (use.apply f host).2.1.reports = host.reports) :
    (use.apply f host).1.series.base = f.series.base ∧ ∃ file' whole',
      Filled ((use.rotation? f).toList.foldl raiseTop top) (use.apply f host).1
        (use.apply f host).2.1.files directory file' whole' := by
  cases use with
  | consume r =>
    obtain ⟨series, after⟩ := filled.consume (Prod.ext rfl (Prod.ext rfl completed)) quiet
    exact ⟨congrArg LogSeries.base series, after⟩
  | flush =>
    obtain ⟨series, file', -, filled'⟩ := filled.flush (Prod.ext rfl (Prod.ext rfl completed))
    exact ⟨congrArg LogSeries.base series, file', whole, filled'⟩
  | reopen maxBytes maxFiles style =>
    rcases flushed : f.flush host with ⟨f₁, host₁, outcome⟩
    rw [Use.apply, flushed] at completed
    dsimp only at completed
    subst completed
    obtain ⟨series, file₁, empty, filled₁⟩ := filled.flush flushed
    obtain ⟨file', filled'⟩ := filled₁.start empty maxBytes maxFiles style
    have closed : f.close host = host₁ := by rw [close_eq_flush, flushed]
    rw [series] at filled'
    rw [Use.apply, closed]
    have base' : (LogFile.start (.of f.series.base maxBytes maxFiles style) host₁).1.series.base =
        f.series.base := by
      rw [LogFile.start]
      split <;> rfl
    exact ⟨base', file', whole, filled'⟩

/-- Any uses, by induction on them: complaints stay, so none of the uses has made one. -/
theorem run {uses : List Use} (filled : Filled top f host.files directory file whole)
    (completed : ∀ outcome ∈ (Use.run f host uses).2.2, outcome = .completed)
    (quiet : (Use.run f host uses).2.1.reports = host.reports) :
    (Use.run f host uses).1.series.base = f.series.base ∧ ∃ file' whole',
      Filled ((Use.rotations f host uses).foldl raiseTop top) (Use.run f host uses).1
        (Use.run f host uses).2.1.files directory file' whole' := by
  induction uses generalizing top f host file whole with
  | nil => exact ⟨rfl, file, whole, filled⟩
  | cons use rest inductionHypothesis =>
    have quietUse : (use.apply f host).2.1.reports = host.reports :=
      eq_of_prefixes (Use.reports_apply f host use) (Use.reports_run _ _ rest) quiet
    obtain ⟨base, file₁, whole₁, filled₁⟩ := filled.apply (completed _ List.mem_cons_self) quietUse
    obtain ⟨base', after⟩ := inductionHypothesis filled₁
      (fun outcome member => completed outcome (List.mem_cons_of_mem _ member))
      (quiet.trans quietUse.symm)
    rw [Use.rotations, List.foldl_append]
    exact ⟨base'.trans base, after⟩

/-- A log file that is started where its series has no files has only file 0. -/
theorem of_fresh {s : LogSeries} (fresh : s.Fresh host.files)
    (quiet : (LogFile.start s host).2.reports = host.reports) :
    (LogFile.start s host).1.series = s ∧ ∃ directory file,
      Filled 0 (LogFile.start s host).1 (LogFile.start s host).2.files directory file
        ByteArray.empty := by
  obtain ⟨directory, file, tracks⟩ := Tracks.start fresh quiet
  have series := tracks.series
  refine ⟨series, directory, file, tracks.opened, ?_, ?_, tracks.number, ?_⟩
  · rw [series]
    exact tracks.leads
  · rw [series]
    exact tracks.holds
  · rw [series]
    refine ⟨fun number positive none => absurd positive (Nat.not_lt_of_le none), ?_, tracks.fits⟩
    intro number positive fits
    obtain ⟨index, rfl⟩ := Nat.exists_eq_add_one_of_ne_zero (Nat.ne_of_gt positive)
    exact tracks.shelved.absent index (.inr (Nat.zero_le index)) fits

end Filled

end LogFile

/-- A log file is started where its series has no files, and used any number of times, as often reopened
with other bounds as one likes, and no use fails or complains. Its rotations have raised the highest
number, from 0 on, each under the bound that was in force.

* There are the files up to this number and no others. It is within the bound now in force if none of
  the bounds was higher.
* After one more record with a rotation there are those up to the number raised again. Each file above the
  bound that was there before has the bytes that it had. So there are none above the bound exactly if
  there were none before.

Proof: `Filled` holds when the log file is started and is kept by each use, with the number raised by
each rotation. A rotation reaches the files up to its bound and no others. -/
theorem retained_numbers_exact (base : Path) (maxBytes maxFiles : Nat) (style : FileStyle) (host : Host)
    (uses : List Use) {started : LogFile × Host} {ended : LogFile × Host × List Outcome}
    (opened : LogFile.start (.of base maxBytes maxFiles style) host = started)
    (ran : Use.run started.1 started.2 uses = ended)
    (fresh : (LogSeries.of base maxBytes maxFiles style).Fresh host.files)
    (completed : ∀ outcome ∈ ended.2.2, outcome = .completed)
    (quiet : ended.2.1.reports = host.reports) :
    let f := ended.1
    let s := f.series
    let bounds := Use.rotations started.1 started.2 uses
    let top := bounds.foldl raiseTop 0
    s.base = base ∧
      (∀ number, ended.2.1.files.pathExists (s.path number) = true ↔ number ≤ top) ∧
      ((∀ bound ∈ bounds, bound ≤ s.maxFiles) → top ≤ s.maxFiles) ∧
      ∀ r f' host', f.isDue (s.line r).size = true →
        f.consume ended.2.1 r = (f', host', .completed) → host'.reports = host.reports →
          (∀ number, host'.files.pathExists (s.path number) = true ↔
            number ≤ raiseTop top s.maxFiles) ∧
          (∀ number, s.maxFiles < number → number ≤ top → ∃ content,
            ended.2.1.files.readBytes (s.path number) = .ok content ∧
              host'.files.readBytes (s.path number) = .ok content) ∧
          ((∀ number, s.maxFiles < number → host'.files.pathExists (s.path number) = false) ↔
            top ≤ s.maxFiles) := by
  intro f s bounds top
  subst opened ran
  have quietStart := eq_of_prefixes (reports_start (.of base maxBytes maxFiles style) host)
    (Use.reports_run _ _ uses) quiet
  obtain ⟨series, directory, file₀, filled₀⟩ := Filled.of_fresh fresh quietStart
  obtain ⟨base', file, whole, filled⟩ := filled₀.run completed (quiet.trans quietStart.symm)
  refine ⟨base'.trans (congrArg LogSeries.base series), filled.pathExists_iff,
    foldl_raiseTop_le (Nat.zero_le _), ?_⟩
  intro r f' host' due consumed quiet'
  have quietRecord := quiet'.trans quiet.symm
  obtain ⟨series', file', whole', filled'⟩ := filled.consume consumed quietRecord
  rw [Use.rotation?, if_pos due] at filled'
  have numbers : ∀ number, host'.files.pathExists (s.path number) = true ↔
      number ≤ raiseTop top s.maxFiles := by
    intro number
    have known := filled'.pathExists_iff number
    rwa [series'] at known
  refine ⟨numbers, fun number above within => filled.consume_above due consumed quietRecord above
    within, ?_⟩
  rw [← raiseTop_le_iff]
  constructor
  · intro none
    by_contra beyond
    have there := (numbers (raiseTop top s.maxFiles)).2 (Nat.le_refl _)
    rw [none _ (Nat.lt_of_not_le beyond)] at there
    cases there
  · intro le number above
    rw [← Bool.not_eq_true, numbers]
    exact Nat.not_le_of_lt (Nat.lt_of_le_of_lt le above)

/-- Three records, of which each has a file to itself, under bound 2. Started again with bound 1 and given
a fourth record, the log file has number 2 still, with the bytes that were there. -/
theorem number_above_lowered_bound :
    let r : Record := ⟨⟨0⟩, 1, .info, none, "hello"⟩
    let s := LogSeries.of ⟨"app"⟩ 60 2 .line
    let started := LogFile.start s (.ofFiles .empty)
    let uses : List Use := [.consume r, .consume r, .consume r, .reopen 60 1 .line]
    let ended := Use.run started.1 started.2 uses
    let consumed := ended.1.consume ended.2.1 r
    s.Fresh .empty ∧ (∀ outcome ∈ ended.2.2, outcome = .completed) ∧ ended.2.1.reports = [] ∧
      Use.rotations started.1 started.2 uses = [2, 2] ∧ ended.1.series.maxFiles = 1 ∧
      ended.1.isDue (ended.1.series.line r).size = true ∧ consumed.2.2 = .completed ∧
      consumed.2.1.reports = [] ∧
      (∀ number, consumed.2.1.files.pathExists (ended.1.series.path number) = true ↔ number ≤ 2) ∧
      ∃ content, ended.2.1.files.readBytes (ended.1.series.path 2) = .ok content ∧
        consumed.2.1.files.readBytes (ended.1.series.path 2) = .ok content := by
  intro r s started uses ended consumed
  have fresh : s.Fresh .empty := fresh_of_empty (by decide +kernel) (by decide +kernel)
  obtain ⟨completed, quiet, bounds, bound, due, consumes, quiet'⟩ :
      (∀ outcome ∈ ended.2.2, outcome = .completed) ∧ ended.2.1.reports = [] ∧
        Use.rotations started.1 started.2 uses = [2, 2] ∧ ended.1.series.maxFiles = 1 ∧
        ended.1.isDue (ended.1.series.line r).size = true ∧ consumed.2.2 = .completed ∧
        consumed.2.1.reports = [] := by
    decide +kernel
  obtain ⟨numbers, same, -⟩ := (retained_numbers_exact ⟨"app"⟩ 60 2 .line (.ofFiles .empty) uses
    (Eq.refl started) (Eq.refl ended) fresh completed quiet).2.2.2 r consumed.1 consumed.2.1
    due (by rw [← consumes]) quiet'
  rw [bounds, bound] at numbers same
  exact ⟨fresh, completed, quiet, bounds, bound, due, consumes, quiet', numbers,
    same 2 (by decide) (by decide)⟩

/-- A log file under bound 2 that is given three records and closed leaves files 0, 1 and 2. A log file that
is then started under bound 1 rotates before a fourth record. Nothing has failed and nothing has been
complained of, but file 2 is still there, with the first record in it. -/
theorem lowered_bound_leaves_file :
    let record := fun message : String =>
      (⟨.ofSeconds 1709210096 789000000, 7, .info, none, message⟩ : Record)
    let earlier := LogFile.start (.of ⟨"app"⟩ 60 2 .line) (.ofFiles .empty)
    let filled := Use.run earlier.1 earlier.2
      [.consume (record "first"), .consume (record "second"), .consume (record "third")]
    let s := LogSeries.of ⟨"app"⟩ 60 1 .line
    let started := LogFile.start s (filled.1.close filled.2.1)
    let consumed := started.1.consume started.2 (record "fourth")
    s.Fresh .empty ∧ (∀ outcome ∈ filled.2.2, outcome = .completed) ∧
      started.1.isDue (s.line (record "fourth")).size = true ∧ consumed.2.2 = .completed ∧
      consumed.2.1.reports = [] ∧ s.maxFiles = 1 ∧
      started.2.files.readBytes (s.path 2) = .ok (s.line (record "first")) ∧
      consumed.2.1.files.readBytes (s.path 1) = .ok (s.line (record "third")) ∧
      consumed.2.1.files.readBytes (s.path 2) = .ok (s.line (record "first")) :=
  ⟨fresh_of_empty (by decide +kernel) (by decide +kernel), by decide +kernel⟩

end KeyValueService
