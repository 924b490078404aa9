import KeyValueService.Proofs.ObstructedRotation

/-!
# Rotation as a shift

A rotation in which nothing fails, of a series with files and gaps under any numbers. Main statement:
`rotation_shifts_files`. What the paths up to the last number that is kept have led to is found one
number higher, file 0 is new and empty, the last file is gone, and nothing else has changed.

Where the directory of the series has been taken away since file 0 was opened, no path of the series
leads anywhere, and nothing moves. It is made again for the new file 0 then, which is the only change
elsewhere (`rotation_without_directory`).
-/

namespace KeyValueService

namespace FileSystem

/-- The entry that a path leads to, if it leads to one. -/
def entryOf? (fs : FileSystem) (p : Path) : Option Entry :=
  (fs.find p).toOption

section Following

variable {fs fs' : FileSystem} {p : Path}

theorem entryOf?_eq_some_iff {entry : Entry} : fs.entryOf? p = some entry ↔ fs.find p = .ok entry := by
  rw [entryOf?]
  cases fs.find p <;> simp [Except.toOption]

theorem entryOf?_of_error {e : DiskError} (refused : fs.resolve p = .error e) :
    fs.entryOf? p = none := by
  rw [entryOf?, find, refused]
  rfl

/-- With the same directories a path leads to the same entry, if that is the same where it leads. -/
theorem entryOf?_congr (keeps : KeepsDirectories fs fs') (keeps' : KeepsDirectories fs' fs)
    (same : ∀ target, fs.resolve p = .ok target →
      fs'.entryAt? target.location = fs.entryAt? target.location) : fs'.entryOf? p = fs.entryOf? p := by
  cases resolved : fs.resolve p with
  | ok target =>
    have resolved' := resolve_of_keepsDirectories keeps resolved
    rw [same target resolved, ← entry_of_resolve resolved] at resolved'
    rw [entryOf?, entryOf?, find, find, resolved, resolved']
  | error e =>
    cases resolved' : fs'.resolve p with
    | ok target =>
      rw [resolve_of_keepsDirectories keeps' resolved'] at resolved
      cases resolved
    | error e' => rw [entryOf?_of_error resolved, entryOf?_of_error resolved']

/-- Making directories does not change what a path leads to. -/
theorem Grows.entryOf? (grows : Grows fs fs') {entry : Entry} (there : fs.entryOf? p = some entry) :
    fs'.entryOf? p = some entry := by
  rw [entryOf?_eq_some_iff] at there ⊢
  cases resolved : fs.resolve p with
  | error e => simp [find, resolved] at there
  | ok target =>
    have resolved' := resolve_of_keepsDirectories grows.keepsDirectories resolved
    have known := entry_of_resolve resolved
    rw [find, resolved] at there
    rw [find, resolved']
    obtain ⟨location, entry', slash, isNamed⟩ := target
    cases entry' with
    | none => simp at there
    | some entry' =>
      dsimp only at known ⊢
      rw [grows.keeps known.symm]
      exact there

/-- What files hold makes no difference to whether a path leads to a directory, a file or nothing. -/
theorem Alike.entryOf? (alike : Alike fs fs') (p : Path) :
    SameKind (fs.entryOf? p) (fs'.entryOf? p) := by
  rw [FileSystem.entryOf?, FileSystem.entryOf?, find, find]
  rcases alike.resolve_cases p with
    ⟨e, refused, refused'⟩ | ⟨location, entry, entry', slash, isNamed, resolved, resolved', kind⟩
  · rw [refused, refused']
    exact .none
  · rw [resolved, resolved']
    cases kind with
    | none => exact .none
    | directory => exact .directory
    | file =>
      cases slash with
      | false => exact .file
      | true => exact .none

end Following

end FileSystem

namespace LogSeries

open FileSystem LogFile

variable {s : LogSeries} {fs : FileSystem} {directory : Location} {number : Nat}

theorem entryOf?_of_leads (leads : fs.Leads s.base.folder directory)
    (fits : (s.path number).Fits (s.fileName number)) :
    fs.entryOf? (s.path number) = fs.entryAt? (s.slot directory number) := by
  rw [entryOf?, find_of_leads (s.path_splits number) leads fits, ← slot]
  cases fs.entryAt? (s.slot directory number) <;> rfl

theorem entryOf?_of_not_fits (leads : fs.Leads s.base.folder directory)
    (unfit : ¬(s.path number).Fits (s.fileName number)) : fs.entryOf? (s.path number) = none := by
  obtain ⟨e, refused, -⟩ := resolve_of_not_fits (s.path_splits number) leads unfit
  exact entryOf?_of_error refused

/-- No path of a series leads anywhere if the directory of the series is not there. -/
theorem resolve_of_unled (unled : ∀ directory, ¬fs.Leads s.base.folder directory) (number : Nat) :
    ∃ e, fs.resolve (s.path number) = .error e := by
  cases resolved : fs.resolve (s.path number) with
  | error e => exact ⟨e, rfl⟩
  | ok target =>
    obtain ⟨directory, leads, -⟩ := leads_of_resolve (s.path_splits number) resolved
    exact absurd leads (unled directory)

/-- With the directory of a series there is nothing to make. -/
theorem makeParents_of_leads (leads : fs.Leads s.base.folder directory)
    (fits : (s.path number).Fits (s.fileName number)) : fs.makeParents (s.path 0) = (fs, .ok ()) :=
  makeParents_of_settled (settled_of_resolve
    (resolve_of_leads (s.path_splits 0) leads (fits_of_le (Nat.zero_le number) fits)))

/-- No path of a series leads to a directory. -/
def LeadsToFiles (s : LogSeries) (fs : FileSystem) : Prop :=
  ∀ number, fs.entryOf? (s.path number) ≠ some .directory

theorem LeadsToFiles.holdsFiles (files : s.LeadsToFiles fs)
    (leads : fs.Leads s.base.folder directory) (count : Nat) : s.HoldsFiles directory count fs := by
  intro number _ fits
  rw [← entryOf?_of_leads leads fits]
  exact files number

theorem leadsToFiles_of_entries (files : ∀ location, (location, Entry.directory) ∉ fs.entries) :
    s.LeadsToFiles fs := by
  intro number there
  obtain ⟨directory, leads, fits⟩ := leads_of_find (entryOf?_eq_some_iff.1 there)
  rw [entryOf?_of_leads leads fits] at there
  exact files _ (mem_of_lookup? there)

/-- A path that leads to another place than all paths of a series up to a number. -/
def Beside (s : LogSeries) (top : Nat) (fs : FileSystem) (p : Path) : Prop :=
  ∀ number ≤ top, ∀ target target', fs.resolve p = .ok target →
    fs.resolve (s.path number) = .ok target' → target.location ≠ target'.location

/-- The paths of a series lead to different places. -/
theorem beside_of_lt {top number : Nat} (above : top < number) (fs : FileSystem) :
    s.Beside top fs (s.path number) := by
  intro other within target target' resolved resolved'
  obtain ⟨directory, leads, fits⟩ := leads_of_resolve (s.path_splits number) resolved
  obtain ⟨-, -, fits'⟩ := leads_of_resolve (s.path_splits other) resolved'
  rw [resolve_of_leads (s.path_splits number) leads fits] at resolved
  rw [resolve_of_leads (s.path_splits other) leads fits'] at resolved'
  cases resolved
  cases resolved'
  intro same
  exact absurd (slot_inj.1 same) (Nat.ne_of_gt (Nat.lt_of_le_of_lt within above))

end LogSeries

namespace LogFile

open FileSystem LogSeries

/-! ## What is done at each location -/

section Renewed

variable {s : LogSeries} {fs fs' : FileSystem} {directory : Location}
  (renewed : Renewed s directory fs fs') (files : s.HoldsFiles directory (s.maxFiles + 1) fs)

include renewed files

theorem Renewed.keepsDirectories_back : KeepsDirectories fs' fs :=
  ⟨renewed.workingDirectory.symm, fun location => (renewed.directory_iff files location).1⟩

/-- A path that leads to no numbered place leads to the same entry as before. -/
theorem Renewed.entryOf?_of_beside (leads : fs.Leads s.base.folder directory) {p : Path}
    (beside : s.Beside s.maxFiles fs' p) : fs'.entryOf? p = fs.entryOf? p := by
  have keeps := renewed.keepsDirectories files
  refine entryOf?_congr keeps (renewed.keepsDirectories_back files) ?_
  intro target resolved
  refine renewed.elsewhere target.location fun number within fits => ?_
  exact beside number within _ _ (resolve_of_keepsDirectories keeps resolved)
    (resolve_of_leads (s.path_splits number) (leads.of_keepsDirectories keeps) fits)

/-- Numbered paths lead to what those one number below led to. -/
theorem Renewed.entryOf?_next (leads : fs.Leads s.base.folder directory) {number : Nat}
    (below : number < s.maxFiles) (fits : (s.path (number + 1)).Fits (s.fileName (number + 1))) :
    fs'.entryOf? (s.path (number + 1)) = fs.entryOf? (s.path number) := by
  have leads' := leads.of_keepsDirectories (renewed.keepsDirectories files)
  rw [entryOf?_of_leads leads' fits, entryOf?_of_leads leads (fits_of_le (Nat.le_succ number) fits),
    renewed.next number below fits]

end Renewed

/-- A file under the last number is gone, and none that is left has its number. -/
theorem Renewed.gone {s : LogSeries} {fs fs' : FileSystem} {directory : Location}
    (renewed : Renewed s directory fs fs') (sound : fs.Sound)
    (fits : (s.path s.maxFiles).Fits (s.fileName s.maxFiles)) {number : Nat} {content : ByteArray}
    (there : fs.entryAt? (s.slot directory s.maxFiles) = some (.file number content))
    (location : Location) (content' : ByteArray) :
    fs'.entryAt? location ≠ some (.file number content') := by
  intro there'
  by_cases inside : ∃ other ≤ s.maxFiles, location = s.slot directory other
  · obtain ⟨other, within, rfl⟩ := inside
    cases other with
    | zero =>
      rw [renewed.first] at there'
      cases there'
      exact absurd (sound.fresh _ _ _ there) (Nat.lt_irrefl _)
    | succ other =>
      rw [renewed.next other within (fits_of_le within fits)] at there'
      exact absurd (slot_inj.1 (sound.distinct _ _ _ _ _ there there')) (Nat.ne_of_gt within)
  · rw [renewed.elsewhere location fun other within _ same => inside ⟨other, within, same⟩] at there'
    exact inside ⟨s.maxFiles, Nat.le_refl _, (sound.distinct _ _ _ _ _ there there').symm⟩

/-! ## The directory of the series -/

section Unled

variable {s : LogSeries} {host : Host} (unled : ∀ directory, ¬host.files.Leads s.base.folder directory)

include unled

/-- Without the directory of the series there is nothing to move. -/
theorem advance_of_unled (quiet : (s.advance host).reports = host.reports) : s.advance host = host := by
  have shifts : ∀ count, s.shiftBelow host count = host := by
    intro count
    induction count with
    | zero => rfl
    | succ count inductionHypothesis =>
      obtain ⟨e, refused⟩ := resolve_of_unled unled count
      have missing : host.files.pathExists (s.path count) = false := by
        rw [pathExists, find, refused]
        rfl
      rw [shiftBelow, shift, if_neg (by simp [missing]), inductionHypothesis]
  have quietDrop := eq_of_prefixes (s.reports_dropOldest host) (s.reports_shiftBelow _ s.maxFiles) quiet
  obtain ⟨e, refused⟩ := resolve_of_unled unled s.maxFiles
  have dropped : s.dropOldest host = host := by
    rw [dropOldest, remove, refused] at quietDrop ⊢
    cases e
    case notFound => rfl
    all_goals exact absurd quietDrop (report_ne host _)
  rw [advance, dropped, shifts]

end Unled

/-- Reopening without a complaint makes the directories that are missing. -/
theorem reopen_exact {s : LogSeries} {host : Host}
    (quiet : (reopen s host).2.reports = host.reports) :
    ∃ made directory, host.files.makeParents (s.path 0) = (made, .ok ()) ∧
      made.Leads s.base.folder directory ∧ (s.path 0).Fits (s.fileName 0) ∧
      reopen s host = reopen s { host with files := made } := by
  rcases prepared : host.files.makeParents (s.path 0) with ⟨made, e | ⟨⟩⟩
  · rw [reopen, openFresh, prepared] at quiet
    exact absurd quiet (report_ne { host with files := made } _)
  · have same : reopen s host = reopen s { host with files := made } := by
      rw [reopen, reopen, openFresh, openFresh, prepared,
        makeParents_of_settled (settled_of_makeParents prepared)]
    cases resolved : made.resolve (s.path 0) with
    | ok target =>
      obtain ⟨directory, leads, fits⟩ := leads_of_resolve (s.path_splits 0) resolved
      exact ⟨made, directory, rfl, leads, fits, same⟩
    | error e =>
      rw [reopen, openFresh, prepared] at quiet
      dsimp only at quiet
      rw [openEmptied, resolved] at quiet
      exact absurd quiet (report_ne { host with files := made } _)

/-- A rotation in which nothing fails, after file 0 has been closed, and where making directories brings
no file to light. -/
theorem renewed_of_quiet {s : LogSeries} {host : Host} {made : FileSystem}
    (prepared : (host.files.makeParents (s.path 0)).1 = made) (files : s.LeadsToFiles host.files)
    (same : ∀ number, made.entryOf? (s.path number) = host.files.entryOf? (s.path number))
    (quiet : (reopen s (s.advance host)).2.reports = host.reports) :
    ∃ directory, made.Leads s.base.folder directory ∧ (s.path 0).Fits (s.fileName 0) ∧
      (reopen s (s.advance host)).1 = ⟨s, some (.ofHandle ⟨made.nextNumber, some 0⟩), 0⟩ ∧
      Renewed s directory made (reopen s (s.advance host)).2.files ∧
      ∀ number < s.maxFiles, ¬(s.path (number + 1)).Fits (s.fileName (number + 1)) →
        made.entryOf? (s.path number) = none := by
  by_cases led : ∃ directory, host.files.Leads s.base.folder directory
  · obtain ⟨directory, leads⟩ := led
    obtain ⟨fits, -, log, renewed⟩ := reopen_advance_exact leads (files.holdsFiles leads _) quiet
    rw [makeParents_of_leads leads fits] at prepared
    subst prepared
    refine ⟨directory, leads, fits_of_le (Nat.zero_le _) fits, log, renewed, ?_⟩
    exact fun number below unfit => absurd (fits_of_le below fits) unfit
  · rw [not_exists] at led
    have nothing : ∀ number, made.entryOf? (s.path number) = none := by
      intro number
      obtain ⟨e, refused⟩ := resolve_of_unled led number
      rw [same, entryOf?_of_error refused]
    have quietAdvance := eq_of_prefixes (s.reports_advance host) (reports_reopen s _) quiet
    rw [advance_of_unled led quietAdvance] at quiet ⊢
    obtain ⟨made', directory, prepared', leads, fits, reopened⟩ := reopen_exact quiet
    rw [prepared'] at prepared
    subst prepared
    have vacant : ∀ number, (s.path number).Fits (s.fileName number) →
        made'.entryAt? (s.slot directory number) = none := by
      intro number fits'
      rw [← entryOf?_of_leads leads fits', nothing]
    have entries := entryAt?_addFile made' (s.slot_below directory 0)
    rw [@reopen_of_leads s { host with files := made' } directory leads fits, vacant 0 fits] at reopened
    rw [reopened]
    refine ⟨directory, leads, fits, rfl, ⟨rfl, rfl, ?_, ?_, ?_⟩, fun number _ _ => nothing number⟩
    · rw [entries, if_pos rfl]
    · intro number _ fits'
      have differs : s.slot directory (number + 1) ≠ s.slot directory 0 := fun equal =>
        absurd (slot_inj.1 equal) (Nat.succ_ne_zero number)
      rw [entries, if_neg differs, vacant _ fits', vacant _ (fits_of_le (Nat.le_succ number) fits')]
    · intro location outside
      rw [entries, if_neg (outside 0 (Nat.zero_le _) fits)]

/-! ## What was held back -/

/-- A flush that completes has done what closing does. -/
theorem closeCurrent_of_flush {f f₁ : LogFile} {host host₁ : Host}
    (flushed : f.flush host = (f₁, host₁, .completed)) :
    f.closeCurrent host = host₁ ∧ host₁.reports = host.reports := by
  have reports := f.reports_flush host
  rw [flushed] at reports
  refine ⟨?_, reports⟩
  cases opened : f.current with
  | none =>
    rw [flush, opened] at flushed
    cases flushed
    rw [closeCurrent, opened]
  | some file =>
    obtain ⟨files, file', flushes, -, rfl⟩ := flush_exact opened flushed
    obtain ⟨-, -, empty, -⟩ := BufferedFile.flush_exact flushes
    rw [closeCurrent, opened]
    dsimp only
    rw [flushes]
    dsimp only
    rw [close_ofHandle files empty]

/-- A flush that completes has written bytes, or there was nothing to be flushed. -/
theorem write_of_flush {f f₁ : LogFile} {host host₁ : Host}
    (flushed : f.flush host = (f₁, host₁, .completed)) :
    host₁.files = host.files ∨
      ∃ handle bytes handle', host.files.write handle bytes = .ok (host₁.files, handle') := by
  cases opened : f.current with
  | none =>
    rw [flush, opened] at flushed
    cases flushed
    exact .inl rfl
  | some file =>
    obtain ⟨files, file', flushes, -, rfl⟩ := flush_exact opened flushed
    rw [BufferedFile.flush] at flushes
    split at flushes
    next files' handle wrote =>
      cases flushes
      exact .inr ⟨_, _, handle, wrote⟩
    next e refused => cases flushes

theorem sound_of_flush {f f₁ : LogFile} {host host₁ : Host} (sound : host.files.Sound)
    (flushed : f.flush host = (f₁, host₁, .completed)) : host₁.files.Sound := by
  rcases write_of_flush flushed with same | ⟨handle, bytes, handle', wrote⟩
  · rwa [same]
  · exact sound.write wrote

theorem alike_of_flush {f f₁ : LogFile} {host host₁ : Host}
    (flushed : f.flush host = (f₁, host₁, .completed)) : Alike host.files host₁.files := by
  rcases write_of_flush flushed with same | ⟨handle, bytes, handle', wrote⟩
  · rw [same]
    exact .refl _
  · exact alike_of_write wrote

/-- A flush puts what was held back at the end of file 0 and changes nothing else. -/
theorem Appends.flush {f f₁ : LogFile} {host host₁ : Host} {file : BufferedFile} {content : ByteArray}
    (sound : host.files.Sound) (appends : f.Appends host.files file content)
    (flushed : f.flush host = (f₁, host₁, .completed)) :
    host₁.files.entryOf? (f.series.path 0) =
        some (.file file.handle.number (content ++ file.pending)) ∧
      ∀ p, f.series.Beside 0 host.files p → host₁.files.entryOf? p = host.files.entryOf? p := by
  obtain ⟨directory, leads, fits⟩ := leads_of_find appends.find
  obtain ⟨-, there⟩ := entry_of_find leads appends.find
  rw [numbered] at there
  obtain ⟨files, file', flushes, -, rfl⟩ := flush_exact appends.current flushed
  obtain ⟨sameNumber, only, empty, kept⟩ := BufferedFile.flush_exact flushes
  have after : files.entryAt? (f.series.slot directory 0) =
      some (.file file.handle.number (content ++ file.pending)) := by
    rw [← sameNumber]
    exact (kept _ _ ⟨content, there, rfl, appends.atEnd⟩).entryAt? empty
  have others : ∀ location, location ≠ f.series.slot directory 0 →
      files.entryAt? location = host.files.entryAt? location := by
    intro location differs
    refine only.entryAt? location fun content' there' => ?_
    exact differs (sound.distinct _ _ _ _ _ there' there)
  have keeps := only.keepsDirectories
  have keeps' : KeepsDirectories files host.files := by
    refine ⟨only.workingDirectory.symm, fun location there' => ?_⟩
    rw [← others location, there']
    rintro rfl
    rw [after] at there'
    cases there'
  constructor
  · rw [entryOf?_of_leads (leads.of_keepsDirectories keeps) fits, after]
  · intro p beside
    refine entryOf?_congr keeps keeps' fun target resolved => others _ ?_
    exact beside 0 (Nat.le_refl _) _ _ resolved (resolve_of_leads (f.series.path_splits 0) leads fits)

end LogFile

open FileSystem LogSeries LogFile

/-- A log file with at least one file kept besides file 0 is rotated, and neither the flush of what is
held back nor anything else fails. There are no links. No numbered path leads to a directory, and one
that leads to nothing still does once the missing directories that it lies in have been made.

* The flush puts what was held back at the end of file 0 and changes no other path.
* Each path below the last number that is kept then passes on what it leads to, the same file with the
  same bytes or nothing, to the path with the next number.
* Path 0 leads to an empty file, which is the one written to from now on.
* The file that the path with the last number led to is nowhere any more.
* Paths with higher numbers lead to what they led to, and so does every path that leads to another place
  than those up to the last number, unless it leads to a directory that was missing. None was missing if
  the series had its directory.

Proof: with the directory there, the files move up one by one, the highest first; without it no path of
the series leads anywhere until file 0 is made. Either way the file system is as `Renewed` says. What
the files hold makes no difference to where paths lead, so all this may be assumed after the flush. -/
theorem rotation_shifts_files {f f₁ : LogFile} {host host₁ : Host} (sound : host.files.Sound)
    (flushed : f.flush host = (f₁, host₁, .completed))
    (quiet : (f.rotate host).2.reports = host.reports) (files : f.series.LeadsToFiles host.files)
    (unmasked : ∀ number, host.files.entryOf? (f.series.path number) = none →
      (host.files.makeParents (f.series.path 0)).1.entryOf? (f.series.path number) = none) :
    let s := f.series
    let fs := host₁.files
    let made := (fs.makeParents (s.path 0)).1
    let fs' := (f.rotate host).2.files
    (∀ file content, f.Appends host.files file content →
        fs.entryOf? (s.path 0) = some (.file file.handle.number (content ++ file.pending)) ∧
        ∀ p, s.Beside 0 host.files p → fs.entryOf? p = host.files.entryOf? p) ∧
      (∀ number < s.maxFiles, fs'.entryOf? (s.path (number + 1)) = fs.entryOf? (s.path number)) ∧
      (∃ number, fs'.entryOf? (s.path 0) = some (.file number ByteArray.empty) ∧
        (f.rotate host).1 = ⟨s, some (.ofHandle ⟨number, some 0⟩), 0⟩) ∧
      (∀ number content, fs.entryOf? (s.path s.maxFiles) = some (.file number content) →
        ∀ location content', fs'.entryAt? location ≠ some (.file number content')) ∧
      (∀ number, s.maxFiles < number → fs'.entryOf? (s.path number) = fs.entryOf? (s.path number)) ∧
      (∀ p, s.Beside s.maxFiles fs' p → fs'.entryOf? p = made.entryOf? p) ∧
      Grows fs made ∧ (fs.Settled (s.path 0) → made = fs) := by
  intro s fs made fs'
  obtain ⟨closed, reports⟩ := closeCurrent_of_flush flushed
  have rotates : f.rotate host = reopen s (s.advance host₁) := by rw [rotate, closed]
  have grows : Grows fs made := makeParents_grows fs (s.path 0)
  have alike := alike_of_flush flushed
  have files₁ : s.LeadsToFiles fs := fun number there =>
    files number ((alike.entryOf? (s.path number)).directory_iff.1 there)
  have same : ∀ number, made.entryOf? (s.path number) = fs.entryOf? (s.path number) := by
    intro number
    cases there : fs.entryOf? (s.path number) with
    | none =>
      have missing := unmasked number ((alike.entryOf? (s.path number)).none_iff.1 there)
      exact ((alike.makeParents (s.path 0)).entryOf? (s.path number)).none_iff.2 missing
    | some entry => exact grows.entryOf? there
  rw [rotates, ← reports] at quiet
  obtain ⟨directory, leads, fits, log, renewed, gap⟩ := renewed_of_quiet (Eq.refl made) files₁ same quiet
  rw [← rotates] at log renewed
  have holds : ∀ count, s.HoldsFiles directory count made := by
    refine LeadsToFiles.holdsFiles (fun number => ?_) leads
    rw [same]
    exact files₁ number
  have leads' : fs'.Leads s.base.folder directory :=
    leads.of_keepsDirectories (renewed.keepsDirectories (holds _))
  refine ⟨?_, ?_, ⟨made.nextNumber, ?_, log⟩, ?_, ?_, ?_, grows, ?_⟩
  · exact fun file content appends => appends.flush sound flushed
  · intro number below
    rw [← same]
    by_cases fits' : (s.path (number + 1)).Fits (s.fileName (number + 1))
    · exact renewed.entryOf?_next (holds _) leads below fits'
    · rw [entryOf?_of_not_fits leads' fits', gap number below fits']
  · rw [entryOf?_of_leads leads' fits, renewed.first]
  · intro number content last
    rw [← same] at last
    have lastFits : (s.path s.maxFiles).Fits (s.fileName s.maxFiles) := by
      by_contra unfit
      rw [entryOf?_of_not_fits leads unfit] at last
      cases last
    rw [entryOf?_of_leads leads lastFits] at last
    have sound₁ := sound_of_flush sound flushed
    exact renewed.gone ((prepared_of_makeParents fs (s.path 0)).sound sound₁) lastFits last
  · intro number above
    rw [renewed.entryOf?_of_beside (holds _) leads (beside_of_lt above fs'), same]
  · intro p beside
    exact renewed.entryOf?_of_beside (holds _) leads beside
  · intro settled
    exact congrArg Prod.fst (makeParents_of_settled settled)

/-- Files under the numbers 0, 2, 3 and 5. -/
def gapped : FileSystem :=
  (((FileSystem.empty.addFile ["app.0.log"]).addFile ["app.2.log"]).addFile ["app.3.log"]).addFile
    ["app.5.log"]

theorem sound_gapped : gapped.Sound := by
  have zero : (FileSystem.empty.addFile ["app.0.log"]).Sound := sound_empty.addFile rfl nofun
  have two : ((FileSystem.empty.addFile ["app.0.log"]).addFile ["app.2.log"]).Sound :=
    zero.addFile rfl nofun
  have three : (((FileSystem.empty.addFile ["app.0.log"]).addFile ["app.2.log"]).addFile
      ["app.3.log"]).Sound := two.addFile rfl nofun
  exact three.addFile rfl nofun

theorem entryOf?_gapped :
    gapped.entryOf? ⟨"app.0.log"⟩ = some (.file 0 ByteArray.empty) ∧
      gapped.entryOf? ⟨"app.1.log"⟩ = none ∧
      gapped.entryOf? ⟨"app.2.log"⟩ = some (.file 1 ByteArray.empty) ∧
      gapped.entryOf? ⟨"app.3.log"⟩ = some (.file 2 ByteArray.empty) ∧
      gapped.entryOf? ⟨"app.5.log"⟩ = some (.file 3 ByteArray.empty) :=
  ⟨by rfl, by rfl, by rfl, by rfl, by rfl⟩

/-- With three files kept, the one under number 3 goes, the gap moves up with the others, number 5 stays
as it is, and what was held back comes to lie under number 1. -/
theorem rotation_with_gap :
    let s := LogSeries.of ⟨"app"⟩ 5 3 .line
    let f : LogFile := ⟨s, some ⟨⟨0, some 0⟩, "zero\n".toUTF8⟩, 5⟩
    let fs' := (f.rotate (.ofFiles gapped)).2.files
    gapped.Sound ∧ (f.flush (.ofFiles gapped)).2.2 = .completed ∧
      (f.rotate (.ofFiles gapped)).2.reports = [] ∧
      fs'.entryOf? (s.path 1) = some (.file 0 "zero\n".toUTF8) ∧ fs'.entryOf? (s.path 2) = none ∧
      fs'.entryOf? (s.path 3) = some (.file 1 ByteArray.empty) ∧
      (∀ location content, fs'.entryAt? location ≠ some (.file 2 content)) ∧
      fs'.entryOf? (s.path 5) = some (.file 3 ByteArray.empty) := by
  intro s f fs'
  obtain ⟨completed, quiet, inPlace⟩ : (f.flush (.ofFiles gapped)).2.2 = .completed ∧
      (f.rotate (.ofFiles gapped)).2.reports = [] ∧ (s.path 0).parent? = some ⟨""⟩ := by
    decide +kernel
  have flushed : f.flush (.ofFiles gapped) =
      ((f.flush (.ofFiles gapped)).1, (f.flush (.ofFiles gapped)).2.1, .completed) := by
    rw [← completed]
  have unmasked : ∀ number, gapped.entryOf? (s.path number) = none →
      (gapped.makeParents (s.path 0)).1.entryOf? (s.path number) = none := by
    rw [makeParents, inPlace]
    exact fun _ => id
  have files : s.LeadsToFiles gapped := by
    refine leadsToFiles_of_entries ?_
    have entries : gapped.entries =
      [(["app.5.log"], .file 3 ByteArray.empty), (["app.3.log"], .file 2 ByteArray.empty),
        (["app.2.log"], .file 1 ByteArray.empty), (["app.0.log"], .file 0 ByteArray.empty)] := by rfl
    simp [entries]
  obtain ⟨held, shifted, -, gone, above, -⟩ :=
    rotation_shifts_files sound_gapped flushed quiet files unmasked
  obtain ⟨zero, one, two, three, five⟩ := entryOf?_gapped
  have appends : f.Appends gapped ⟨⟨0, some 0⟩, "zero\n".toUTF8⟩ ByteArray.empty :=
    ⟨rfl, entryOf?_eq_some_iff.1 zero, by decide +kernel⟩
  obtain ⟨first, others⟩ := held _ _ appends
  have after : ∀ number, 0 < number →
      (f.flush (.ofFiles gapped)).2.1.files.entryOf? (s.path number) = gapped.entryOf? (s.path number) :=
    fun number positive => others _ (beside_of_lt positive gapped)
  refine ⟨sound_gapped, completed, quiet, ?_, ?_, ?_, ?_, ?_⟩
  · rw [shifted 0 (by decide), first, ByteArray.empty_append]
  · exact (shifted 1 (by decide)).trans ((after 1 (by decide)).trans one)
  · exact (shifted 2 (by decide)).trans ((after 2 (by decide)).trans two)
  · exact gone 2 ByteArray.empty ((after 3 (by decide)).trans three)
  · exact (above 5 (by decide)).trans ((after 5 (by decide)).trans five)

/-- A record has been written to a new series, and a directory is removed with all that is in it. -/
def cutOff (base directory : Path) : LogFile × Host :=
  let started := LogFile.start (.of base 60 1 .line) (.ofFiles .empty)
  let consumed := started.1.consume started.2 ⟨⟨0⟩, 1, .info, none, "hello"⟩
  (consumed.1, { consumed.2.1 with files := consumed.2.1.files.removeTree directory })

/-- Where no path of the series leads to anything, a rotation makes the directory that is missing. A path
through it that leads out of it again then leads to the file that has been there all the time, and which
is emptied. -/
theorem rotation_without_directory :
    let inside := cutOff ⟨"d/app"⟩ ⟨"d"⟩
    let inFiles := (inside.1.flush inside.2).2.1.files
    let outside := cutOff ⟨"x/../app"⟩ ⟨"x"⟩
    let outFiles := (outside.1.flush outside.2).2.1.files
    ((inside.1.flush inside.2).2.2 = .completed ∧ (inside.1.rotate inside.2).2.reports = [] ∧
        (∀ number, inFiles.entryOf? (inside.1.series.path number) = none) ∧
        inFiles.isDirectory ⟨"d"⟩ = false ∧
        (inside.1.rotate inside.2).2.files.isDirectory ⟨"d"⟩ = true) ∧
      (outside.1.flush outside.2).2.2 = .completed ∧ (outside.1.rotate outside.2).2.reports = [] ∧
        (∀ number, outFiles.entryOf? (outside.1.series.path number) = none) ∧
        outFiles.readBytes ⟨"app.0.log"⟩ = .ok (outside.1.series.line ⟨⟨0⟩, 1, .info, none, "hello"⟩) ∧
        (outside.1.rotate outside.2).2.files.readBytes ⟨"app.0.log"⟩ = .ok ByteArray.empty := by
  intro inside inFiles outside outFiles
  have inWalk : inFiles.walk (inFiles.origin inside.1.series.base.folder)
      (Path.parts inside.1.series.base.folder) = .ok ["d"] := by decide +kernel
  have inGone : (inFiles.entryAt? ["d"]).isSome = false := by decide +kernel
  have outWalk : outFiles.walk (outFiles.origin outside.1.series.base.folder)
      (Path.parts outside.1.series.base.folder) = .error .notFound := by decide +kernel
  refine ⟨⟨by decide +kernel, by decide +kernel, ?_, by decide +kernel⟩, by decide +kernel,
    by decide +kernel, ?_, by decide +kernel⟩
  · intro number
    have unled : ∀ directory, ¬inFiles.Leads inside.1.series.base.folder directory := by
      intro directory leads
      cases inWalk.symm.trans leads.walk
      rw [leads.entryAt?] at inGone
      cases inGone
    obtain ⟨e, refused⟩ := resolve_of_unled unled number
    exact entryOf?_of_error refused
  · intro number
    have unled : ∀ directory, ¬outFiles.Leads outside.1.series.base.folder directory := by
      intro directory leads
      cases outWalk.symm.trans leads.walk
    obtain ⟨e, refused⟩ := resolve_of_unled unled number
    exact entryOf?_of_error refused

end KeyValueService
