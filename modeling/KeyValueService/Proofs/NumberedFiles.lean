import KeyValueService.Proofs.DirectoryMaking
import KeyValueService.Sink.LogSeries
import Mathlib.Data.List.TakeWhile
import Std.Data.String.ToNat

/-!
# The numbered files of a series

All files of a series lie in one directory, under names that differ for different numbers.
Making room for a new file 0 moves exactly those: what was under a number is afterwards
under the next one, what was under the last number that is kept is gone, and nothing else in
the file system has moved. All this is said of an advance that makes no complaint; complaints
are never taken back, so an advance without one is made of steps without one.
-/

namespace KeyValueService

namespace Path

/-- A path up to its last slash, with the slash. -/
def folder (p : Path) : List Char :=
  (p.text.toList.reverse.dropWhile (· ≠ '/')).reverse

/-- What comes after the last slash of a path. -/
def leaf (p : Path) : List Char :=
  (p.text.toList.reverse.takeWhile (· ≠ '/')).reverse

theorem folder_append_leaf (p : Path) : p.folder ++ p.leaf = p.text.toList := by
  rw [folder, leaf, ← List.reverse_append, List.takeWhile_append_dropWhile, List.reverse_reverse]

theorem folder_eq_nil_or (p : Path) : p.folder = [] ∨ p.folder.getLast? = some '/' := by
  rw [folder, List.getLast?_reverse]
  cases found : p.text.toList.reverse.dropWhile (· ≠ '/') with
  | nil => exact .inl rfl
  | cons c rest =>
    have stops := List.head?_dropWhile_not (· ≠ '/') p.text.toList.reverse
    rw [found] at stops
    right
    simpa using stops

theorem slash_not_mem_leaf (p : Path) : '/' ∉ p.leaf := by
  rw [leaf, List.mem_reverse]
  intro member
  simpa using List.mem_takeWhile_imp member

end Path

namespace LogSeries

open FileSystem

/-- The name of a file by its number. -/
def fileName (s : LogSeries) (number : Nat) : List Char :=
  s.base.leaf ++ '.' :: ((Nat.repr number).toList ++ ".log".toList)

/-- Where a file is by its number, in the directory of the series. -/
def slot (s : LogSeries) (directory : Location) (number : Nat) : Location :=
  String.ofList (s.fileName number) :: directory

theorem path_text (s : LogSeries) (number : Nat) :
    (s.path number).text.toList = s.base.folder ++ s.fileName number := by
  simp only [path, fileName, String.toList_append, ← s.base.folder_append_leaf, Nat.toString_eq_repr]
  simp

theorem path_splits (s : LogSeries) (number : Nat) :
    (s.path number).Splits s.base.folder (s.fileName number) where
  text := s.path_text number
  folder := s.base.folder_eq_nil_or
  noSlash := by
    intro member
    simp only [fileName, List.mem_append, List.mem_cons] at member
    rcases member with inLeaf | isDot | inDigits | inEnding
    · exact s.base.slash_not_mem_leaf inLeaf
    · exact absurd isDot (by decide)
    · exact Text.not_mem_repr rfl number inDigits
    · simp at inEnding
  notEmpty := by simp [fileName]
  notDot := by
    intro same
    have length := congrArg List.length same
    simp [fileName] at length
    omega
  notDots := by
    intro same
    have length := congrArg List.length same
    simp [fileName] at length
    omega

theorem fileName_inj {s : LogSeries} {number other : Nat} :
    s.fileName number = s.fileName other ↔ number = other := by
  constructor
  · intro same
    have digits : (Nat.repr number).toList = (Nat.repr other).toList := by
      simpa [fileName] using same
    exact Nat.repr_injective (String.toList_inj.1 digits)
  · rintro rfl
    rfl

theorem slot_inj {s : LogSeries} {directory : Location} {number other : Nat} :
    s.slot directory number = s.slot directory other ↔ number = other := by
  rw [slot, slot, List.cons.injEq, and_iff_left rfl, String.ofList_inj, fileName_inj]

/-- A number is written in single bytes. -/
theorem utf8ByteSize_repr (number : Nat) :
    (Nat.repr number).utf8ByteSize = (Nat.repr number).length := by
  have digit : ∀ d < 10, (Nat.digitChar d).utf8Size = 1 := by decide
  induction number using Nat.strongRecOn with
  | ind number inductionHypothesis =>
    rcases Nat.lt_or_ge number 10 with small | large
    · rw [Nat.repr_of_lt small, String.utf8ByteSize_singleton, digit number small,
        String.length_singleton]
    · rw [Nat.repr_of_ge large, String.utf8ByteSize_append, String.length_append,
        inductionHypothesis (number / 10) (by omega), String.utf8ByteSize_singleton,
        digit (number % 10) (by omega), String.length_singleton]

/-- A smaller number takes no more bytes. -/
theorem utf8ByteSize_repr_le {number other : Nat} (le : number ≤ other) :
    (Nat.repr number).utf8ByteSize ≤ (Nat.repr other).utf8ByteSize := by
  rw [utf8ByteSize_repr, utf8ByteSize_repr, Nat.length_repr_le_iff Nat.length_repr_pos]
  exact lt_of_le_of_lt le ((Nat.length_repr_le_iff Nat.length_repr_pos).1 (Nat.le_refl _))

/-- Where the file with a number is not refused for its path, none with a smaller number is. -/
theorem fits_of_le {s : LogSeries} {number other : Nat} (le : number ≤ other)
    (fits : (s.path other).Fits (s.fileName other)) : (s.path number).Fits (s.fileName number) where
  noNul := by
    have digits : '\x00' ∉ (Nat.repr number).toList := Text.not_mem_repr rfl number
    have noNul := fits.noNul
    simp only [LogSeries.path, String.toList_append, List.mem_append, not_or,
      Nat.toString_eq_repr] at noNul ⊢
    obtain ⟨⟨⟨base, dot⟩, -⟩, ending⟩ := noNul
    exact ⟨⟨⟨base, dot⟩, digits⟩, ending⟩
  path := by
    have size := utf8ByteSize_repr_le le
    have path := fits.path
    simp only [LogSeries.path, String.utf8ByteSize_append, Nat.toString_eq_repr] at path ⊢
    omega
  name := by
    have size := utf8ByteSize_repr_le le
    have name := fits.name
    have sizes : ∀ number, (String.ofList (s.fileName number)).utf8ByteSize =
        (String.ofList s.base.leaf).utf8ByteSize + 1 + ((Nat.repr number).utf8ByteSize + 4) := by
      intro number
      have joined : String.ofList (s.fileName number) =
          String.ofList s.base.leaf ++ "." ++ (Nat.repr number ++ ".log") := by
        apply String.toList_inj.1
        simp [fileName]
      rw [joined]
      simp only [String.utf8ByteSize_append]
      rfl
    rw [sizes] at name ⊢
    omega

theorem slot_below (s : LogSeries) (directory : Location) (number : Nat) :
    s.slot directory number ≠ [] :=
  List.cons_ne_nil _ _

/-- Of all that a host has, only entries of its file system are now others, those that are given. -/
structure Rearranged (host host' : Host) (entries : Location → Option Entry) : Prop where
  output : host'.output = host.output
  reports : host'.reports = host.reports
  workingDirectory : host'.files.workingDirectory = host.files.workingDirectory
  nextNumber : host'.files.nextNumber = host.files.nextNumber
  entryAt? : ∀ location, host'.files.entryAt? location = entries location

/-- Where no entry that was a directory is now another, what leads to a directory still does. -/
theorem Rearranged.keepsDirectories {host host' : Host} {entries : Location → Option Entry}
    (rearranged : Rearranged host host' entries)
    (kept : ∀ location, host.files.entryAt? location = some .directory →
      entries location = some .directory) : KeepsDirectories host.files host'.files :=
  ⟨rearranged.workingDirectory, fun location there =>
    (rearranged.entryAt? location).trans (kept location there)⟩

theorem report_ne (host : Host) (line : String) : (host.report line).reports ≠ host.reports := by
  intro same
  simpa [Host.report] using congrArg List.length same

section Steps

variable {s : LogSeries} {host : Host} {directory : Location}

/-- Removing the oldest file without a complaint takes away what is under the last number, if
anything is. No path of the series that is kept is refused then. -/
theorem dropOldest_exact (leads : host.files.Leads s.base.folder directory)
    (quiet : (s.dropOldest host).reports = host.reports) :
    (s.path s.maxFiles).Fits (s.fileName s.maxFiles) ∧
      host.files.entryAt? (s.slot directory s.maxFiles) ≠ some .directory ∧
      Rearranged host (s.dropOldest host) fun other =>
        if other = s.slot directory s.maxFiles then none else host.files.entryAt? other := by
  have splits := s.path_splits s.maxFiles
  by_cases fits : (s.path s.maxFiles).Fits (s.fileName s.maxFiles)
  · have removal := remove_of_leads splits leads fits
    match there : host.files.entryAt? (s.slot directory s.maxFiles) with
    | none =>
      have unchanged : s.dropOldest host = host := by
        rw [dropOldest, removal, ← slot, there]
      rw [unchanged]
      refine ⟨fits, by simp, rfl, rfl, rfl, rfl, ?_⟩
      intro other
      by_cases same : other = s.slot directory s.maxFiles
      · rw [if_pos same, same, there]
      · rw [if_neg same]
    | some .directory =>
      rw [dropOldest, removal, ← slot, there] at quiet
      exact absurd quiet (report_ne host _)
    | some (.file number content) =>
      have removed : s.dropOldest host =
          { host with files := host.files.unset (s.slot directory s.maxFiles) } := by
        rw [dropOldest, removal, ← slot, there]
      rw [removed]
      exact ⟨fits, by simp, rfl, rfl, rfl, rfl, entryAt?_unset host.files (s.slot_below _ _)⟩
  · obtain ⟨e, refused, missing⟩ := resolve_of_not_fits splits leads fits
    rw [dropOldest, remove, refused] at quiet
    cases e with
    | notFound => exact absurd rfl missing
    | _ => exact absurd quiet (report_ne host _)

/-- A file moves to the next number, if nothing is there. No complaint can arise. -/
theorem shift_exact {number : Nat} (leads : host.files.Leads s.base.folder directory)
    (fits : (s.path (number + 1)).Fits (s.fileName (number + 1)))
    (file : host.files.entryAt? (s.slot directory number) ≠ some .directory)
    (free : host.files.entryAt? (s.slot directory (number + 1)) = none) :
    Rearranged host (s.shift host number) fun other =>
      if other = s.slot directory (number + 1) then host.files.entryAt? (s.slot directory number)
      else if other = s.slot directory number then none
      else host.files.entryAt? other := by
  have splits := s.path_splits number
  have fits' := fits_of_le (Nat.le_succ number) fits
  have known := pathExists_of_leads splits leads fits'
  match there : host.files.entryAt? (s.slot directory number) with
  | none =>
    rw [← slot, there, Option.isSome_none] at known
    rw [shift, if_neg (by simp [known])]
    refine ⟨rfl, rfl, rfl, rfl, ?_⟩
    intro other
    by_cases target : other = s.slot directory (number + 1)
    · rw [if_pos target, target, free]
    · rw [if_neg target]
      by_cases source : other = s.slot directory number
      · rw [if_pos source, source, there]
      · rw [if_neg source]
  | some .directory => exact absurd there file
  | some (.file fileNumber content) =>
    rw [← slot, there, Option.isSome_some] at known
    have different : s.slot directory number ≠ s.slot directory (number + 1) := by
      rw [Ne, slot_inj]
      omega
    have renamed : host.files.rename (s.path number) (s.path (number + 1)) =
        .ok ((host.files.unset (s.slot directory number)).set (s.slot directory (number + 1))
          (.file fileNumber content)) := by
      rw [rename_of_leads splits leads fits' (s.path_splits (number + 1)) leads fits there, ← slot,
        ← slot, free]
      exact if_neg different
    rw [shift, if_pos known, renamed]
    refine ⟨rfl, rfl, rfl, rfl, ?_⟩
    intro other
    rw [entryAt?_set _ (s.slot_below _ _), entryAt?_unset _ (s.slot_below _ _)]

/-- The files below a number have moved up by one, over nothing, and file 0 has become free. -/
structure Shifted (s : LogSeries) (directory : Location) (count : Nat) (host host' : Host) : Prop where
  output : host'.output = host.output
  reports : host'.reports = host.reports
  workingDirectory : host'.files.workingDirectory = host.files.workingDirectory
  nextNumber : host'.files.nextNumber = host.files.nextNumber
  first : host'.files.entryAt? (s.slot directory 0) = none
  next : ∀ number < count, host'.files.entryAt? (s.slot directory (number + 1)) =
    host.files.entryAt? (s.slot directory number)
  elsewhere : ∀ location, (∀ number ≤ count, location ≠ s.slot directory number) →
    host'.files.entryAt? location = host.files.entryAt? location

/-- No path of a file below a number leads to a directory. -/
def HoldsFiles (s : LogSeries) (directory : Location) (count : Nat) (fs : FileSystem) : Prop :=
  ∀ number < count, (s.path number).Fits (s.fileName number) →
    fs.entryAt? (s.slot directory number) ≠ some .directory

theorem Shifted.keepsDirectories {count : Nat} {host' : Host}
    (shifted : s.Shifted directory count host host')
    (fits : (s.path count).Fits (s.fileName count)) (files : s.HoldsFiles directory count host.files)
    (last : host.files.entryAt? (s.slot directory count) ≠ some .directory) :
    KeepsDirectories host.files host'.files where
  workingDirectory := shifted.workingDirectory
  entryAt? location there := by
    rw [shifted.elsewhere location, there]
    rintro number le rfl
    rcases Nat.lt_or_eq_of_le le with below | rfl
    · exact files number below (fits_of_le (Nat.le_of_lt below) fits) there
    · exact last there

/-- Moving up goes from the highest number down, so that each file finds the next number free. -/
theorem shiftBelow_exact {count : Nat} (leads : host.files.Leads s.base.folder directory)
    (fits : (s.path count).Fits (s.fileName count)) (files : s.HoldsFiles directory count host.files)
    (free : host.files.entryAt? (s.slot directory count) = none) :
    s.Shifted directory count host (s.shiftBelow host count) := by
  induction count generalizing host with
  | zero =>
    refine ⟨rfl, rfl, rfl, rfl, free, ?_, fun _ _ => rfl⟩
    intro number below
    exact absurd below (Nat.not_lt_zero number)
  | succ count inductionHypothesis =>
    have file := files count (Nat.lt_succ_self count) (fits_of_le (Nat.le_succ count) fits)
    have moved := shift_exact leads fits file free
    have different : ∀ {number other : Nat}, number ≠ other →
        s.slot directory number ≠ s.slot directory other := by
      intro number other differs same
      exact differs (slot_inj.1 same)
    have keeps : KeepsDirectories host.files (s.shift host count).files := by
      refine moved.keepsDirectories ?_
      intro location there
      have notTarget : location ≠ s.slot directory (count + 1) := by
        rintro rfl
        simp [free] at there
      have notSource : location ≠ s.slot directory count := by
        rintro rfl
        exact file there
      rw [if_neg notTarget, if_neg notSource, there]
    have filesBelow : s.HoldsFiles directory count (s.shift host count).files := by
      intro number below fits'
      rw [moved.entryAt?, if_neg (different (by omega)), if_neg (different (by omega))]
      exact files number (by omega) fits'
    have freed : (s.shift host count).files.entryAt? (s.slot directory count) = none := by
      rw [moved.entryAt?, if_neg (different (by omega)), if_pos rfl]
    have rest := inductionHypothesis (leads.of_keepsDirectories keeps)
      (fits_of_le (Nat.le_succ count) fits) filesBelow freed
    refine ⟨rest.output.trans moved.output, rest.reports.trans moved.reports,
      rest.workingDirectory.trans moved.workingDirectory, rest.nextNumber.trans moved.nextNumber,
      rest.first, ?_, ?_⟩
    · intro number below
      rcases Nat.lt_or_eq_of_le (Nat.le_of_lt_succ below) with lower | rfl
      · rw [shiftBelow, rest.next number lower, moved.entryAt?, if_neg (different (by omega)),
          if_neg (different (by omega))]
      · rw [shiftBelow, rest.elsewhere, moved.entryAt?, if_pos rfl]
        intro other le
        exact different (by omega)
    · intro location outside
      rw [shiftBelow, rest.elsewhere location fun number le => outside number (by omega), moved.entryAt?,
        if_neg (outside (count + 1) (Nat.le_refl _)), if_neg (outside count (Nat.le_succ count))]

/-- What only grows, and is at last what it was at first, has not grown on the way. -/
theorem eq_of_prefixes {before between after : List String} (first : before <+: between)
    (second : between <+: after) (same : after = before) : between = before := by
  have le : between.length ≤ before.length := same ▸ second.length_le
  exact (first.eq_of_length (Nat.le_antisymm first.length_le le)).symm

/-- Complaints stay. -/
theorem reports_shift (s : LogSeries) (host : Host) (number : Nat) :
    host.reports <+: (s.shift host number).reports := by
  rw [shift]
  split
  next there =>
    split
    next files renamed => exact List.prefix_refl _
    next e refused => exact List.prefix_append _ _
  next missing => exact List.prefix_refl _

theorem reports_shiftBelow (s : LogSeries) (host : Host) (count : Nat) :
    host.reports <+: (s.shiftBelow host count).reports := by
  induction count generalizing host with
  | zero => exact List.prefix_refl _
  | succ count inductionHypothesis =>
    exact (s.reports_shift host count).trans (inductionHypothesis (s.shift host count))

theorem reports_dropOldest (s : LogSeries) (host : Host) :
    host.reports <+: (s.dropOldest host).reports := by
  rw [dropOldest]
  split
  next files removed => exact List.prefix_refl _
  next missing => exact List.prefix_refl _
  next e missing refused => exact List.prefix_append _ _

theorem reports_advance (s : LogSeries) (host : Host) :
    host.reports <+: (s.advance host).reports :=
  (s.reports_dropOldest host).trans (s.reports_shiftBelow _ s.maxFiles)

/-- An advance without a complaint moves every kept file to the next number. The oldest is gone. -/
theorem advance_exact (leads : host.files.Leads s.base.folder directory)
    (files : s.HoldsFiles directory s.maxFiles host.files)
    (quiet : (s.advance host).reports = host.reports) :
    (s.path s.maxFiles).Fits (s.fileName s.maxFiles) ∧
      host.files.entryAt? (s.slot directory s.maxFiles) ≠ some .directory ∧
      s.Shifted directory s.maxFiles host (s.advance host) := by
  have quietDrop : (s.dropOldest host).reports = host.reports :=
    eq_of_prefixes (s.reports_dropOldest host) (s.reports_shiftBelow _ s.maxFiles) quiet
  obtain ⟨fits, last, dropped⟩ := dropOldest_exact leads quietDrop
  have keeps : KeepsDirectories host.files (s.dropOldest host).files := by
    refine dropped.keepsDirectories ?_
    intro location there
    have other : location ≠ s.slot directory s.maxFiles := by
      rintro rfl
      exact last there
    rw [if_neg other, there]
  have kept : ∀ number < s.maxFiles, (s.dropOldest host).files.entryAt? (s.slot directory number) =
      host.files.entryAt? (s.slot directory number) := by
    intro number below
    rw [dropped.entryAt?, if_neg]
    rw [slot_inj]
    omega
  have shifted : s.Shifted directory s.maxFiles (s.dropOldest host) (s.advance host) := by
    refine shiftBelow_exact (leads.of_keepsDirectories keeps) fits ?_ ?_
    · intro number below fits'
      rw [kept number below]
      exact files number below fits'
    · rw [dropped.entryAt?, if_pos rfl]
  refine ⟨fits, last, shifted.output.trans dropped.output, shifted.reports.trans dropped.reports,
    shifted.workingDirectory.trans dropped.workingDirectory,
    shifted.nextNumber.trans dropped.nextNumber, shifted.first, ?_, ?_⟩
  · intro number below
    rw [shifted.next number below, kept number below]
  · intro location outside
    rw [shifted.elsewhere location outside, dropped.entryAt?,
      if_neg (outside s.maxFiles (Nat.le_refl _))]

end Steps

end LogSeries

end KeyValueService
