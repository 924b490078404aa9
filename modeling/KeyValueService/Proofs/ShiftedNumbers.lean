import KeyValueService.Proofs.FileRotation
import KeyValueService.Proofs.SettledPaths

/-!
# Shifting numbers with something in the way

What is under the numbers of a series, files, directories or nothing, and what a shift of one number, of
all of them, and an advance make of it. A shift moves up what is under its number (`raised`), or leaves
all as it is, which it does for something under the next number only; what stays keeps its place, and
the first that moves frees its own for all that are shifted after it. So an advance loses nothing below
a last number without a directory (`advance_of_clear`), and one file at most in any case
(`losesOne_advance`).

Only what is under the numbers of the series is followed. A directory that moves takes with it all that
lies in it, so it is assumed that the path of the series does not lead back out of a directory.
-/

namespace KeyValueService

namespace FileSystem

/-- Down to a depth nothing has changed. -/
structure SameDownTo (depth : Nat) (fs fs' : FileSystem) : Prop where
  workingDirectory : fs'.workingDirectory = fs.workingDirectory
  nextNumber : fs'.nextNumber = fs.nextNumber
  entryAt? : ∀ location, location.length ≤ depth → fs'.entryAt? location = fs.entryAt? location

theorem SameDownTo.refl (depth : Nat) (fs : FileSystem) : SameDownTo depth fs fs :=
  ⟨rfl, rfl, fun _ _ => rfl⟩

theorem SameDownTo.trans {depth : Nat} {fs fs' fs'' : FileSystem} (first : SameDownTo depth fs fs')
    (second : SameDownTo depth fs' fs'') : SameDownTo depth fs fs'' where
  workingDirectory := second.workingDirectory.trans first.workingDirectory
  nextNumber := second.nextNumber.trans first.nextNumber
  entryAt? location shallow :=
    (second.entryAt? location shallow).trans (first.entryAt? location shallow)

/-- Names without two dots among them lead down, through directories that are no deeper than where
they end. -/
theorem walk_of_same {depth : Nat} {fs fs' : FileSystem} (same : SameDownTo depth fs fs')
    {start reached : Location} {names : List String} (noDots : ".." ∉ names)
    (walked : fs.walk start names = .ok reached) (shallow : reached.length ≤ depth) :
    start.length ≤ reached.length ∧ fs'.walk start names = .ok reached := by
  induction names generalizing start with
  | nil =>
    cases walked
    exact ⟨Nat.le_refl _, rfl⟩
  | cons name rest inductionHypothesis =>
    have notDots : name ≠ ".." := fun same => noDots (same ▸ List.mem_cons_self)
    have restNoDots : ".." ∉ rest := fun member => noDots (List.mem_cons_of_mem _ member)
    rw [walk_cons] at walked ⊢
    rcases there : fs.entryAt? start with _ | ⟨⟩ | ⟨number, content⟩
    · simp [there] at walked
    · rw [there] at walked
      dsimp only at walked
      cases followed : follow start name with
      | error e => simp [followed] at walked
      | ok between =>
        rw [followed] at walked
        obtain ⟨deeper, walked'⟩ := inductionHypothesis restNoDots walked
        have down : start.length ≤ between.length := by
          by_cases dot : name = "."
          · rw [dot, follow_dot] at followed
            cases followed
            exact Nat.le_refl _
          · rw [follow_name dot notDots] at followed
            by_cases long : maxNameSize < name.utf8ByteSize
            · rw [if_pos long] at followed
              cases followed
            · rw [if_neg long] at followed
              cases followed
              exact Nat.le_succ _
        rw [same.entryAt? start (down.trans (deeper.trans shallow)), there]
        exact ⟨down.trans deeper, walked'⟩
    · simp [there] at walked

theorem Leads.of_same {fs fs' : FileSystem} {folder : List Char} {directory : Location}
    (leads : fs.Leads folder directory) (noDots : ".." ∉ Path.parts folder)
    (same : SameDownTo directory.length fs fs') : fs'.Leads folder directory where
  walk := by
    have sameOrigin : fs'.origin folder = fs.origin folder := by
      rw [origin, origin, same.workingDirectory]
    rw [sameOrigin]
    exact (walk_of_same same noDots leads.walk (Nat.le_refl _)).2
  entryAt? := (same.entryAt? directory (Nat.le_refl _)).trans leads.entryAt?

end FileSystem

namespace LogSeries

open FileSystem

/-- What there is under the numbers of a series. -/
def numbered (s : LogSeries) (directory : Location) (fs : FileSystem) (number : Nat) : Option Entry :=
  fs.entryAt? (s.slot directory number)

/-- What there is under the numbers once what was under one of them has moved to the next. -/
def raised (entries : Nat → Option Entry) (number : Nat) : Nat → Option Entry := fun other =>
  if other = number + 1 then entries number
  else if other = number then none
  else entries other

section Steps

variable {s : LogSeries} {host : Host} {directory : Location}

theorem raised_of_entries {fs files : FileSystem} {number : Nat}
    (workingDirectory : files.workingDirectory = fs.workingDirectory)
    (nextNumber : files.nextNumber = fs.nextNumber)
    (entries : ∀ other : Location, other.length ≤ directory.length + 1 →
      files.entryAt? other =
        if other = s.slot directory (number + 1) then fs.entryAt? (s.slot directory number)
        else if other = s.slot directory number then none
        else fs.entryAt? other) :
    SameDownTo directory.length fs files ∧
      s.numbered directory files = raised (s.numbered directory fs) number := by
  constructor
  · refine ⟨workingDirectory, nextNumber, fun other shallow => ?_⟩
    have outside : ∀ count, other ≠ s.slot directory count := by
      rintro count rfl
      exact absurd shallow (Nat.not_succ_le_self _)
    rw [entries other (Nat.le_succ_of_le shallow), if_neg (outside _), if_neg (outside _)]
  · funext other
    simp only [numbered, raised, entries (s.slot directory other) (Nat.le_refl _), slot_inj]

/-- A rename to the next number is refused for something that is there, for a file only if that is a
directory; or it moves up what is under the number and nothing else. -/
theorem rename_cases {number : Nat} {entry : Entry} (leads : host.files.Leads s.base.folder directory)
    (fits : (s.path (number + 1)).Fits (s.fileName (number + 1)))
    (there : s.numbered directory host.files number = some entry) :
    match host.files.rename (s.path number) (s.path (number + 1)) with
    | .error _ => s.numbered directory host.files (number + 1) ≠ none ∧
      (entry ≠ .directory → s.numbered directory host.files (number + 1) = some .directory)
    | .ok files => (SameDownTo directory.length host.files files ∧
        s.numbered directory files = raised (s.numbered directory host.files) number) ∧
      (entry ≠ .directory → s.numbered directory host.files (number + 1) ≠ some .directory) := by
  have fits' := fits_of_le (Nat.le_succ number) fits
  have source := resolve_of_leads (s.path_splits number) leads fits'
  have target := resolve_of_leads (s.path_splits (number + 1)) leads fits
  have different : s.slot directory number ≠ s.slot directory (number + 1) := by
    rw [Ne, slot_inj]
    omega
  have level : (s.slot directory (number + 1)).length = (s.slot directory number).length := by
    rw [slot, slot, List.length_cons, List.length_cons]
  rw [← slot] at source target
  rw [numbered] at there
  rw [rename, source, target, there]
  dsimp only [Bool.not_true, Bool.or_self, Bool.false_eq_true, if_false]
  cases entry with
  | file fileNumber content =>
    have replaced : SameDownTo directory.length host.files ((host.files.unset
          (s.slot directory number)).set (s.slot directory (number + 1)) (.file fileNumber content)) ∧
        s.numbered directory ((host.files.unset (s.slot directory number)).set
          (s.slot directory (number + 1)) (.file fileNumber content)) =
            raised (s.numbered directory host.files) number := by
      refine raised_of_entries rfl rfl fun other _ => ?_
      rw [entryAt?_set _ (s.slot_below _ _), entryAt?_unset _ (s.slot_below _ _), there]
    rcases next : host.files.entryAt? (s.slot directory (number + 1)) with _ | ⟨⟩ | ⟨number', content'⟩
    · simpa [renameFile, different, numbered, next] using replaced
    · simp [renameFile, numbered, next]
    · simpa [renameFile, different, numbered, next] using replaced
  | directory =>
    rcases next : host.files.entryAt? (s.slot directory (number + 1)) with _ | ⟨⟩ | ⟨number', content'⟩
    · refine ⟨raised_of_entries rfl rfl fun other shallow => ?_, fun file => absurd rfl file⟩
      rw [entryAt?_moveAll host.files level shallow (s.slot_below _ _) next]
    · by_cases occupied : host.files.isOccupied (s.slot directory (number + 1))
      · simp [renameDirectory, different, occupied, numbered, next]
      · simp only [renameDirectory, if_neg different, if_neg occupied]
        refine ⟨raised_of_entries rfl rfl fun other shallow => ?_, fun file => absurd rfl file⟩
        have unset := entryAt?_unset host.files (s.slot_below directory (number + 1))
        rw [entryAt?_moveAll _ level shallow (s.slot_below _ _) (by rw [unset, if_pos rfl])]
        by_cases here : other = s.slot directory (number + 1)
        · rw [if_pos here, if_pos here, unset, if_neg different]
        · rw [if_neg here, if_neg here, unset, if_neg here]
    · simp [renameDirectory, numbered, next]

/-- Nothing moves to a number whose path is refused. -/
theorem shift_of_not_fits {number : Nat} (leads : host.files.Leads s.base.folder directory)
    (unfit : ¬(s.path (number + 1)).Fits (s.fileName (number + 1))) :
    (s.shift host number).files = host.files := by
  obtain ⟨e, refused, -⟩ := resolve_of_not_fits (s.path_splits (number + 1)) leads unfit
  rw [shift]
  split
  next known =>
    split
    next files renamed =>
      exfalso
      rw [rename, refused] at renamed
      split at renamed <;> simp_all
    next e' refused' => rfl
  next missing => rfl

/-- A shift leaves all as it is, and that only for something under the next number or for want of
anything to move, or it moves up what is under the number. -/
theorem shift_cases (leads : host.files.Leads s.base.folder directory) (number : Nat) :
    SameDownTo directory.length host.files (s.shift host number).files ∧
      (s.numbered directory (s.shift host number).files = s.numbered directory host.files ∧
          ((s.path (number + 1)).Fits (s.fileName (number + 1)) →
            s.numbered directory host.files (number + 1) ≠ none ∨
              s.numbered directory host.files number = none) ∨
        (s.path (number + 1)).Fits (s.fileName (number + 1)) ∧
          s.numbered directory (s.shift host number).files =
            raised (s.numbered directory host.files) number) := by
  by_cases fits : (s.path (number + 1)).Fits (s.fileName (number + 1))
  · have known := pathExists_of_leads (s.path_splits number) leads
      (fits_of_le (Nat.le_succ number) fits)
    rw [← slot] at known
    cases there : s.numbered directory host.files number with
    | none =>
      rw [numbered] at there
      rw [there, Option.isSome_none] at known
      rw [shift, if_neg (by simp [known])]
      exact ⟨.refl _ _, .inl ⟨rfl, fun _ => .inr rfl⟩⟩
    | some entry =>
      have renamed := rename_cases leads fits there
      rw [numbered] at there
      rw [there, Option.isSome_some] at known
      rw [shift, if_pos known]
      cases outcome : host.files.rename (s.path number) (s.path (number + 1)) with
      | error e =>
        rw [outcome] at renamed
        exact ⟨.refl _ _, .inl ⟨rfl, fun _ => .inl renamed.1⟩⟩
      | ok files =>
        rw [outcome] at renamed
        exact ⟨renamed.1.1, .inr ⟨fits, renamed.1.2⟩⟩
  · rw [shift_of_not_fits leads fits]
    exact ⟨.refl _ _, .inl ⟨rfl, fun fits' => absurd fits' fits⟩⟩

theorem raised_of_none {entries : Nat → Option Entry} {number : Nat} (none : entries number = none)
    (next : entries (number + 1) = .none) : raised entries number = entries := by
  funext other
  rw [raised]
  by_cases isNext : other = number + 1
  · rw [if_pos isNext, isNext, none, next]
  · rw [if_neg isNext]
    by_cases own : other = number
    · rw [if_pos own, own, none]
    · rw [if_neg own]

/-- With nothing under the next number, what is under a number moves up. -/
theorem shift_of_free {number : Nat} (leads : host.files.Leads s.base.folder directory)
    (fits : (s.path (number + 1)).Fits (s.fileName (number + 1)))
    (free : s.numbered directory host.files (number + 1) = none) :
    s.numbered directory (s.shift host number).files =
      raised (s.numbered directory host.files) number := by
  rcases (shift_cases leads number).2 with ⟨stays, because⟩ | ⟨-, moves⟩
  · rcases because fits with there | nothing
    · exact absurd free there
    · rw [stays, raised_of_none nothing free]
  · exact moves

/-- Removing the oldest file takes away what is under the last number, or leaves all as it is, which
it does only for a directory there or a path that is refused. -/
theorem dropOldest_cases (leads : host.files.Leads s.base.folder directory) :
    SameDownTo directory.length host.files (s.dropOldest host).files ∧
      (∀ number ≠ s.maxFiles, s.numbered directory (s.dropOldest host).files number =
        s.numbered directory host.files number) ∧
      (s.numbered directory (s.dropOldest host).files s.maxFiles = none ∨
        s.numbered directory (s.dropOldest host).files s.maxFiles =
          s.numbered directory host.files s.maxFiles) ∧
      ((s.path s.maxFiles).Fits (s.fileName s.maxFiles) →
        (s.numbered directory (s.dropOldest host).files s.maxFiles = none ↔
          s.numbered directory host.files s.maxFiles ≠ some .directory)) := by
  by_cases fits : (s.path s.maxFiles).Fits (s.fileName s.maxFiles)
  · have removal := remove_of_leads (s.path_splits s.maxFiles) leads fits
    rw [← slot] at removal
    rcases there : host.files.entryAt? (s.slot directory s.maxFiles) with _ | ⟨⟩ | ⟨fileNumber, content⟩
    · have stays : s.dropOldest host = host := by rw [dropOldest, removal, there]
      rw [stays]
      exact ⟨.refl _ _, fun _ _ => rfl, .inr rfl, fun _ => by simp [numbered, there]⟩
    · have stays : (s.dropOldest host).files = host.files := by
        rw [dropOldest, removal, there]
        rfl
      rw [stays]
      exact ⟨.refl _ _, fun _ _ => rfl, .inr rfl, fun _ => by simp [numbered, there]⟩
    · have removed : (s.dropOldest host).files = host.files.unset (s.slot directory s.maxFiles) := by
        rw [dropOldest, removal, there]
      have entries := entryAt?_unset host.files (s.slot_below directory s.maxFiles)
      have gone : s.numbered directory (s.dropOldest host).files s.maxFiles = none := by
        rw [numbered, removed, entries, if_pos rfl]
      refine ⟨?_, fun number different => ?_, .inl gone, fun _ => ?_⟩
      · rw [removed]
        refine ⟨rfl, rfl, fun other shallow => ?_⟩
        rw [entries, if_neg]
        rintro rfl
        exact absurd shallow (Nat.not_succ_le_self _)
      · rw [numbered, removed, entries, if_neg (mt slot_inj.1 different)]
        rfl
      · exact iff_of_true gone (by simp [numbered, there])
  · obtain ⟨e, refused, -⟩ := resolve_of_not_fits (s.path_splits s.maxFiles) leads fits
    have stays : (s.dropOldest host).files = host.files := by
      rw [dropOldest, remove, refused]
      cases e <;> rfl
    rw [stays]
    exact ⟨.refl _ _, fun _ _ => rfl, .inr rfl, fun fits' => absurd fits' fits⟩

/-- Files under different numbers are different files, and none has a number not yet given away. -/
structure Apart (entries : Nat → Option Entry) (nextNumber : Nat) : Prop where
  fresh : ∀ number fileNumber content, entries number = some (.file fileNumber content) →
    fileNumber < nextNumber
  distinct : ∀ number other fileNumber content content',
    entries number = some (.file fileNumber content) →
    entries other = some (.file fileNumber content') → number = other

/-- Files that are taken from different numbers stay different. -/
theorem Apart.of_source {entries entries' : Nat → Option Entry} {nextNumber : Nat}
    (apart : Apart entries nextNumber) (source : Nat → Nat)
    (taken : ∀ number fileNumber content, entries' number = some (.file fileNumber content) →
      entries (source number) = some (.file fileNumber content))
    (differs : ∀ number other, entries' number ≠ none → entries' other ≠ none →
      source number = source other → number = other) : Apart entries' nextNumber where
  fresh number fileNumber content there :=
    apart.fresh (source number) fileNumber content (taken number fileNumber content there)
  distinct number other fileNumber content content' there there' :=
    differs number other (by simp [there]) (by simp [there'])
      (apart.distinct _ _ fileNumber content content' (taken _ _ _ there) (taken _ _ _ there'))

theorem Apart.raised {entries : Nat → Option Entry} {nextNumber : Nat}
    (apart : Apart entries nextNumber) (number : Nat) :
    Apart (raised entries number) nextNumber := by
  refine apart.of_source (fun other => if other = number + 1 then number else other) ?_ ?_
  · intro other fileNumber content there
    rw [LogSeries.raised] at there
    split at there <;> simp_all
  · intro other other' some some' same
    simp only [LogSeries.raised] at some some'
    split at same <;> split at same <;> simp_all

theorem Apart.dropOldest (leads : host.files.Leads s.base.folder directory)
    (apart : Apart (s.numbered directory host.files) host.files.nextNumber) :
    Apart (s.numbered directory (s.dropOldest host).files) (s.dropOldest host).files.nextNumber := by
  obtain ⟨same, others, last, -⟩ := dropOldest_cases leads
  rw [same.nextNumber]
  refine apart.of_source id ?_ fun _ _ _ _ => id
  intro number fileNumber content there
  by_cases isLast : number = s.maxFiles
  · rw [isLast] at there
    rcases last with gone | stays
    · rw [gone] at there
      cases there
    · rw [isLast, ← there, stays]
      rfl
  · rw [← there, others number isLast]
    rfl

/-- A file moves up unless there is a directory under the next number. -/
theorem shift_of_file {number fileNumber : Nat} {content : ByteArray}
    (leads : host.files.Leads s.base.folder directory)
    (fits : (s.path (number + 1)).Fits (s.fileName (number + 1)))
    (there : s.numbered directory host.files number = some (.file fileNumber content)) :
    (s.numbered directory host.files (number + 1) = some .directory →
      s.numbered directory (s.shift host number).files = s.numbered directory host.files) ∧
    (s.numbered directory host.files (number + 1) ≠ some .directory →
      s.numbered directory (s.shift host number).files =
        raised (s.numbered directory host.files) number) := by
  have known := pathExists_of_leads (s.path_splits number) leads
    (fits_of_le (Nat.le_succ number) fits)
  have renamed := rename_cases leads fits there
  rw [numbered] at there
  rw [← slot, there, Option.isSome_some] at known
  rw [shift, if_pos known]
  cases outcome : host.files.rename (s.path number) (s.path (number + 1)) with
  | error e =>
    rw [outcome] at renamed
    exact ⟨fun _ => rfl, fun free => absurd (renamed.2 (by simp)) free⟩
  | ok files =>
    rw [outcome] at renamed
    exact ⟨fun blocked => absurd blocked (renamed.2 (by simp)), fun _ => renamed.1.2⟩

variable (noDots : ".." ∉ Path.parts s.base.folder)

include noDots

theorem same_shiftBelow (leads : host.files.Leads s.base.folder directory) (count : Nat) :
    SameDownTo directory.length host.files (s.shiftBelow host count).files := by
  induction count generalizing host with
  | zero => exact .refl _ _
  | succ count inductionHypothesis =>
    have same := (shift_cases leads count).1
    exact same.trans (inductionHypothesis (leads.of_same noDots same))

/-- What is above the numbers that are shifted stays. -/
theorem numbered_shiftBelow_above (leads : host.files.Leads s.base.folder directory) {count other : Nat}
    (above : count < other) :
    s.numbered directory (s.shiftBelow host count).files other =
      s.numbered directory host.files other := by
  induction count generalizing host with
  | zero => rfl
  | succ count inductionHypothesis =>
    obtain ⟨same, steps⟩ := shift_cases leads count
    rw [shiftBelow, inductionHypothesis (leads.of_same noDots same) (by omega)]
    rcases steps with ⟨stays, -⟩ | ⟨-, moves⟩
    · rw [stays]
    · rw [moves, raised, if_neg (by omega), if_neg (by omega)]

/-- With nothing under the highest number, all below it moves up by one, directories as well. -/
theorem shiftBelow_of_free {count : Nat} (leads : host.files.Leads s.base.folder directory)
    (fits : (s.path count).Fits (s.fileName count))
    (free : s.numbered directory host.files count = none) :
    s.numbered directory (s.shiftBelow host count).files 0 = none ∧
      ∀ number < count, s.numbered directory (s.shiftBelow host count).files (number + 1) =
        s.numbered directory host.files number := by
  induction count generalizing host with
  | zero => exact ⟨free, fun number below => absurd below (Nat.not_lt_zero number)⟩
  | succ count inductionHypothesis =>
    have moves := shift_of_free leads fits free
    have leads' := leads.of_same noDots (shift_cases leads count).1
    have freed : s.numbered directory (s.shift host count).files count = none := by
      rw [moves, raised, if_neg (by omega), if_pos rfl]
    obtain ⟨first, next⟩ :=
      inductionHypothesis leads' (fits_of_le (Nat.le_succ count) fits) freed
    refine ⟨first, fun number below => ?_⟩
    rcases Nat.lt_or_eq_of_le (Nat.le_of_lt_succ below) with lower | rfl
    · rw [shiftBelow, next number lower, moves, raised, if_neg (by omega), if_neg (by omega)]
    · rw [shiftBelow, numbered_shiftBelow_above noDots leads' (Nat.lt_succ_self _), moves, raised,
        if_pos rfl]

/-- With a directory under the highest number and files under all others, the highest of the files stays
and is replaced by the one below it, below which all move up. -/
theorem shiftBelow_onto_directory {count : Nat} (leads : host.files.Leads s.base.folder directory)
    (fits : (s.path (count + 1)).Fits (s.fileName (count + 1)))
    (blocked : s.numbered directory host.files (count + 1) = some .directory)
    (files : ∀ number ≤ count, ∃ fileNumber content,
      s.numbered directory host.files number = some (.file fileNumber content)) :
    s.numbered directory (s.shiftBelow host (count + 1)).files (count + 1) = some .directory ∧
      ∀ number < count, s.numbered directory (s.shiftBelow host (count + 1)).files (number + 1) =
        s.numbered directory host.files number := by
  obtain ⟨fileNumber, content, highest⟩ := files count (Nat.le_refl count)
  have stays := (shift_of_file leads fits highest).1 blocked
  have leads' := leads.of_same noDots (shift_cases leads count).1
  refine ⟨?_, ?_⟩
  · rw [shiftBelow, numbered_shiftBelow_above noDots leads' (Nat.lt_succ_self count), stays, blocked]
  cases count with
  | zero => exact fun number below => absurd below (Nat.not_lt_zero number)
  | succ count =>
    obtain ⟨fileNumber', content', next⟩ := files count (Nat.le_succ count)
    have fits' := fits_of_le (Nat.le_succ (count + 1)) fits
    have replaces := (shift_of_file leads' fits' (stays ▸ next)).2 (by simp [stays, highest])
    rw [stays] at replaces
    have leads'' := leads'.of_same noDots (shift_cases leads' count).1
    have freed : s.numbered directory (s.shift (s.shift host (count + 1)) count).files count =
        none := by
      rw [replaces, raised, if_neg (by omega), if_pos rfl]
    have moves :=
      (shiftBelow_of_free noDots leads'' (fits_of_le (Nat.le_succ count) fits') freed).2
    intro number below
    rcases Nat.lt_or_eq_of_le (Nat.le_of_lt_succ below) with lower | rfl
    · rw [shiftBelow, shiftBelow, moves number lower, replaces, raised, if_neg (by omega),
        if_neg (by omega)]
    · rw [shiftBelow, shiftBelow, numbered_shiftBelow_above noDots leads'' (Nat.lt_succ_self _),
        replaces, raised, if_pos rfl]

/-- Every file under a number below a bound is there afterwards, under its number or the next and not
under the number 0, except for one at most. -/
def LosesOne (s : LogSeries) (bound : Nat) (before after : Nat → Option Entry) : Prop :=
  ∃ lost, ∀ number < bound, number ≠ lost → (s.path number).Fits (s.fileName number) →
    ∀ fileNumber content, before number = some (.file fileNumber content) →
      ∃ place, (place = number ∨ place = number + 1) ∧ 0 < place ∧
        (s.path place).Fits (s.fileName place) ∧ after place = some (.file fileNumber content)

/-- From the highest number down, things stay where they are up to the first that moves. That one may
replace another, and leaves its own place free for all that come after it. -/
theorem losesOne_shiftBelow (leads : host.files.Leads s.base.folder directory) (count : Nat) :
    s.LosesOne (count + 1) (s.numbered directory host.files)
      (s.numbered directory (s.shiftBelow host count).files) := by
  induction count generalizing host with
  | zero => exact ⟨0, fun number below notLost => absurd (Nat.lt_one_iff.1 below) notLost⟩
  | succ count inductionHypothesis =>
    obtain ⟨same, steps⟩ := shift_cases leads count
    have leads' := leads.of_same noDots same
    have last := numbered_shiftBelow_above noDots leads' (Nat.lt_succ_self count)
    rcases steps with ⟨stays, -⟩ | ⟨fits, moves⟩
    · obtain ⟨lost, others⟩ := inductionHypothesis leads'
      rw [stays] at others last
      refine ⟨lost, fun number below notLost fits fileNumber content there => ?_⟩
      rcases Nat.lt_or_eq_of_le (Nat.le_of_lt_succ below) with lower | rfl
      · exact others number lower notLost fits fileNumber content there
      · exact ⟨count + 1, .inl rfl, Nat.succ_pos count, fits, last.trans there⟩
    · have freed : s.numbered directory (s.shift host count).files count = none := by
        rw [moves, raised, if_neg (by omega), if_pos rfl]
      obtain ⟨-, next⟩ :=
        shiftBelow_of_free noDots leads' (fits_of_le (Nat.le_succ count) fits) freed
      refine ⟨count + 1, fun number below notLost _ fileNumber content there => ?_⟩
      have le : number ≤ count := by omega
      refine ⟨number + 1, .inr rfl, Nat.succ_pos number, fits_of_le (Nat.succ_le_succ le) fits, ?_⟩
      rw [shiftBelow, ← there]
      rcases Nat.lt_or_eq_of_le le with lower | rfl
      · rw [next number lower, moves, raised, if_neg (by omega), if_neg (by omega)]
      · rw [last, moves, raised, if_pos rfl]

theorem Apart.shiftBelow (leads : host.files.Leads s.base.folder directory)
    (apart : Apart (s.numbered directory host.files) host.files.nextNumber) (count : Nat) :
    Apart (s.numbered directory (s.shiftBelow host count).files)
      (s.shiftBelow host count).files.nextNumber := by
  induction count generalizing host with
  | zero => exact apart
  | succ count inductionHypothesis =>
    obtain ⟨same, steps⟩ := shift_cases leads count
    refine inductionHypothesis (leads.of_same noDots same) ?_
    rw [same.nextNumber]
    rcases steps with ⟨stays, -⟩ | ⟨-, moves⟩
    · rw [stays]
      exact apart
    · rw [moves]
      exact apart.raised count

/-- An advance changes nothing above the directory of the series, and mixes up no files. -/
theorem same_advance (leads : host.files.Leads s.base.folder directory)
    (apart : Apart (s.numbered directory host.files) host.files.nextNumber) :
    SameDownTo directory.length host.files (s.advance host).files ∧
      Apart (s.numbered directory (s.advance host).files) (s.advance host).files.nextNumber := by
  have same := (dropOldest_cases leads).1
  have leads' := leads.of_same noDots same
  exact ⟨same.trans (same_shiftBelow noDots leads' s.maxFiles),
    (apart.dropOldest leads).shiftBelow noDots leads' s.maxFiles⟩

/-- If the last number has no directory, an advance moves up all that is below it. -/
theorem advance_of_clear (leads : host.files.Leads s.base.folder directory)
    (fits : (s.path s.maxFiles).Fits (s.fileName s.maxFiles))
    (clear : s.numbered directory host.files s.maxFiles ≠ some .directory) :
    ∀ number < s.maxFiles, s.numbered directory (s.advance host).files (number + 1) =
      s.numbered directory host.files number := by
  obtain ⟨same, others, -, last⟩ := dropOldest_cases leads
  intro number below
  rw [advance, (shiftBelow_of_free noDots (leads.of_same noDots same) fits
    ((last fits).2 clear)).2 number below, others number (Nat.ne_of_lt below)]

/-- If the last number has a directory and all below it files, the highest of these is lost. -/
theorem advance_onto_directory (leads : host.files.Leads s.base.folder directory)
    (fits : (s.path s.maxFiles).Fits (s.fileName s.maxFiles))
    (blocked : s.numbered directory host.files s.maxFiles = some .directory)
    (files : ∀ number < s.maxFiles, ∃ fileNumber content,
      s.numbered directory host.files number = some (.file fileNumber content)) :
    s.numbered directory (s.advance host).files s.maxFiles = some .directory ∧
      ∀ number, number + 1 < s.maxFiles →
        s.numbered directory (s.advance host).files (number + 1) =
          s.numbered directory host.files number := by
  obtain ⟨same, others, last, removed⟩ := dropOldest_cases leads
  have stays : s.numbered directory (s.dropOldest host).files s.maxFiles = some .directory := by
    rcases last with gone | stays
    · exact absurd blocked ((removed fits).1 gone)
    · rw [stays, blocked]
  obtain ⟨count, isLast⟩ := Nat.exists_eq_add_one_of_ne_zero (Nat.ne_of_gt s.maxFiles_pos)
  rw [isLast] at fits stays
  have files' : ∀ number ≤ count, ∃ fileNumber content,
      s.numbered directory (s.dropOldest host).files number = some (.file fileNumber content) := by
    intro number le
    rw [others number (by omega)]
    exact files number (by omega)
  obtain ⟨blocked', moves⟩ :=
    shiftBelow_onto_directory noDots (leads.of_same noDots same) fits stays files'
  rw [advance, isLast]
  refine ⟨blocked', fun number below => ?_⟩
  rw [moves number (Nat.lt_of_succ_lt_succ below), others number (by omega)]

/-- An advance loses one of the files below the last number at most. -/
theorem losesOne_advance (leads : host.files.Leads s.base.folder directory) :
    s.LosesOne s.maxFiles (s.numbered directory host.files)
      (s.numbered directory (s.advance host).files) := by
  obtain ⟨same, others, -, -⟩ := dropOldest_cases leads
  obtain ⟨lost, found⟩ := losesOne_shiftBelow noDots (leads.of_same noDots same) s.maxFiles
  refine ⟨lost, fun number below notLost fits fileNumber content there => ?_⟩
  rw [← others number (Nat.ne_of_lt below)] at there
  exact found number (Nat.lt_succ_of_lt below) notLost fits fileNumber content there

end Steps

end LogSeries

end KeyValueService
