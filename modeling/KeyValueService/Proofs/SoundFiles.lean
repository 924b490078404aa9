import KeyValueService.Proofs.PathAncestry

/-!
# Sound file systems

In a sound file system every entry lies in a directory, no two locations share a file, and a
number not yet given away belongs to none. The empty one is sound, and it stays so when directories
are made and files opened, written and taken away. In a sound file system a path leads to a
directory, or under its last name to an entry of one.
-/

namespace KeyValueService

namespace Path

open Text FileSystem

/-- The last name of a path is the name of an entry. -/
def HasName (p : Path) : Prop :=
  (splitLast p.text.toList).2 ≠ [] ∧ isName (String.ofList (splitLast p.text.toList).2) = true

/-- A path that ends in the name of an entry ends in what is its last name as a text. -/
theorem eq_splitLast_of_getLast? {s : List Char} {name : String}
    (last : (parts s).getLast? = some name) (named : isName name = true) :
    (splitLast s).2 ≠ [] ∧ name = String.ofList (splitLast s).2 := by
  have notDot : name ≠ "." := by
    rintro rfl
    exact absurd named (by decide)
  obtain ⟨between, behind, split⟩ := parts_splitLast s
  rw [split] at last
  cases behind with
  | succ count =>
    have ends : dots (count + 1) = dots count ++ ["."] := List.replicate_succ'
    rw [ends, ← List.append_assoc, List.getLast?_concat, Option.some.injEq] at last
    exact absurd last.symm notDot
  | zero =>
    rw [dots, dots, List.replicate_zero, List.append_nil] at last
    by_cases nothing : (splitLast s).2 = []
    · rw [nothing, (splitLast_eq_nil nothing).2, parts_nil, List.nil_append, List.append_nil] at last
      have dot := List.mem_of_getLast? last
      exact absurd (List.eq_of_mem_replicate dot) notDot
    · rw [parts_of_name (slash_not_mem_splitLast s) nothing, List.getLast?_concat,
        Option.some.injEq] at last
      exact ⟨nothing, last.symm⟩

end Path

namespace FileSystem

open KeyValueService.Path

/-- Entries lie in directories, and files are told apart by their numbers: without links, none has two
names. -/
structure Sound (fs : FileSystem) : Prop where
  workingDirectory : fs.entryAt? fs.workingDirectory = some .directory
  above : ∀ name location entry, fs.entryAt? (name :: location) = some entry →
    fs.entryAt? location = some .directory
  fresh : ∀ location number content, fs.entryAt? location = some (.file number content) →
    number < fs.nextNumber
  distinct : ∀ location other number content content',
    fs.entryAt? location = some (.file number content) →
    fs.entryAt? other = some (.file number content') → location = other

theorem sound_empty : empty.Sound where
  workingDirectory := rfl
  above name location entry there := by cases there
  fresh location number content there := by
    cases location with
    | nil => cases there
    | cons name above => cases there
  distinct location other number content content' there there' := by
    cases location with
    | nil => cases there
    | cons name above => cases there

section Following

variable {fs : FileSystem} (sound : fs.Sound)

include sound

theorem Sound.tail {location : Location} (directory : fs.entryAt? location = some .directory) :
    fs.entryAt? location.tail = some .directory := by
  cases location with
  | nil => exact directory
  | cons name above => exact sound.above name above .directory directory

theorem Sound.origin (s : List Char) : fs.entryAt? (fs.origin s) = some .directory := by
  rw [FileSystem.origin]
  by_cases top : s.head? = some '/'
  · rw [if_pos top]
    rfl
  · rw [if_neg top]
    exact sound.workingDirectory

/-- Names that are followed from a directory lead to a directory, or by the last of them to an
entry of one. -/
theorem Sound.walk_cases {location reached : Location} {names : List String}
    (directory : fs.entryAt? location = some .directory)
    (walked : fs.walk location names = .ok reached) :
    (names.getLast?.map isName).getD false = false ∧ fs.entryAt? reached = some .directory ∨
      ∃ name between, names.getLast? = some name ∧ isName name = true ∧ reached = name :: between ∧
        fs.entryAt? between = some .directory := by
  rcases List.eq_nil_or_concat names with rfl | ⟨before, name, rfl⟩
  · cases walked
    exact .inl ⟨rfl, directory⟩
  · rw [List.concat_eq_append] at walked ⊢
    obtain ⟨between, -, last, directory'⟩ :=
      entryAt?_of_walk_append walked (List.cons_ne_nil name [])
    rw [walk_cons, directory'] at last
    dsimp only at last
    rw [List.getLast?_concat]
    by_cases dot : name = "."
    · subst dot
      rw [follow_dot] at last
      cases last
      exact .inl ⟨by decide, directory'⟩
    by_cases dots : name = ".."
    · subst dots
      cases last
      exact .inl ⟨by decide, sound.tail directory'⟩
    rw [follow_name dot dots] at last
    by_cases long : maxNameSize < name.utf8ByteSize
    · rw [if_pos long] at last
      cases last
    rw [if_neg long] at last
    cases last
    exact .inr ⟨name, between, rfl, by simp [isName, dot, dots], rfl, directory'⟩

/-- A path leads to a directory, or under its last name to an entry of one. -/
theorem Sound.resolve_cases {p : Path} {target : Target} (resolved : fs.resolve p = .ok target) :
    target.isNamed = false ∧ target.entry = some .directory ∨
      target.isNamed = true ∧ p.HasName ∧ ∃ between,
        target.location = String.ofList (splitLast p.text.toList).2 :: between ∧
          fs.entryAt? between = some .directory := by
  obtain ⟨-, walked, exact⟩ := walk_of_resolve resolved
  rw [exact]
  dsimp only
  rcases sound.walk_cases (sound.origin p.text.toList) walked with
    ⟨unnamed, directory⟩ | ⟨name, between, last, named, location, directory⟩
  · exact .inl ⟨unnamed, directory⟩
  · obtain ⟨nonempty, rfl⟩ := eq_splitLast_of_getLast? last named
    refine .inr ⟨?_, ⟨nonempty, named⟩, between, location, directory⟩
    rw [last]
    exact named

end Following

section Changing

variable {fs : FileSystem} (sound : fs.Sound)

include sound

/-- An entry may be put in a directory where no other directory is, a file only under a number
that no other location has. -/
theorem Sound.set {name : String} {above : Location} {entry : Entry}
    (directory : fs.entryAt? above = some .directory)
    (free : fs.entryAt? (name :: above) ≠ some .directory)
    (own : ∀ number content, entry = .file number content → number < fs.nextNumber ∧
      ∀ other content', fs.entryAt? other = some (.file number content') → other = name :: above) :
    (fs.set (name :: above) entry).Sound := by
  have below : name :: above ≠ [] := by simp
  have keeps := fs.keepsDirectories_set below entry free
  constructor
  case workingDirectory => exact keeps.entryAt? _ sound.workingDirectory
  case above =>
    intro name' location entry' there
    rw [entryAt?_set fs below] at there
    by_cases same : name' :: location = name :: above
    · obtain ⟨rfl, rfl⟩ := List.cons.inj same
      exact keeps.entryAt? _ directory
    · rw [if_neg same] at there
      exact keeps.entryAt? _ (sound.above name' location entry' there)
  case fresh =>
    intro location number content there
    rw [entryAt?_set fs below] at there
    by_cases same : location = name :: above
    · rw [if_pos same, Option.some.injEq] at there
      exact (own number content there).1
    · rw [if_neg same] at there
      exact sound.fresh location number content there
  case distinct =>
    intro location other number content content' there there'
    rw [entryAt?_set fs below] at there there'
    by_cases same : location = name :: above
    · by_cases same' : other = name :: above
      · rw [same, same']
      · rw [if_pos same, Option.some.injEq] at there
        rw [if_neg same'] at there'
        rw [same, (own number content there).2 other content' there']
    · rw [if_neg same] at there
      by_cases same' : other = name :: above
      · rw [if_pos same', Option.some.injEq] at there'
        rw [same', (own number content' there').2 location content there]
      · rw [if_neg same'] at there'
        exact sound.distinct location other number content content' there there'

/-- A new file gets the next number. -/
theorem Sound.addFile {name : String} {above : Location}
    (directory : fs.entryAt? above = some .directory)
    (free : fs.entryAt? (name :: above) ≠ some .directory) : (fs.addFile (name :: above)).Sound := by
  have counted : ({ fs with nextNumber := fs.nextNumber + 1 } : FileSystem).Sound := by
    constructor
    case workingDirectory => exact sound.workingDirectory
    case above => exact sound.above
    case fresh =>
      intro location number content there
      exact Nat.lt_succ_of_lt (sound.fresh location number content there)
    case distinct => exact sound.distinct
  refine counted.set directory free ?_
  intro number content same
  cases same
  refine ⟨Nat.lt_succ_self _, ?_⟩
  intro other content' there
  exact absurd (sound.fresh other _ content' there) (Nat.lt_irrefl _)

/-- A file may be taken away: nothing lies in it. -/
theorem Sound.unset {location : Location} {number : Nat} {content : ByteArray}
    (file : fs.entryAt? location = some (.file number content)) : (fs.unset location).Sound := by
  have below : location ≠ [] := by
    rintro rfl
    cases file
  have keeps := fs.keepsDirectories_unset below (by simp [file])
  have before : ∀ {other entry}, (fs.unset location).entryAt? other = some entry →
      fs.entryAt? other = some entry := by
    intro other entry there
    rw [entryAt?_unset fs below] at there
    by_cases same : other = location
    · rw [if_pos same] at there
      cases there
    · rwa [if_neg same] at there
  constructor
  case workingDirectory => exact keeps.entryAt? _ sound.workingDirectory
  case above =>
    intro name other entry there
    exact keeps.entryAt? _ (sound.above name other entry (before there))
  case fresh =>
    intro other number' content' there
    exact sound.fresh other number' content' (before there)
  case distinct =>
    intro other other' number' content' content'' there there'
    exact sound.distinct other other' number' content' content'' (before there) (before there')

/-- A write changes contents and no numbers. -/
theorem Sound.write {fs' : FileSystem} {handle handle' : Handle} {bytes : ByteArray}
    (done : fs.write handle bytes = .ok (fs', handle')) : fs'.Sound := by
  by_cases nothing : bytes.size = 0
  · simp only [FileSystem.write, nothing, if_true, Except.ok.injEq, Prod.mk.injEq] at done
    obtain ⟨rfl, -⟩ := done
    exact sound
  · obtain ⟨-, only, -⟩ := write_exact done
    have directoryBefore : ∀ {location}, fs'.entryAt? location = some .directory →
        fs.entryAt? location = some .directory := by
      intro location there
      rw [entryAt?_write done nothing] at there
      obtain ⟨entry, before, after⟩ := Option.map_eq_some_iff.1 there
      cases entry with
      | directory => exact before
      | file number content =>
        simp only [filled] at after
        split at after <;> cases after
    have fileBefore : ∀ {location number content},
        fs'.entryAt? location = some (.file number content) →
        ∃ content', fs.entryAt? location = some (.file number content') := by
      intro location number content there
      rw [entryAt?_write done nothing] at there
      obtain ⟨entry, before, after⟩ := Option.map_eq_some_iff.1 there
      cases entry with
      | directory => cases after
      | file number' content' =>
        simp only [filled] at after
        split at after <;> cases after <;> exact ⟨_, before⟩
    have keeps := only.keepsDirectories
    constructor
    case workingDirectory =>
      rw [only.workingDirectory]
      exact keeps.entryAt? _ sound.workingDirectory
    case above =>
      intro name location entry there
      cases entry with
      | directory => exact keeps.entryAt? _ (sound.above name location _ (directoryBefore there))
      | file number content =>
        obtain ⟨content', before⟩ := fileBefore there
        exact keeps.entryAt? _ (sound.above name location _ before)
    case fresh =>
      intro location number content there
      obtain ⟨content', before⟩ := fileBefore there
      rw [only.nextNumber]
      exact sound.fresh location number content' before
    case distinct =>
      intro location other number content content' there there'
      obtain ⟨before, fileThere⟩ := fileBefore there
      obtain ⟨before', fileThere'⟩ := fileBefore there'
      exact sound.distinct location other number before before' fileThere fileThere'

/-- A directory is made where a path leads to nothing. -/
theorem Sound.makeDirectory {made : FileSystem} {p : Path} (done : fs.makeDirectory p = .ok made) :
    made.Sound := by
  unfold FileSystem.makeDirectory at done
  split at done
  next e refused => cases done
  next location entry slash isNamed resolved => cases done
  next location slash isNamed resolved =>
    cases done
    rcases sound.resolve_cases resolved with ⟨-, directory⟩ | ⟨-, -, between, rfl, directory⟩
    · cases directory
    · have free := entry_of_resolve resolved
      refine sound.set directory (by simp [← free]) ?_
      intro number content same
      cases same

end Changing

end FileSystem

end KeyValueService
