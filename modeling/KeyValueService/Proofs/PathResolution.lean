import KeyValueService.Proofs.EntryLaws

/-!
# Where paths lead

A path that ends in a name is a folder, which is empty or ends in a slash, followed by
that name. Where it leads depends on the folder only through the directory that the
folder leads to; all paths with one folder lead to entries of one directory. Only
directories are asked for on the way, so a path leads to the same location as long as
no directory disappears.

The directories around a path are made at most once: once they are there, making them
again changes nothing.
-/

namespace KeyValueService

namespace Text

theorem pieces_ne_nil (separator : Char) (s : List Char) : pieces separator s ≠ [] := by
  cases s with
  | nil => simp [pieces]
  | cons c rest =>
    rw [pieces]
    by_cases cut : c = separator
    · simp [cut]
    · rw [if_neg cut]
      cases pieces separator rest <;> simp

theorem pieces_append (separator : Char) (before after : List Char) :
    pieces separator (before ++ separator :: after) =
      pieces separator before ++ pieces separator after := by
  induction before with
  | nil => simp [pieces]
  | cons c rest inductionHypothesis =>
    by_cases cut : c = separator
    · simp [pieces, cut, inductionHypothesis]
    · simp only [List.cons_append, pieces, cut, if_false, inductionHypothesis]
      cases found : pieces separator rest with
      | nil => exact absurd found (pieces_ne_nil separator rest)
      | cons first others => rfl

theorem pieces_of_not_mem (separator : Char) {s : List Char} (uncut : separator ∉ s) :
    pieces separator s = [s] := by
  induction s with
  | nil => rfl
  | cons c rest inductionHypothesis =>
    have differs : c ≠ separator := fun same => uncut (same ▸ List.mem_cons_self)
    have restUncut : separator ∉ rest := fun member => uncut (List.mem_cons_of_mem _ member)
    simp [pieces, differs, inductionHypothesis restUncut]

end Text

namespace Path

open Text

/-- The names in a text of a path. -/
def parts (s : List Char) : List String :=
  ((pieces '/' s).filter (· ≠ [])).map String.ofList

/-- The text of a path is a folder followed by the name of an entry. -/
structure Splits (p : Path) (folder name : List Char) : Prop where
  text : p.text.toList = folder ++ name
  folder : folder = [] ∨ folder.getLast? = some '/'
  noSlash : '/' ∉ name
  notEmpty : name ≠ []
  notDot : name ≠ ['.']
  notDots : name ≠ ['.', '.']

/-- A path, and the name that it ends in, that are not refused for themselves. -/
structure Fits (p : Path) (name : List Char) : Prop where
  noNul : '\x00' ∉ p.text.toList
  path : p.text.utf8ByteSize ≤ FileSystem.maxPathSize
  name : (String.ofList name).utf8ByteSize ≤ FileSystem.maxNameSize

theorem Splits.parts {p : Path} {folder name : List Char} (splits : p.Splits folder name) :
    parts p.text.toList = Path.parts folder ++ [String.ofList name] := by
  have last : Text.pieces '/' name = [name] := pieces_of_not_mem '/' splits.noSlash
  rcases splits.folder with rfl | slash
  · simp [splits.text, Path.parts, last, splits.notEmpty, pieces]
  · obtain ⟨before, rfl⟩ := List.getLast?_eq_some_iff.1 slash
    simp [splits.text, Path.parts, pieces_append, last, splits.notEmpty, pieces]

theorem Splits.head? {p : Path} {folder name : List Char} (splits : p.Splits folder name) :
    (p.text.toList.head? = some '/') = (folder.head? = some '/') := by
  rw [splits.text]
  cases folder with
  | cons c rest => rfl
  | nil =>
    cases name with
    | nil => rfl
    | cons c rest =>
      have differs : c ≠ '/' := fun same => splits.noSlash (same ▸ List.mem_cons_self)
      simp [differs]

theorem Splits.getLast? {p : Path} {folder name : List Char} (splits : p.Splits folder name) :
    (p.text.toList.getLast? == some '/') = false := by
  have last : p.text.toList.getLast? = name.getLast? := by
    rw [splits.text, List.getLast?_append, List.getLast?_eq_some_getLast splits.notEmpty,
      Option.some_or]
  rw [last, beq_eq_false_iff_ne]
  intro slash
  exact splits.noSlash (List.mem_of_getLast? slash)

theorem Splits.isName {p : Path} {folder name : List Char} (splits : p.Splits folder name) :
    String.ofList name ≠ "." ∧ String.ofList name ≠ ".." := by
  constructor
  · intro same
    exact splits.notDot (by simpa using congrArg String.toList same)
  · intro same
    exact splits.notDots (by simpa using congrArg String.toList same)

end Path

namespace FileSystem

open Text

/-- Every directory of one file system is one of the other, which has the same working directory. -/
structure KeepsDirectories (fs fs' : FileSystem) : Prop where
  workingDirectory : fs'.workingDirectory = fs.workingDirectory
  entryAt? : ∀ location, fs.entryAt? location = some .directory →
    fs'.entryAt? location = some .directory

theorem KeepsDirectories.refl (fs : FileSystem) : KeepsDirectories fs fs :=
  ⟨rfl, fun _ there => there⟩

theorem KeepsDirectories.trans {fs fs' fs'' : FileSystem} (first : KeepsDirectories fs fs')
    (second : KeepsDirectories fs' fs'') : KeepsDirectories fs fs'' :=
  ⟨second.workingDirectory.trans first.workingDirectory,
    fun location there => second.entryAt? location (first.entryAt? location there)⟩

theorem ChangesOnly.keepsDirectories {number : Nat} {fs fs' : FileSystem}
    (only : ChangesOnly number fs fs') : KeepsDirectories fs fs' where
  workingDirectory := only.workingDirectory
  entryAt? location there := by
    rw [only.entryAt? location, there]
    intro content file
    simp [there] at file

/-- Putting an entry where no directory is removes none. -/
theorem keepsDirectories_set (fs : FileSystem) {location : Location} (below : location ≠ [])
    (entry : Entry) (free : fs.entryAt? location ≠ some .directory) :
    KeepsDirectories fs (fs.set location entry) where
  workingDirectory := rfl
  entryAt? other there := by
    have different : other ≠ location := by
      rintro rfl
      exact free there
    rw [entryAt?_set fs below, if_neg different, there]

theorem keepsDirectories_addFile (fs : FileSystem) {location : Location} (below : location ≠ [])
    (free : fs.entryAt? location ≠ some .directory) : KeepsDirectories fs (fs.addFile location) where
  workingDirectory := rfl
  entryAt? := (fs.keepsDirectories_set below (.file fs.nextNumber ByteArray.empty) free).entryAt?

theorem keepsDirectories_unset (fs : FileSystem) {location : Location} (below : location ≠ [])
    (free : fs.entryAt? location ≠ some .directory) : KeepsDirectories fs (fs.unset location) where
  workingDirectory := rfl
  entryAt? other there := by
    have different : other ≠ location := by
      rintro rfl
      exact free there
    rw [entryAt?_unset fs below, if_neg different, there]

/-- Where a single name leads from a directory. -/
def follow (location : Location) (name : String) : Except DiskError Location :=
  if name = "." then .ok location
  else if name = ".." then .ok location.tail
  else if maxNameSize < name.utf8ByteSize then .error .nameTooLong
  else .ok (name :: location)

theorem follow_dot (location : Location) : follow location "." = .ok location := if_pos rfl

theorem follow_name {location : Location} {name : String} (notDot : name ≠ ".")
    (notDots : name ≠ "..") :
    follow location name =
      if maxNameSize < name.utf8ByteSize then .error .nameTooLong else .ok (name :: location) := by
  rw [follow, if_neg notDot, if_neg notDots]

/-- Names are followed one at a time, each from a directory. -/
theorem walk_cons (fs : FileSystem) (location : Location) (name : String) (rest : List String) :
    fs.walk location (name :: rest) =
      match fs.entryAt? location with
      | none => .error .notFound
      | some (.file _ _) => .error .notDirectory
      | some .directory =>
        match follow location name with
        | .error e => .error e
        | .ok reached => fs.walk reached rest := by
  rw [walk]
  rcases fs.entryAt? location with _ | ⟨⟩ | ⟨number, content⟩
  · rfl
  · dsimp only
    by_cases dot : name = "."
    · rw [if_pos dot, follow, if_pos dot]
    by_cases dots : name = ".."
    · rw [if_neg dot, if_pos dots, follow, if_neg dot, if_pos dots]
    rw [if_neg dot, if_neg dots, follow_name dot dots]
    by_cases long : maxNameSize < name.utf8ByteSize
    · rw [if_pos long, if_pos long]
    · rw [if_neg long, if_neg long]
  · rfl

/-- Following names and then more names is following all of them. -/
theorem walk_append (fs : FileSystem) (location : Location) (names more : List String) :
    fs.walk location (names ++ more) =
      match fs.walk location names with
      | .ok reached => fs.walk reached more
      | .error e => .error e := by
  induction names generalizing location with
  | nil => rfl
  | cons name rest inductionHypothesis =>
    rw [List.cons_append, walk_cons, walk_cons]
    rcases fs.entryAt? location with _ | ⟨⟩ | ⟨number, content⟩
    · rfl
    · cases follow location name with
      | error e => rfl
      | ok reached => exact inductionHypothesis reached
    · rfl

/-- On the way only directories are asked for, so a way that leads somewhere keeps leading there. -/
theorem walk_of_keepsDirectories {fs fs' : FileSystem} (keeps : KeepsDirectories fs fs')
    {location reached : Location} {names : List String}
    (walked : fs.walk location names = .ok reached) : fs'.walk location names = .ok reached := by
  induction names generalizing location with
  | nil => exact walked
  | cons name rest inductionHypothesis =>
    rw [walk_cons] at walked ⊢
    rcases there : fs.entryAt? location with _ | ⟨⟩ | ⟨number, content⟩
    · simp [there] at walked
    · rw [there] at walked
      rw [keeps.entryAt? location there]
      cases followed : follow location name with
      | error e => simp [followed] at walked
      | ok between =>
        rw [followed] at walked
        exact inductionHypothesis walked
    · simp [there] at walked

/-- Where the names of a path are followed from. -/
def origin (fs : FileSystem) (s : List Char) : Location :=
  if s.head? = some '/' then [] else fs.workingDirectory

/-- What a path leads to, in terms of the names in it. -/
theorem resolve_eq (fs : FileSystem) (p : Path) :
    fs.resolve p =
      if p.text.toList = [] then .error .notFound
      else if '\x00' ∈ p.text.toList then .error .nulInName
      else if maxPathSize < p.text.utf8ByteSize then .error .nameTooLong
      else
        match fs.walk (fs.origin p.text.toList) (Path.parts p.text.toList) with
        | .error e => .error e
        | .ok location =>
          .ok ⟨location, fs.entryAt? location, p.text.toList.getLast? == some '/',
            ((Path.parts p.text.toList).getLast?.map isName).getD false⟩ := rfl

/-- A path leads somewhere only if its text is one to follow and its names can be followed. -/
theorem walk_of_resolve {fs : FileSystem} {p : Path} {target : Target}
    (resolved : fs.resolve p = .ok target) :
    (p.text.toList ≠ [] ∧ '\x00' ∉ p.text.toList ∧ p.text.utf8ByteSize ≤ maxPathSize) ∧
      fs.walk (fs.origin p.text.toList) (Path.parts p.text.toList) = .ok target.location ∧
      target = ⟨target.location, fs.entryAt? target.location, p.text.toList.getLast? == some '/',
        ((Path.parts p.text.toList).getLast?.map isName).getD false⟩ := by
  rw [resolve_eq] at resolved
  by_cases empty : p.text.toList = []
  · rw [if_pos empty] at resolved
    cases resolved
  rw [if_neg empty] at resolved
  by_cases nul : '\x00' ∈ p.text.toList
  · rw [if_pos nul] at resolved
    cases resolved
  rw [if_neg nul] at resolved
  by_cases long : maxPathSize < p.text.utf8ByteSize
  · rw [if_pos long] at resolved
    cases resolved
  rw [if_neg long] at resolved
  refine ⟨⟨empty, nul, Nat.not_lt.1 long⟩, ?_⟩
  cases walked : fs.walk (fs.origin p.text.toList) (Path.parts p.text.toList) with
  | error e =>
    rw [walked] at resolved
    cases resolved
  | ok location =>
    rw [walked] at resolved
    cases resolved
    exact ⟨rfl, rfl⟩

/-- A folder leads to a directory. -/
structure Leads (fs : FileSystem) (folder : List Char) (directory : Location) : Prop where
  walk : fs.walk (fs.origin folder) (Path.parts folder) = .ok directory
  entryAt? : fs.entryAt? directory = some .directory

theorem Leads.of_keepsDirectories {fs fs' : FileSystem} {folder : List Char} {directory : Location}
    (leads : fs.Leads folder directory) (keeps : KeepsDirectories fs fs') :
    fs'.Leads folder directory where
  walk := by
    have same : fs'.origin folder = fs.origin folder := by rw [origin, origin, keeps.workingDirectory]
    rw [same]
    exact walk_of_keepsDirectories keeps leads.walk
  entryAt? := keeps.entryAt? directory leads.entryAt?

/-- What a path that ends in a name leads to: its folder is followed first, and the name then looked
up in the directory reached. -/
theorem resolve_of_splits (fs : FileSystem) {p : Path} {folder name : List Char}
    (splits : p.Splits folder name) :
    fs.resolve p =
      if '\x00' ∈ p.text.toList then .error .nulInName
      else if maxPathSize < p.text.utf8ByteSize then .error .nameTooLong
      else
        match fs.walk (fs.origin folder) (Path.parts folder) with
        | .error e => .error e
        | .ok directory =>
          match fs.entryAt? directory with
          | none => .error .notFound
          | some (.file _ _) => .error .notDirectory
          | some .directory =>
            if maxNameSize < (String.ofList name).utf8ByteSize then .error .nameTooLong
            else
              .ok ⟨String.ofList name :: directory, fs.entryAt? (String.ofList name :: directory), false,
                true⟩ := by
  have notEmpty : p.text.toList ≠ [] := by
    rw [splits.text]
    simp [splits.notEmpty]
  have ownOrigin : fs.origin p.text.toList = fs.origin folder := by
    simp only [origin, splits.head?]
  have isNamed : isName (String.ofList name) = true := by
    simp [isName, splits.isName]
  rw [resolve_eq, if_neg notEmpty, splits.parts, ownOrigin, walk_append, splits.getLast?,
    List.getLast?_concat, Option.map_some, isNamed, Option.getD_some]
  by_cases nul : '\x00' ∈ p.text.toList
  · rw [if_pos nul, if_pos nul]
  · rw [if_neg nul, if_neg nul]
    by_cases long : maxPathSize < p.text.utf8ByteSize
    · rw [if_pos long, if_pos long]
    · rw [if_neg long, if_neg long]
      cases fs.walk (fs.origin folder) (Path.parts folder) with
      | error e => rfl
      | ok directory =>
        dsimp only
        rw [walk_cons, follow_name splits.isName.1 splits.isName.2]
        rcases fs.entryAt? directory with _ | ⟨⟩ | ⟨number, content⟩
        · rfl
        · by_cases longName : maxNameSize < (String.ofList name).utf8ByteSize
          · simp only [if_pos longName]
          · simp only [if_neg longName]
            rfl
        · rfl

/-- A path that fits leads from its folder's directory to the entry with its name. -/
theorem resolve_of_leads {fs : FileSystem} {p : Path} {folder name : List Char} {directory : Location}
    (splits : p.Splits folder name) (leads : fs.Leads folder directory) (fits : p.Fits name) :
    fs.resolve p =
      .ok ⟨String.ofList name :: directory, fs.entryAt? (String.ofList name :: directory), false,
        true⟩ := by
  rw [resolve_of_splits fs splits, if_neg fits.noNul, if_neg (Nat.not_lt.2 fits.path), leads.walk]
  dsimp only
  rw [leads.entryAt?]
  dsimp only
  rw [if_neg (Nat.not_lt.2 fits.name)]

/-- A path that does not fit is refused, and not for want of an entry. -/
theorem resolve_of_not_fits {fs : FileSystem} {p : Path} {folder name : List Char}
    {directory : Location} (splits : p.Splits folder name) (leads : fs.Leads folder directory)
    (unfit : ¬ p.Fits name) : ∃ e, fs.resolve p = .error e ∧ e ≠ .notFound := by
  rw [resolve_of_splits fs splits, leads.walk]
  dsimp only
  rw [leads.entryAt?]
  dsimp only
  by_cases nul : '\x00' ∈ p.text.toList
  · exact ⟨.nulInName, if_pos nul, by decide⟩
  · rw [if_neg nul]
    by_cases long : maxPathSize < p.text.utf8ByteSize
    · exact ⟨.nameTooLong, if_pos long, by decide⟩
    · rw [if_neg long]
      by_cases longName : maxNameSize < (String.ofList name).utf8ByteSize
      · exact ⟨.nameTooLong, if_pos longName, by decide⟩
      · exact absurd ⟨nul, Nat.not_lt.1 long, Nat.not_lt.1 longName⟩ unfit

/-- A path that is not refused fits, and its folder leads to a directory. -/
theorem leads_of_resolve {fs : FileSystem} {p : Path} {folder name : List Char} {target : Target}
    (splits : p.Splits folder name) (resolved : fs.resolve p = .ok target) :
    ∃ directory, fs.Leads folder directory ∧ p.Fits name := by
  rw [resolve_of_splits fs splits] at resolved
  by_cases nul : '\x00' ∈ p.text.toList
  · simp [nul] at resolved
  · rw [if_neg nul] at resolved
    by_cases long : maxPathSize < p.text.utf8ByteSize
    · simp [long] at resolved
    · rw [if_neg long] at resolved
      cases walked : fs.walk (fs.origin folder) (Path.parts folder) with
      | error e => simp [walked] at resolved
      | ok directory =>
        rw [walked] at resolved
        dsimp only at resolved
        match there : fs.entryAt? directory with
        | none => simp [there] at resolved
        | some (.file number content) => simp [there] at resolved
        | some .directory =>
          rw [there] at resolved
          dsimp only at resolved
          by_cases longName : maxNameSize < (String.ofList name).utf8ByteSize
          · simp [longName] at resolved
          · exact ⟨directory, ⟨walked, there⟩, nul, Nat.not_lt.1 long, Nat.not_lt.1 longName⟩

section Operations

variable {fs : FileSystem} {p : Path} {folder name : List Char} {directory : Location}

/-- A path that fits leads to an entry when there is one with its name in its folder's directory. -/
theorem find_of_leads (splits : p.Splits folder name) (leads : fs.Leads folder directory)
    (fits : p.Fits name) :
    fs.find p =
      match fs.entryAt? (String.ofList name :: directory) with
      | none => .error .notFound
      | some entry => .ok entry := by
  rw [find, resolve_of_leads splits leads fits]
  cases fs.entryAt? (String.ofList name :: directory) with
  | none => rfl
  | some entry => cases entry <;> rfl

theorem pathExists_of_leads (splits : p.Splits folder name) (leads : fs.Leads folder directory)
    (fits : p.Fits name) :
    fs.pathExists p = (fs.entryAt? (String.ofList name :: directory)).isSome := by
  rw [pathExists, find_of_leads splits leads fits]
  cases fs.entryAt? (String.ofList name :: directory) <;> rfl

theorem pathExists_of_not_fits (splits : p.Splits folder name) (leads : fs.Leads folder directory)
    (unfit : ¬ p.Fits name) : fs.pathExists p = false := by
  obtain ⟨e, refused, -⟩ := resolve_of_not_fits splits leads unfit
  rw [pathExists, find, refused]
  rfl

theorem readBytes_of_leads (splits : p.Splits folder name) (leads : fs.Leads folder directory)
    (fits : p.Fits name) {number : Nat} {content : ByteArray}
    (there : fs.entryAt? (String.ofList name :: directory) = some (.file number content)) :
    fs.readBytes p = .ok content := by
  rw [readBytes, find_of_leads splits leads fits, there]

theorem remove_of_leads (splits : p.Splits folder name) (leads : fs.Leads folder directory)
    (fits : p.Fits name) :
    fs.remove p =
      match fs.entryAt? (String.ofList name :: directory) with
      | none => .error .notFound
      | some .directory => .error .isDirectory
      | some (.file _ _) => .ok (fs.unset (String.ofList name :: directory)) := by
  rw [remove, resolve_of_leads splits leads fits]
  match fs.entryAt? (String.ofList name :: directory) with
  | none => rfl
  | some .directory => rfl
  | some (.file number content) => rfl

theorem openToAppend_of_leads (splits : p.Splits folder name) (leads : fs.Leads folder directory)
    (fits : p.Fits name) :
    fs.openToAppend p =
      match fs.entryAt? (String.ofList name :: directory) with
      | none => .ok (fs.addFile (String.ofList name :: directory), ⟨fs.nextNumber, none⟩, 0)
      | some .directory => .error .isDirectory
      | some (.file number content) => .ok (fs, ⟨number, none⟩, content.size) := by
  rw [openToAppend, resolve_of_leads splits leads fits]
  match fs.entryAt? (String.ofList name :: directory) with
  | none => rfl
  | some .directory => rfl
  | some (.file number content) => rfl

theorem openEmptied_of_leads (splits : p.Splits folder name) (leads : fs.Leads folder directory)
    (fits : p.Fits name) :
    fs.openEmptied p =
      match fs.entryAt? (String.ofList name :: directory) with
      | none => .ok (fs.addFile (String.ofList name :: directory), ⟨fs.nextNumber, some 0⟩)
      | some .directory => .error .isDirectory
      | some (.file number _) =>
        .ok (fs.set (String.ofList name :: directory) (.file number ByteArray.empty),
          ⟨number, some 0⟩) := by
  rw [openEmptied, resolve_of_leads splits leads fits]
  match fs.entryAt? (String.ofList name :: directory) with
  | none => rfl
  | some .directory => rfl
  | some (.file number content) => rfl

/-- A file is renamed over nothing or over a file, from one name to another in any two directories. -/
theorem rename_of_leads {q : Path} {folder' name' : List Char} {directory' : Location}
    (splits : p.Splits folder name) (leads : fs.Leads folder directory) (fits : p.Fits name)
    (splits' : q.Splits folder' name') (leads' : fs.Leads folder' directory') (fits' : q.Fits name')
    {number : Nat} {content : ByteArray}
    (there : fs.entryAt? (String.ofList name :: directory) = some (.file number content)) :
    fs.rename p q =
      fs.renameFile (String.ofList name :: directory) (String.ofList name' :: directory')
        (.file number content) (fs.entryAt? (String.ofList name' :: directory')) := by
  rw [rename, resolve_of_leads splits leads fits, resolve_of_leads splits' leads' fits', there]
  rfl

end Operations

end FileSystem

end KeyValueService
