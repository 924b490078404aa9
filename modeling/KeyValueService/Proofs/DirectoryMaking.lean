import KeyValueService.Proofs.PathResolution

/-!
# Making directories

Making the directories around a path only puts directories where nothing was; every entry
stays, whether the making succeeds or is given up halfway. Once it has succeeded the directory
of the path is there, and as long as that is so it has nothing more to make. What the files hold
makes no difference to it (`Alike`).
-/

namespace KeyValueService

namespace FileSystem

/-- Some directories have been put at free locations, and nothing else has changed. -/
structure Grows (fs fs' : FileSystem) : Prop where
  workingDirectory : fs'.workingDirectory = fs.workingDirectory
  nextNumber : fs'.nextNumber = fs.nextNumber
  entryAt? : ∀ location, fs'.entryAt? location = fs.entryAt? location ∨
    fs.entryAt? location = none ∧ fs'.entryAt? location = some .directory

theorem Grows.refl (fs : FileSystem) : Grows fs fs :=
  ⟨rfl, rfl, fun _ => .inl rfl⟩

theorem Grows.trans {fs fs' fs'' : FileSystem} (first : Grows fs fs') (second : Grows fs' fs'') :
    Grows fs fs'' where
  workingDirectory := second.workingDirectory.trans first.workingDirectory
  nextNumber := second.nextNumber.trans first.nextNumber
  entryAt? location := by
    rcases first.entryAt? location with same | ⟨free, directory⟩
    · rw [← same]
      exact second.entryAt? location
    · refine .inr ⟨free, ?_⟩
      rcases second.entryAt? location with same | ⟨free', directory'⟩
      · rw [same, directory]
      · exact directory'

/-- What is there stays. -/
theorem Grows.keeps {fs fs' : FileSystem} (grows : Grows fs fs') {location : Location} {entry : Entry}
    (there : fs.entryAt? location = some entry) : fs'.entryAt? location = some entry := by
  rcases grows.entryAt? location with same | ⟨free, -⟩
  · rw [same, there]
  · rw [there] at free
    cases free

theorem Grows.keepsDirectories {fs fs' : FileSystem} (grows : Grows fs fs') :
    KeepsDirectories fs fs' :=
  ⟨grows.workingDirectory, fun _ there => grows.keeps there⟩

/-- A file comes from nowhere but from before. -/
theorem Grows.file {fs fs' : FileSystem} (grows : Grows fs fs') {location : Location} {number : Nat}
    {content : ByteArray} (there : fs'.entryAt? location = some (.file number content)) :
    fs.entryAt? location = some (.file number content) := by
  rcases grows.entryAt? location with same | ⟨-, directory⟩
  · rw [← same, there]
  · rw [there] at directory
    cases directory

/-- Only a location below the top directory can be free. -/
theorem below_of_free {fs : FileSystem} {location : Location} (free : fs.entryAt? location = none) :
    location ≠ [] := by
  rintro rfl
  cases free

/-- A path that leads somewhere leads there as long as no directory disappears. -/
theorem resolve_of_keepsDirectories {fs fs' : FileSystem} (keeps : KeepsDirectories fs fs')
    {path : Path} {target : Target} (resolved : fs.resolve path = .ok target) :
    fs'.resolve path = .ok { target with entry := fs'.entryAt? target.location } := by
  obtain ⟨⟨nonempty, noNul, short⟩, walked, exact⟩ := walk_of_resolve resolved
  have sameOrigin : fs'.origin path.text.toList = fs.origin path.text.toList := by
    rw [origin, origin, keeps.workingDirectory]
  rw [resolve_eq, if_neg nonempty, if_neg noNul, if_neg (Nat.not_lt.2 short), sameOrigin,
    walk_of_keepsDirectories keeps walked, exact]

/-- The entry of a target is the one at its location. -/
theorem entry_of_resolve {fs : FileSystem} {path : Path} {target : Target}
    (resolved : fs.resolve path = .ok target) : target.entry = fs.entryAt? target.location := by
  have again := resolve_of_keepsDirectories (KeepsDirectories.refl fs) resolved
  rw [resolved, Except.ok.injEq] at again
  exact congrArg Target.entry again

theorem isDirectory_iff {fs : FileSystem} {path : Path} :
    fs.isDirectory path = true ↔
      ∃ target, fs.resolve path = .ok target ∧ target.entry = some .directory := by
  rw [isDirectory, find]
  constructor
  · intro directory
    rcases resolved : fs.resolve path with e | ⟨location, entry, slash, isNamed⟩
    · simp [resolved] at directory
    · rcases entry with none | ⟨⟩ | ⟨number, content⟩
      · simp [resolved] at directory
      · exact ⟨_, rfl, rfl⟩
      · cases slash <;> simp [resolved] at directory
  · rintro ⟨⟨location, entry, slash, isNamed⟩, resolved, there⟩
    dsimp only at there
    subst there
    rw [resolved]

theorem isDirectory_of_keepsDirectories {fs fs' : FileSystem} (keeps : KeepsDirectories fs fs')
    {path : Path} (directory : fs.isDirectory path = true) : fs'.isDirectory path = true := by
  obtain ⟨target, resolved, there⟩ := isDirectory_iff.1 directory
  rw [entry_of_resolve resolved] at there
  exact isDirectory_iff.2 ⟨_, resolve_of_keepsDirectories keeps resolved, keeps.entryAt? _ there⟩

/-- A directory is made at a free location, to which its path led before and leads afterwards. -/
theorem makeDirectory_exact {fs made : FileSystem} {path : Path}
    (done : fs.makeDirectory path = .ok made) : Grows fs made ∧ made.isDirectory path = true := by
  unfold makeDirectory at done
  split at done
  next e refused => cases done
  next location entry slash isNamed resolved => cases done
  next location slash isNamed resolved =>
    cases done
    have free : fs.entryAt? location = none := (entry_of_resolve resolved).symm
    have below := below_of_free free
    have grows : Grows fs (fs.set location .directory) := by
      refine ⟨rfl, rfl, ?_⟩
      intro other
      rw [entryAt?_set fs below]
      by_cases same : other = location
      · rw [if_pos same, same]
        exact .inr ⟨free, rfl⟩
      · rw [if_neg same]
        exact .inl rfl
    refine ⟨grows, isDirectory_iff.2 ⟨_, resolve_of_keepsDirectories grows.keepsDirectories resolved,
      ?_⟩⟩
    rw [entryAt?_set fs below, if_pos rfl]

/-- Where a directory is already, another is refused, and for that reason. -/
theorem makeDirectory_of_isDirectory {fs : FileSystem} {path : Path}
    (directory : fs.isDirectory path = true) : fs.makeDirectory path = .error .alreadyExists := by
  obtain ⟨⟨location, entry, slash, isNamed⟩, resolved, there⟩ := isDirectory_iff.1 directory
  dsimp only at there
  subst there
  rw [makeDirectory, resolved]

/-- Making directories only puts directories where nothing was, whether it succeeds or not. -/
theorem makeChain_grows (fs : FileSystem) (paths : List Path) : Grows fs (fs.makeChain paths).1 := by
  induction paths generalizing fs with
  | nil => exact Grows.refl fs
  | cons path above inductionHypothesis =>
    rw [makeChain]
    by_cases nothing : path.text = ""
    · rw [if_pos nothing]
      exact Grows.refl fs
    · rw [if_neg nothing]
      split
      next made done => exact (makeDirectory_exact done).1
      next missing =>
        have around := inductionHypothesis fs
        split
        next prepared e failed =>
          rw [failed] at around
          exact around
        next prepared done =>
          rw [done] at around
          split
          next made done' => exact around.trans (makeDirectory_exact done').1
          next e refused => exact around
      next e refused => exact Grows.refl fs

/-- After directories have been made the first path leads to one. -/
theorem isDirectory_of_makeChain {fs fs' : FileSystem} {path : Path} {above : List Path}
    (done : fs.makeChain (path :: above) = (fs', .ok ())) (named : path.text ≠ "") :
    fs'.isDirectory path = true := by
  rw [makeChain, if_neg named] at done
  split at done
  next made done' =>
    cases done
    exact (makeDirectory_exact done').2
  next missing =>
    split at done
    next prepared e failed => cases done
    next prepared around =>
      split at done
      next made done' =>
        cases done
        exact (makeDirectory_exact done').2
      next e refused =>
        by_cases directory : prepared.isDirectory path = true
        · rw [if_pos directory] at done
          cases done
          exact directory
        · rw [if_neg directory] at done
          cases done
  next e refused =>
    by_cases directory : fs.isDirectory path = true
    · rw [if_pos directory] at done
      cases done
      exact directory
    · rw [if_neg directory] at done
      cases done

theorem makeChain_of_isDirectory {fs : FileSystem} {path : Path} {above : List Path}
    (directory : fs.isDirectory path = true) : fs.makeChain (path :: above) = (fs, .ok ()) := by
  rw [makeChain]
  by_cases nothing : path.text = ""
  · rw [if_pos nothing]
  · rw [if_neg nothing, makeDirectory_of_isDirectory directory]
    exact congrArg (fs, ·) (if_pos directory)

theorem makeParents_grows (fs : FileSystem) (path : Path) : Grows fs (fs.makeParents path).1 := by
  rw [makeParents]
  split
  next top => exact .refl fs
  next parent lies =>
    by_cases nothing : parent.text = ""
    · rw [if_pos nothing]
      exact .refl fs
    · rw [if_neg nothing]
      exact makeChain_grows fs _

/-- The directory of a path is there, as far as the path tells of one. -/
def Settled (fs : FileSystem) (path : Path) : Prop :=
  ∀ parent, path.parent? = some parent → parent.text ≠ "" → fs.isDirectory parent = true

theorem Settled.of_keepsDirectories {fs fs' : FileSystem} {path : Path} (settled : fs.Settled path)
    (keeps : KeepsDirectories fs fs') : fs'.Settled path :=
  fun parent lies named => isDirectory_of_keepsDirectories keeps (settled parent lies named)

theorem settled_of_makeParents {fs fs' : FileSystem} {path : Path}
    (done : fs.makeParents path = (fs', .ok ())) : fs'.Settled path := by
  intro parent lies named
  rw [makeParents, lies] at done
  dsimp only at done
  rw [if_neg named] at done
  exact isDirectory_of_makeChain done named

/-- Where the directory of a path is there, nothing is made and nothing refused. -/
theorem makeParents_of_settled {fs : FileSystem} {path : Path} (settled : fs.Settled path) :
    fs.makeParents path = (fs, .ok ()) := by
  rw [makeParents]
  split
  next top => rfl
  next parent lies =>
    by_cases nothing : parent.text = ""
    · rw [if_pos nothing]
    · rw [if_neg nothing]
      exact makeChain_of_isDirectory (settled parent lies nothing)

/-- Two entries of the same kind, or none at all. -/
inductive SameKind : Option Entry → Option Entry → Prop
  | none : SameKind none none
  | directory : SameKind (some .directory) (some .directory)
  | file {number number' : Nat} {content content' : ByteArray} :
      SameKind (some (.file number content)) (some (.file number' content'))

/-- Two file systems that have entries of the same kinds at the same locations. -/
structure Alike (fs fs' : FileSystem) : Prop where
  workingDirectory : fs'.workingDirectory = fs.workingDirectory
  entryAt? : ∀ location, SameKind (fs.entryAt? location) (fs'.entryAt? location)

theorem SameKind.refl (entry : Option Entry) : SameKind entry entry := by
  rcases entry with _ | ⟨⟩ | ⟨number, content⟩
  · exact .none
  · exact .directory
  · exact .file

theorem SameKind.none_iff {entry entry' : Option Entry} (kind : SameKind entry entry') :
    entry' = .none ↔ entry = .none := by
  cases kind <;> simp

theorem SameKind.directory_iff {entry entry' : Option Entry} (kind : SameKind entry entry') :
    entry' = some .directory ↔ entry = some .directory := by
  cases kind <;> simp

theorem Alike.refl (fs : FileSystem) : Alike fs fs :=
  ⟨rfl, fun _ => .refl _⟩

theorem alike_of_write {fs fs' : FileSystem} {handle handle' : Handle} {bytes : ByteArray}
    (done : fs.write handle bytes = .ok (fs', handle')) : Alike fs fs' := by
  by_cases nothing : bytes.size = 0
  · simp only [write, nothing, if_true, Except.ok.injEq, Prod.mk.injEq] at done
    rw [← done.1]
    exact .refl fs
  · refine ⟨(write_exact done).2.1.workingDirectory, fun location => ?_⟩
    rw [entryAt?_write done nothing]
    rcases fs.entryAt? location with _ | ⟨⟩ | ⟨number, content⟩
    · exact .none
    · exact .directory
    · rw [Option.map_some, filled]
      split <;> exact .file

namespace Alike

variable {fs fs' : FileSystem} (alike : Alike fs fs')

include alike

theorem walk (start : Location) (names : List String) : fs'.walk start names = fs.walk start names := by
  induction names generalizing start with
  | nil => rfl
  | cons name rest inductionHypothesis =>
    rw [walk_cons, walk_cons]
    have kind := alike.entryAt? start
    generalize fs.entryAt? start = entry, fs'.entryAt? start = entry' at kind ⊢
    cases kind with
    | none => rfl
    | file => rfl
    | directory =>
      cases follow start name with
      | error e => rfl
      | ok reached => exact inductionHypothesis reached

/-- A path leads to the same place, or is refused for the same reason. -/
theorem resolve_cases (path : Path) :
    (∃ e, fs.resolve path = .error e ∧ fs'.resolve path = .error e) ∨
      ∃ location entry entry' slash isNamed, fs.resolve path = .ok ⟨location, entry, slash, isNamed⟩ ∧
        fs'.resolve path = .ok ⟨location, entry', slash, isNamed⟩ ∧ SameKind entry entry' := by
  have sameOrigin : fs'.origin path.text.toList = fs.origin path.text.toList := by
    rw [origin, origin, alike.workingDirectory]
  rw [resolve_eq, resolve_eq, sameOrigin, alike.walk]
  split
  · exact .inl ⟨_, rfl, rfl⟩
  · split
    · exact .inl ⟨_, rfl, rfl⟩
    · split
      · exact .inl ⟨_, rfl, rfl⟩
      · cases fs.walk (fs.origin path.text.toList) (Path.parts path.text.toList) with
        | error e => exact .inl ⟨e, rfl, rfl⟩
        | ok location => exact .inr ⟨location, _, _, _, _, rfl, rfl, alike.entryAt? location⟩

theorem isDirectory (path : Path) : fs'.isDirectory path = fs.isDirectory path := by
  rw [FileSystem.isDirectory, FileSystem.isDirectory, find, find]
  rcases alike.resolve_cases path with
    ⟨e, refused, refused'⟩ | ⟨location, entry, entry', slash, isNamed, resolved, resolved', kind⟩
  · rw [refused, refused']
  · rw [resolved, resolved']
    cases kind <;> cases slash <;> rfl

theorem makeDirectory (path : Path) :
    (∃ e, fs.makeDirectory path = .error e ∧ fs'.makeDirectory path = .error e) ∨
      ∃ made made', fs.makeDirectory path = .ok made ∧ fs'.makeDirectory path = .ok made' ∧
        Alike made made' := by
  rw [FileSystem.makeDirectory, FileSystem.makeDirectory]
  rcases alike.resolve_cases path with
    ⟨e, refused, refused'⟩ | ⟨location, entry, entry', slash, isNamed, resolved, resolved', kind⟩
  · rw [refused, refused']
    exact .inl ⟨e, rfl, rfl⟩
  · have below : entry = none → location ≠ [] := by
      rintro rfl
      exact below_of_free (entry_of_resolve resolved).symm
    rw [resolved, resolved']
    cases kind with
    | directory => exact .inl ⟨_, rfl, rfl⟩
    | file => exact .inl ⟨_, rfl, rfl⟩
    | none =>
      refine .inr ⟨_, _, rfl, rfl, alike.workingDirectory, fun other => ?_⟩
      rw [entryAt?_set fs (below rfl), entryAt?_set fs' (below rfl)]
      split
      · exact .directory
      · exact alike.entryAt? other

theorem makeChain (paths : List Path) :
    Alike (fs.makeChain paths).1 (fs'.makeChain paths).1 ∧
      (fs'.makeChain paths).2 = (fs.makeChain paths).2 := by
  induction paths with
  | nil => exact ⟨alike, rfl⟩
  | cons path above inductionHypothesis =>
    rw [FileSystem.makeChain, FileSystem.makeChain]
    split
    next nothing => exact ⟨alike, rfl⟩
    next named =>
      rcases alike.makeDirectory path with
        ⟨e, refused, refused'⟩ | ⟨made, made', done, done', alike'⟩
      · rw [refused, refused']
        cases e
        case notFound =>
          obtain ⟨alikeAbove, same⟩ := inductionHypothesis
          rcases chain : fs.makeChain above with ⟨prepared, result⟩
          rcases chain' : fs'.makeChain above with ⟨prepared', result'⟩
          rw [chain, chain'] at alikeAbove same
          dsimp only at alikeAbove same ⊢
          subst same
          rcases result' with e | ⟨⟩
          · exact ⟨alikeAbove, rfl⟩
          · rcases alikeAbove.makeDirectory path with
              ⟨e, again, again'⟩ | ⟨made, made', done, done', alike'⟩
            · simp only [again, again', alikeAbove.isDirectory]
              exact ⟨alikeAbove, trivial⟩
            · simp only [done, done']
              exact ⟨alike', trivial⟩
        all_goals
          dsimp only
          rw [alike.isDirectory]
          exact ⟨alike, rfl⟩
      · rw [done, done']
        exact ⟨alike', rfl⟩

theorem makeParents (path : Path) : Alike (fs.makeParents path).1 (fs'.makeParents path).1 := by
  rw [FileSystem.makeParents, FileSystem.makeParents]
  split
  next top => exact alike
  next above lies =>
    split
    next nothing => exact alike
    next named => exact (alike.makeChain _).1

end Alike

end FileSystem

end KeyValueService
