import KeyValueService.Proofs.SoundFiles

/-!
# Paths and the directories they lie in

Making the directories that a path lies in goes through a series of file systems, in which
more and more of them are there. Once the directory of the path itself is there nothing is
left to make, and where the path leads then depends only on the entry under its last name.
Before that a path leads nowhere, but it need not stay so: behind a directory that is missing,
two dots may lead back to a file that is there, and a name may turn out to be too long. A
file is missing when there is none however many of the directories have been made.
-/

namespace KeyValueService

namespace FileSystem

open KeyValueService.Path

/-- Some of the directories that a path lies in have been made, one after the other. -/
inductive Prepared (p : Path) : FileSystem → FileSystem → Prop
  | refl (fs : FileSystem) : Prepared p fs fs
  | step {fs fs' fs'' : FileSystem} {above directory : Path} (lies : p.parent? = some above)
      (among : directory ∈ above.ancestors) (named : directory.text ≠ "")
      (made : fs.makeDirectory directory = .ok fs') (more : Prepared p fs' fs'') :
      Prepared p fs fs''

theorem Prepared.trans {p : Path} {fs fs' fs'' : FileSystem} (first : Prepared p fs fs')
    (second : Prepared p fs' fs'') : Prepared p fs fs'' := by
  induction first with
  | refl fs => exact second
  | step lies among named made more inductionHypothesis =>
    exact .step lies among named made (inductionHypothesis second)

theorem Prepared.sound {p : Path} {fs fs' : FileSystem} (prepared : Prepared p fs fs')
    (sound : fs.Sound) : fs'.Sound := by
  induction prepared with
  | refl fs => exact sound
  | step lies among named made more inductionHypothesis =>
    exact inductionHypothesis (sound.makeDirectory made)

/-- Making directories along a chain prepares a path that lies in all of them, whether it succeeds
or is given up halfway. -/
theorem prepared_of_makeChain {p above : Path} (lies : p.parent? = some above) (fs : FileSystem)
    {chain : List Path} (among : ∀ directory ∈ chain, directory ∈ above.ancestors) :
    Prepared p fs (fs.makeChain chain).1 := by
  induction chain generalizing fs with
  | nil => exact .refl fs
  | cons path rest inductionHypothesis =>
    have own : path ∈ above.ancestors := among path List.mem_cons_self
    have around := inductionHypothesis fs fun directory member =>
      among directory (List.mem_cons_of_mem _ member)
    rw [makeChain]
    by_cases named : path.text = ""
    · rw [if_pos named]
      exact .refl fs
    rw [if_neg named]
    split
    next made done => exact .step lies own named done (.refl made)
    next missing =>
      split
      next prepared e failed =>
        rw [failed] at around
        exact around
      next prepared done =>
        rw [done] at around
        split
        next made done' => exact around.trans (.step lies own named done' (.refl made))
        next e refused => exact around
    next e refused => exact .refl fs

theorem prepared_of_makeParents (fs : FileSystem) (p : Path) : Prepared p fs (fs.makeParents p).1 := by
  rw [makeParents]
  split
  next top => exact .refl fs
  next above lies =>
    by_cases nothing : above.text = ""
    · rw [if_pos nothing]
      exact .refl fs
    · rw [if_neg nothing]
      exact prepared_of_makeChain lies fs fun directory member => member

/-- Once the directory of a path is there, nothing is left to make. -/
theorem Prepared.eq_of_settled {p : Path} {fs fs' : FileSystem} (prepared : Prepared p fs fs')
    (settled : fs.Settled p) : fs' = fs := by
  cases prepared with
  | refl => rfl
  | step lies among named made more =>
    exfalso
    have there : ∀ {directory : Path} {made : FileSystem}, fs.isDirectory directory = true →
        fs.makeDirectory directory ≠ .ok made := by
      intro directory made isDirectory done
      rw [makeDirectory_of_isDirectory isDirectory] at done
      cases done
    rcases around_of_ancestorsFrom among named with rfl | around
    · exact there (settled _ lies named) made
    · obtain ⟨target, resolved, -⟩ := isDirectory_iff.1 (settled _ lies around.outer_named)
      exact there (isDirectory_of_around around resolved) made

/-- A path that leads somewhere lies in a directory that is there. -/
theorem settled_of_resolve {fs : FileSystem} {p : Path} {target : Target}
    (resolved : fs.resolve p = .ok target) : fs.Settled p := by
  intro above lies named
  exact isDirectory_of_around (around_of_parent lies named) resolved

/-- Making directories along a chain is given up at one that is none afterwards either. -/
theorem exists_refused_of_makeChain {fs made : FileSystem} {chain : List Path} {e : DiskError}
    (failed : fs.makeChain chain = (made, .error e)) :
    ∃ directory ∈ chain, directory.text ≠ "" ∧ made.isDirectory directory = false := by
  induction chain generalizing fs made e with
  | nil => cases failed
  | cons path above inductionHypothesis =>
    rw [makeChain] at failed
    by_cases named : path.text = ""
    · rw [if_pos named] at failed
      cases failed
    rw [if_neg named] at failed
    have refused : ∀ {fs' : FileSystem} {e' : DiskError},
        (fs', if fs'.isDirectory path then .ok () else .error e') = (made, Except.error e) →
        made.isDirectory path = false := by
      intro fs' e' same
      obtain ⟨rfl, outcome⟩ := Prod.mk.inj same
      by_cases directory : fs'.isDirectory path = true
      · rw [if_pos directory] at outcome
        cases outcome
      · exact Bool.not_eq_true _ ▸ directory
    split at failed
    next made' done => cases failed
    next missing =>
      split at failed
      next prepared e' failed' =>
        cases failed
        obtain ⟨directory, member, nonempty, absent⟩ := inductionHypothesis failed'
        exact ⟨directory, List.mem_cons_of_mem _ member, nonempty, absent⟩
      next prepared done =>
        split at failed
        next made' done' => cases failed
        next e' refused' => exact ⟨path, List.mem_cons_self, named, refused failed⟩
    next e' refused' => exact ⟨path, List.mem_cons_self, named, refused failed⟩

/-- Where the directories of a path cannot be made, the path leads nowhere. -/
theorem resolve_of_makeParents_error {fs made : FileSystem} {p : Path} {e : DiskError}
    (failed : fs.makeParents p = (made, .error e)) (target : Target) : made.resolve p ≠ .ok target := by
  intro resolved
  rw [makeParents] at failed
  split at failed
  next top => cases failed
  next above lies =>
    by_cases nothing : above.text = ""
    · rw [if_pos nothing] at failed
      cases failed
    rw [if_neg nothing] at failed
    obtain ⟨directory, among, named, absent⟩ := exists_refused_of_makeChain failed
    have there := isDirectory_of_around (around_of_mem_ancestors lies among named) resolved
    rw [absent] at there
    cases there

section Dots

variable {fs : FileSystem} {location : Location}
  (directory : fs.entryAt? location = some .directory)

include directory

/-- Single dots lead nowhere else. -/
theorem walk_dots (count : Nat) (more : List String) :
    fs.walk location (dots count ++ more) = fs.walk location more := by
  induction count with
  | zero => rfl
  | succ count inductionHypothesis =>
    rw [dots, List.replicate_succ, List.cons_append, walk_cons, directory]
    dsimp only
    rw [follow_dot]
    exact inductionHypothesis

theorem walk_only_dots (count : Nat) : fs.walk location (dots count) = .ok location := by
  have followed := walk_dots directory count []
  rwa [List.append_nil] at followed

end Dots

section Frame

variable {fs fs' : FileSystem} {p : Path}

/-- A path leads to the same in two file systems if its names do. -/
theorem resolve_congr (workingDirectory : fs'.workingDirectory = fs.workingDirectory)
    (walked : fs'.walk (fs.origin p.text.toList) (parts p.text.toList) =
      fs.walk (fs.origin p.text.toList) (parts p.text.toList))
    (reaches : ∀ reached, fs.walk (fs.origin p.text.toList) (parts p.text.toList) = .ok reached →
      fs'.entryAt? reached = fs.entryAt? reached) : fs'.resolve p = fs.resolve p := by
  have sameOrigin : fs'.origin p.text.toList = fs.origin p.text.toList := by
    rw [origin, origin, workingDirectory]
  rw [resolve_eq, resolve_eq, sameOrigin, walked]
  cases found : fs.walk (fs.origin p.text.toList) (parts p.text.toList) with
  | error e => rfl
  | ok reached =>
    dsimp only
    rw [reaches reached found]

variable (sound : fs.Sound) (keeps : KeepsDirectories fs fs')

include sound keeps

/-- A name followed from a directory leads to the same, with single dots behind it, if the entry
under that name is the same. -/
theorem walk_name_congr {location : Location} {name : String}
    (directory : fs.entryAt? location = some .directory)
    (same : name ≠ "." → fs'.entryAt? (name :: location) = fs.entryAt? (name :: location))
    (behind : Nat) :
    fs'.walk location (name :: dots behind) = fs.walk location (name :: dots behind) ∧
      ∀ reached, fs.walk location (name :: dots behind) = .ok reached →
        fs'.entryAt? reached = fs.entryAt? reached := by
  have directory' := keeps.entryAt? location directory
  have stays : ∀ {other}, fs.entryAt? other = some .directory →
      fs'.walk other (dots behind) = fs.walk other (dots behind) ∧
        ∀ reached, fs.walk other (dots behind) = .ok reached →
          fs'.entryAt? reached = fs.entryAt? reached := by
    intro other there
    have there' := keeps.entryAt? other there
    rw [walk_only_dots there, walk_only_dots there']
    refine ⟨rfl, ?_⟩
    intro reached found
    cases found
    rw [there, there']
  rw [walk_cons, walk_cons, directory, directory']
  dsimp only
  by_cases dot : name = "."
  · subst dot
    rw [follow_dot]
    exact stays directory
  by_cases dots : name = ".."
  · subst dots
    exact stays (sound.tail directory)
  rw [follow_name dot dots]
  by_cases long : maxNameSize < name.utf8ByteSize
  · rw [if_pos long]
    refine ⟨rfl, ?_⟩
    intro reached found
    cases found
  rw [if_neg long]
  have own := same dot
  cases behind with
  | zero =>
    refine ⟨rfl, ?_⟩
    intro reached found
    cases found
    exact own
  | succ count =>
    rcases there : fs.entryAt? (name :: location) with _ | ⟨⟩ | ⟨number, content⟩
    · rw [there] at own
      simp only [Path.dots, List.replicate_succ, walk_cons, there, own]
      simp
    · exact stays there
    · rw [there] at own
      simp only [Path.dots, List.replicate_succ, walk_cons, there, own]
      simp

/-- Where the directory of a path is there, the path leads to the same as long as no directory
disappears and no entry changes that has its last name. -/
theorem resolve_of_settled (settled : fs.Settled p)
    (same : ∀ location, fs'.entryAt? (String.ofList (splitLast p.text.toList).2 :: location) =
      fs.entryAt? (String.ofList (splitLast p.text.toList).2 :: location)) :
    fs'.resolve p = fs.resolve p := by
  cases lies : p.parent? with
  | none =>
    rcases parts_of_no_parent lies with empty | ⟨slash, count, split⟩
    · rw [resolve_eq, resolve_eq, if_pos empty, if_pos empty]
    · have top : fs.origin p.text.toList = [] := by rw [origin, if_pos slash]
      refine resolve_congr keeps.workingDirectory ?_ ?_
      · rw [top, split, walk_only_dots rfl, walk_only_dots rfl]
      · rw [top, split, walk_only_dots rfl]
        intro reached found
        cases found
        rfl
  | some above =>
    obtain ⟨between, name, behind, last, split⟩ := parts_parent lies
    have leads : ∃ location, fs.entryAt? location = some .directory ∧
        fs.walk (fs.origin p.text.toList) (parts above.text.toList) = .ok location := by
      by_cases nothing : above.text = ""
      · rw [nothing]
        exact ⟨_, sound.origin _, rfl⟩
      · obtain ⟨target, resolved, directory⟩ := isDirectory_iff.1 (settled above lies nothing)
        obtain ⟨-, walked, -⟩ := walk_of_resolve resolved
        rw [fs.origin_of_around (around_of_parent lies nothing)] at walked
        rw [entry_of_resolve resolved] at directory
        exact ⟨target.location, directory, walked⟩
    obtain ⟨location, directory, walked⟩ := leads
    have own : String.ofList name ≠ "." →
        fs'.entryAt? (String.ofList name :: location) =
          fs.entryAt? (String.ofList name :: location) := by
      intro notDot
      rcases last with rfl | rfl
      · exact absurd rfl notDot
      · exact same location
    obtain ⟨follows, reaches⟩ := walk_name_congr sound keeps directory own behind
    have follow : fs.walk (fs.origin p.text.toList) (parts p.text.toList) =
        fs.walk location (String.ofList name :: dots behind) := by
      rw [split, List.append_assoc, List.append_assoc, walk_append, walked]
      exact walk_dots directory between _
    have follow' : fs'.walk (fs.origin p.text.toList) (parts p.text.toList) =
        fs'.walk location (String.ofList name :: dots behind) := by
      rw [split, List.append_assoc, List.append_assoc, walk_append,
        walk_of_keepsDirectories keeps walked]
      exact walk_dots (keeps.entryAt? location directory) between _
    refine resolve_congr keeps.workingDirectory ?_ ?_
    · rw [follow, follow', follows]
    · rw [follow]
      exact reaches

end Frame

/-- There is no entry where a path leads, however many of the directories it lies in are made. -/
def Missing (fs : FileSystem) (p : Path) : Prop :=
  ∀ fs', Prepared p fs fs' → fs'.find p = .error .notFound

theorem Missing.of_prepared {fs fs' : FileSystem} {p : Path} (missing : fs.Missing p)
    (prepared : Prepared p fs fs') : fs'.Missing p :=
  fun fs'' more => missing fs'' (prepared.trans more)

theorem missing_of_settled {fs : FileSystem} {p : Path} (settled : fs.Settled p)
    (nothing : fs.find p = .error .notFound) : fs.Missing p := by
  intro fs' prepared
  rw [prepared.eq_of_settled settled, nothing]

/-- A path at which there is no entry has a text that can be followed. -/
theorem text_of_find {fs : FileSystem} {p : Path} (named : p.text ≠ "")
    (nothing : fs.find p = .error .notFound) :
    '\x00' ∉ p.text.toList ∧ ¬ maxPathSize < p.text.utf8ByteSize := by
  have nonempty : p.text.toList ≠ [] := fun empty => named (String.toList_eq_nil_iff.1 empty)
  rw [find, resolve_eq, if_neg nonempty] at nothing
  by_cases nul : '\x00' ∈ p.text.toList
  · rw [if_pos nul] at nothing
    cases nothing
  rw [if_neg nul] at nothing
  by_cases long : maxPathSize < p.text.utf8ByteSize
  · rw [if_pos long] at nothing
    cases nothing
  exact ⟨nul, long⟩

/-- There is no entry at a path whose names lead nowhere, or to no entry. -/
theorem find_of_walk {fs : FileSystem} {p : Path}
    (text : '\x00' ∉ p.text.toList ∧ ¬ maxPathSize < p.text.utf8ByteSize)
    (walked : fs.walk (fs.origin p.text.toList) (parts p.text.toList) = .error .notFound ∨
      ∃ reached, fs.walk (fs.origin p.text.toList) (parts p.text.toList) = .ok reached ∧
        fs.entryAt? reached = none) : fs.find p = .error .notFound := by
  rw [find, resolve_eq]
  by_cases empty : p.text.toList = []
  · rw [if_pos empty]
  rw [if_neg empty, if_neg text.1, if_neg text.2]
  rcases walked with nowhere | ⟨reached, walked, nothing⟩
  · rw [nowhere]
  · rw [walked]
    dsimp only
    rw [nothing]

/-- Names that lead down only: there are no two dots among them, none is too long, and the last one
is the name of an entry. -/
structure Downward (names : List String) : Prop where
  noDots : ".." ∉ names
  short : ∀ name ∈ names, name.utf8ByteSize ≤ maxNameSize
  ends : ∃ name, names.getLast? = some name ∧ isName name = true

theorem Downward.of_append {before names : List String} (down : Downward (before ++ names))
    (nonempty : names ≠ []) : Downward names where
  noDots member := down.noDots (List.mem_append_right _ member)
  short name member := down.short name (List.mem_append_right _ member)
  ends := by
    obtain ⟨name, last, named⟩ := down.ends
    rw [List.getLast?_append, List.getLast?_eq_some_getLast nonempty, Option.some_or] at last
    rw [List.getLast?_eq_some_getLast nonempty]
    exact ⟨name, last, named⟩

/-- Names that lead down from an empty directory lead to no entry. -/
theorem walk_of_bare {fs : FileSystem} {location : Location} {names : List String}
    (directory : fs.entryAt? location = some .directory)
    (bare : ∀ name, fs.entryAt? (name :: location) = none) (down : Downward names) :
    fs.walk location names = .error .notFound ∨
      ∃ reached, fs.walk location names = .ok reached ∧ fs.entryAt? reached = none := by
  induction names with
  | nil =>
    obtain ⟨name, last, -⟩ := down.ends
    cases last
  | cons name rest inductionHypothesis =>
    have notDots : name ≠ ".." := fun same => down.noDots (same ▸ List.mem_cons_self)
    have short : ¬ maxNameSize < name.utf8ByteSize :=
      Nat.not_lt.2 (down.short name List.mem_cons_self)
    rw [walk_cons, directory]
    dsimp only
    by_cases dot : name = "."
    · subst dot
      rw [follow_dot]
      refine inductionHypothesis (@Downward.of_append ["."] rest down ?_)
      rintro rfl
      obtain ⟨last, found, named⟩ := down.ends
      cases found
      exact absurd named (by decide)
    · rw [follow_name dot notDots, if_neg short]
      cases rest with
      | nil => exact .inr ⟨name :: location, rfl, bare name⟩
      | cons other others =>
        left
        dsimp only
        rw [walk_cons, bare name]

/-- A directory that is made on the way of a path was not there before, so the path led nowhere. It is
empty, and the path goes on from it. -/
theorem walk_of_makeDirectory {fs made : FileSystem} (sound : fs.Sound) {p directory : Path}
    (around : directory.Around p) (done : fs.makeDirectory directory = .ok made) :
    ∃ location before rest, rest ≠ [] ∧ parts p.text.toList = before ++ rest ∧
      made.entryAt? location = some .directory ∧
      (∀ name, made.entryAt? (name :: location) = none) ∧
      fs.walk (fs.origin p.text.toList) (parts p.text.toList) = .error .notFound ∧
      made.walk (made.origin p.text.toList) (parts p.text.toList) = made.walk location rest := by
  unfold makeDirectory at done
  split at done
  next e refused => cases done
  next location entry slash isNamed resolved => cases done
  next location slash isNamed resolved =>
    cases done
    have free : fs.entryAt? location = none := (entry_of_resolve resolved).symm
    have below := below_of_free free
    have keeps := fs.keepsDirectories_set below .directory (by simp [free])
    obtain ⟨rest, nonempty, joined⟩ := around.more
    obtain ⟨-, walked, -⟩ := walk_of_resolve resolved
    rw [fs.origin_of_around around] at walked
    refine ⟨location, _, rest, nonempty, joined, ?_, ?_, ?_, ?_⟩
    · rw [entryAt?_set fs below, if_pos rfl]
    · intro name
      rw [entryAt?_set fs below, if_neg (by simp)]
      cases there : fs.entryAt? (name :: location) with
      | none => rfl
      | some entry =>
        have directory := sound.above name location entry there
        rw [free] at directory
        cases directory
    · obtain ⟨next, others, rfl⟩ := List.exists_cons_of_ne_nil nonempty
      rw [joined, walk_append, walked]
      dsimp only
      rw [walk_cons, free]
    · change (fs.set location .directory).walk (fs.origin p.text.toList) _ = _
      rw [joined, walk_append, walk_of_keepsDirectories keeps walked]

/-- In a sound file system no directory that is made brings an entry to light at a path of names
that lead down. -/
theorem missing_of_downward {fs : FileSystem} (sound : fs.Sound) {p : Path}
    (down : Downward (parts p.text.toList)) (nothing : fs.find p = .error .notFound) :
    fs.Missing p := by
  intro fs' prepared
  induction prepared with
  | refl fs => exact nothing
  | @step fs made fs'' above directory lies among named done more inductionHypothesis =>
    refine inductionHypothesis (sound.makeDirectory done) ?_
    have around := around_of_mem_ancestors lies among named
    obtain ⟨location, before, rest, nonempty, joined, directory, bare, -, walked⟩ :=
      walk_of_makeDirectory sound around done
    refine find_of_walk (text_of_find around.outer_named nothing) ?_
    rw [walked]
    rw [joined] at down
    exact walk_of_bare directory bare (down.of_append nonempty)

end FileSystem

end KeyValueService
