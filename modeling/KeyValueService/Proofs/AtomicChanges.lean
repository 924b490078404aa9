import KeyValueService.Proofs.StoreAgreement

/-!
# Changes are all or nothing

A change of a store that is kept in a file, on a disk where saving may come to a stop anywhere: at an
error, or because the program ends there. At the path there is then what was there before, byte by
byte, or the complete image of the changed table; after an error it is the former. What is in memory
need not agree with the file.

The directories that the path lies in are made first. They stay, and two dots may lead through them to
a file that the path did not lead to before. Without two dots, or with the directory of the path there
already, they bring nothing to light.

A file that is named like a draft is its own draft. It is emptied before the new image is written to it,
and nothing is kept of what was there.
-/

namespace KeyValueService

namespace FileSystem

open KeyValueService.Path

/-- The bytes that can be read at a path. -/
def readable (fs : FileSystem) (path : Path) : Option ByteArray :=
  (fs.readBytes path).toOption

theorem readable_congr {fs fs' : FileSystem} {path : Path}
    (same : fs'.resolve path = fs.resolve path) : fs'.readable path = fs.readable path := by
  rw [readable, readable, readBytes, readBytes, find, find, same]

/-- A path at which bytes can be read lies in a directory that is there. -/
theorem settled_of_readable {fs : FileSystem} {path : Path} (reads : fs.readable path ≠ none) :
    fs.Settled path := by
  cases resolved : fs.resolve path with
  | ok target => exact settled_of_resolve resolved
  | error e =>
    rw [readable, readBytes, find, resolved] at reads
    exact absurd rfl reads

/-- A path at which bytes are read leads to the file that has them. -/
theorem resolve_of_readBytes {fs : FileSystem} {path : Path} {content : ByteArray}
    (reads : fs.readBytes path = .ok content) :
    ∃ location number isNamed,
      fs.resolve path = .ok ⟨location, some (.file number content), false, isNamed⟩ := by
  rw [readBytes, find] at reads
  rcases resolved : fs.resolve path with e | ⟨location, _ | ⟨⟩ | ⟨number, content'⟩, _ | _, isNamed⟩
  all_goals
    rw [resolved] at reads
    cases reads
  exact ⟨location, number, isNamed, rfl⟩

/-- A write that is refused finds the disk full; one that is not has nothing to write on a full disk. -/
theorem write_of_full {fs : FileSystem} (handle : Handle) (bytes : ByteArray) :
    (∀ e, fs.write handle bytes = .error e → fs.full = true) ∧
      ∀ result, fs.write handle bytes = .ok result → fs.full = true → bytes = ByteArray.empty := by
  rw [write]
  by_cases nothing : bytes.size = 0
  · rw [if_pos nothing]
    refine ⟨fun e refused => ?_, fun _ _ _ => ByteArray.size_eq_zero_iff.1 nothing⟩
    cases refused
  rw [if_neg nothing]
  cases full : fs.full with
  | true =>
    rw [if_pos rfl]
    refine ⟨fun _ _ => rfl, fun result written => ?_⟩
    cases written
  | false =>
    rw [if_neg Bool.false_ne_true]
    refine ⟨fun e refused => ?_, fun result written isTrue => ?_⟩
    · cases refused
    · cases isTrue

/-- Nothing can be read at a path whose names lead to no file. -/
theorem readable_of_walk {fs : FileSystem} {path : Path}
    (noFile : ∀ reached number content,
      fs.walk (fs.origin path.text.toList) (parts path.text.toList) = .ok reached →
        fs.entryAt? reached ≠ some (.file number content)) : fs.readable path = none := by
  rw [readable, readBytes, find]
  cases resolved : fs.resolve path with
  | error e => rfl
  | ok target =>
    obtain ⟨-, walked, leads⟩ := walk_of_resolve resolved
    rw [leads]
    rcases there : fs.entryAt? target.location with _ | ⟨⟩ | ⟨number, content⟩
    · rfl
    · rfl
    · exact absurd there (noFile _ number content walked)

/-- From an empty directory names lead to a file only if there are two dots among them. -/
theorem no_file_of_bare {fs : FileSystem} {location : Location} {names : List String}
    (directory : fs.entryAt? location = some .directory)
    (bare : ∀ name, fs.entryAt? (name :: location) = none) (noDots : ".." ∉ names)
    {reached : Location} (walked : fs.walk location names = .ok reached) (number : Nat)
    (content : ByteArray) : fs.entryAt? reached ≠ some (.file number content) := by
  induction names with
  | nil =>
    cases walked
    rw [directory]
    intro same
    cases same
  | cons name rest inductionHypothesis =>
    obtain ⟨notDots, noMore⟩ := not_or.1 (List.mem_cons.not.1 noDots)
    rw [walk_cons, directory] at walked
    dsimp only at walked
    by_cases dot : name = "."
    · subst dot
      rw [follow_dot] at walked
      exact inductionHypothesis noMore walked
    · rw [follow_name dot (Ne.symm notDots)] at walked
      by_cases long : maxNameSize < name.utf8ByteSize
      · rw [if_pos long] at walked
        cases walked
      rw [if_neg long] at walked
      dsimp only at walked
      cases rest with
      | nil =>
        cases walked
        rw [bare name]
        intro same
        cases same
      | cons other others =>
        rw [walk_cons, bare name] at walked
        cases walked

/-- Whichever of the directories are made that a path without two dots lies in, the same can be read
at it. -/
theorem readable_of_prepared {fs fs' : FileSystem} (sound : fs.Sound) {path : Path}
    (noDots : ".." ∉ parts path.text.toList) (prepared : Prepared path fs fs') :
    fs'.readable path = fs.readable path := by
  induction prepared with
  | refl fs => rfl
  | @step fs made fs'' above directory lies among named done more inductionHypothesis =>
    have around := around_of_mem_ancestors lies among named
    obtain ⟨location, before, rest, -, joined, isThere, bare, nowhere, walked⟩ :=
      walk_of_makeDirectory sound around done
    have unread : fs.readable path = none := by
      refine readable_of_walk ?_
      intro reached number content followed
      rw [nowhere] at followed
      cases followed
    have stillUnread : made.readable path = none := by
      refine readable_of_walk ?_
      intro reached number content followed
      rw [walked] at followed
      rw [joined] at noDots
      exact no_file_of_bare isThere bare (fun member => noDots (List.mem_append_right _ member))
        followed number content
    rw [inductionHypothesis (sound.makeDirectory done), unread, stillUnread]

end FileSystem

namespace Store

open FileSystem KeyValueService.Path

/-- The path leads to what it leads to with some of the directories made that it lies in: those are all
that is new, or the directory of the path is there and what else is new is not where it leads. -/
def LeadsAsMade (path : Path) (fs fs' : FileSystem) : Prop :=
  ∃ made, Prepared path fs made ∧
    (fs' = made ∨ fs'.Settled path ∧ fs'.resolve path = made.resolve path)

theorem stable_leadsAsMade (path : Path) (fs : FileSystem) : Stable path (LeadsAsMade path fs) where
  of_prepared := by
    rintro fs₁ fs₂ ⟨made, prepared, rfl | ⟨settled, same⟩⟩ more
    · exact ⟨fs₂, prepared.trans more, .inl rfl⟩
    · rw [more.eq_of_settled settled]
      exact ⟨made, prepared, .inr ⟨settled, same⟩⟩
  of_resolve := by
    rintro fs₁ fs₂ ⟨made, prepared, rfl | ⟨-, before⟩⟩ settled same
    · exact ⟨fs₁, prepared, .inr ⟨settled, same⟩⟩
    · exact ⟨made, prepared, .inr ⟨settled, same.trans before⟩⟩

/-- What a change of a store comes to: its file has been replaced by the complete image of the table
that the change means, or the change has failed, and what can be read is the same as in `fs`. -/
inductive AllOrNothing (path : Path) (fs : FileSystem) (store : Store) (call : Call) :
    FileSystem × Store × Answer → Prop
  | replaced {fs' : FileSystem} {table : Table String}
      (means : table.find? = (call.meaning store.table.find?).1)
      (bytes : fs'.readable path = some (image table).toUTF8) :
      AllOrNothing path fs store call
        (fs', { store with table }, (call.meaning store.table.find?).2)
  | kept {fs' : FileSystem} (cause : StoreError) (bytes : fs'.readable path = fs.readable path) :
      AllOrNothing path fs store call (fs', store, .failed cause)

/-- Whatever a store has in memory and wherever saving a change of it stops, its file is all old or all
new, and all old after an error. A refusal stands for an error as well as for the end of the program:
either way no more is done on the disk, and what has been done until then stays. There are no links.
The file may not be named like a draft; of one that is, `own_draft_cut_off` tells. Old is what can be
read with some of the directories made that the path lies in, which is what could be read before if that
was something, if the directory of the path was there, or if there are no two dots in the path. -/
theorem change_all_or_nothing {fs : FileSystem} {path : Path} {store : Store} {call : Call}
    (sound : fs.Sound) (own : store.path = some path) (apart : path.extension ≠ draftExtension)
    (saves : call.Saves store.table.find?) (refusal : Option Refusal) :
    ∃ made, Prepared path fs made ∧
      (fs.readable path ≠ none ∨ fs.Settled path ∨ ".." ∉ parts path.text.toList →
        made.readable path = fs.readable path) ∧
      AllOrNothing path made store call (call.run refusal fs store) := by
  have unchanged : ∀ {made}, Prepared path fs made →
      fs.readable path ≠ none ∨ fs.Settled path ∨ ".." ∉ parts path.text.toList →
        made.readable path = fs.readable path := by
    rintro made prepared (reads | settled | noDots)
    · rw [prepared.eq_of_settled (settled_of_readable reads)]
    · rw [prepared.eq_of_settled settled]
    · exact readable_of_prepared sound noDots prepared
  obtain ⟨kept, old⟩ := store
  obtain rfl : kept = some path := own
  obtain ⟨table, undo, means, restores, -, runs⟩ := Call.run_of_saves refusal fs saves
  rw [runs, commitBy_of_undo restores]
  dsimp only
  have before : LeadsAsMade path fs fs := ⟨fs, .refl fs, .inl rfl⟩
  rcases saved : saveUnder refusal fs (some path) table with ⟨fs', cause | ⟨⟩⟩
  · obtain ⟨-, made, prepared, same⟩ :=
      saveUnder_secured (stable_leadsAsMade path fs) apart refusal sound before saved
    have bytes : fs'.readable path = made.readable path := by
      rcases same with rfl | ⟨-, leads⟩
      · rfl
      · exact readable_congr leads
    exact ⟨made, prepared, unchanged prepared, .kept (.disk cause) bytes⟩
  · obtain ⟨-, there⟩ :=
      saveUnder_secured (stable_leadsAsMade path fs) apart refusal sound before saved
    have bytes : fs'.readable path = some (image table).toUTF8 := by
      rw [readable, there]
      rfl
    exact ⟨fs, .refl fs, unchanged (.refl fs), .replaced means bytes⟩

/-- A change that stops after the directory of the file has been made, and the first byte written to
the draft. -/
theorem change_cut_off_while_writing :
    FileSystem.empty.Sound ∧ (⟨"data/keys.txt"⟩ : Path).extension ≠ draftExtension ∧
      (Call.put "k" "v").Saves (Table.empty : Table String).find? ∧
      ∃ made, Prepared ⟨"data/keys.txt"⟩ .empty made ∧
        made.readable ⟨"data/keys.txt"⟩ = FileSystem.empty.readable ⟨"data/keys.txt"⟩ ∧
        AllOrNothing ⟨"data/keys.txt"⟩ made ⟨some ⟨"data/keys.txt"⟩, .empty⟩ (.put "k" "v")
          ((Call.put "k" "v").run (some ⟨2, 1, .noSpace⟩) .empty
            ⟨some ⟨"data/keys.txt"⟩, .empty⟩) := by
  have apart : (⟨"data/keys.txt"⟩ : Path).extension ≠ draftExtension := by decide
  have saves : (Call.put "k" "v").Saves (Table.empty : Table String).find? := trivial
  obtain ⟨made, prepared, same, outcome⟩ :=
    @change_all_or_nothing .empty ⟨"data/keys.txt"⟩ ⟨some ⟨"data/keys.txt"⟩, .empty⟩ (.put "k" "v")
      sound_empty rfl apart saves (some ⟨2, 1, .noSpace⟩)
  exact ⟨sound_empty, apart, saves, made, prepared, same (.inr (.inr (by decide))), outcome⟩

/-- A file that is named like a draft is its own draft and has nothing to fall back on. A save that is
stopped while it writes leaves the bytes that it has written, and none of those that were there. -/
theorem own_draft_cut_off {fs : FileSystem} (sound : fs.Sound) {path : Path} {folder stem : List Char}
    (splits : path.Splits folder (stem ++ '.' :: draftExtension)) (nonempty : stem ≠ [])
    (notDot : stem ≠ ['.']) {old : ByteArray} (there : fs.readBytes path = .ok old)
    (table : Table String) (amount : Nat) (cause : DiskError) :
    ∃ fs', saveUnder (some ⟨2, amount, cause⟩) fs (some path) table = (fs', .error cause) ∧
      fs'.readBytes path =
        .ok (if fs.full then ByteArray.empty else (image table).toUTF8.extract 0 amount) := by
  have own : draftPath path = path := draftPath_eq_self splits nonempty notDot
  obtain ⟨location, number, isNamed, resolved⟩ := resolve_of_readBytes there
  have prepared := makeParents_of_settled (settled_of_resolve resolved)
  obtain ⟨fresh, opened, sameRoom⟩ : ∃ fresh, fs.openEmptied path = .ok (fresh, ⟨number, some 0⟩) ∧
      fresh.full = fs.full := by
    rw [openEmptied, resolved]
    exact ⟨_, rfl, rfl⟩
  obtain ⟨target, resolved', -, -, sound', keeps, emptied, -⟩ := openEmptied_exact sound opened
  rw [resolved, Except.ok.injEq] at resolved'
  subst resolved'
  have reads : ∀ {fs' content}, KeepsDirectories fs fs' →
      fs'.entryAt? location = some (.file number content) → fs'.readBytes path = .ok content := by
    intro fs' content keeps' holds
    rw [readBytes, find, resolve_of_keepsDirectories keeps' resolved]
    dsimp only
    rw [holds]
  have run : saveUnder (some ⟨2, amount, cause⟩) fs (some path) table =
      (((SaveStep.write ((image table).toUTF8.extract 0 amount)).run
        ⟨fresh, some ⟨number, some 0⟩⟩).1.files, .error cause) := by
    simp only [saveUnder, saveSteps, own, runUnder, SaveStep.run, prepared, opened, SaveStep.begin]
  refine ⟨_, run, ?_⟩
  generalize (image table).toUTF8.extract 0 amount = bytes
  obtain ⟨refused, written⟩ := fresh.write_of_full ⟨number, some 0⟩ bytes
  rw [sameRoom] at refused written
  rw [SaveStep.run]
  dsimp only
  rcases outcome : fresh.write ⟨number, some 0⟩ bytes with e | ⟨files, handle⟩
  · rw [if_pos (refused e outcome)]
    exact reads keeps emptied
  · obtain ⟨-, -, keeps', now, -, -⟩ := write_beside sound' emptied (by simp) outcome
    rw [ByteArray.empty_append] at now
    have read := reads (keeps.trans keeps') now
    cases full : fs.full with
    | true =>
      rw [written _ outcome full] at read
      exact read
    | false => exact read

/-- A store in the file f.tmp has saved an entry when the disk fills up. The next put fails, since the new
image cannot be written, and leaves the file empty. -/
theorem not_all_or_nothing :
    let path : Path := ⟨"f.tmp"⟩
    let saved := runCalls .empty ⟨some path, .empty⟩ [(.put "a" "1", none)]
    let fs : FileSystem := { saved.1 with full := true }
    let result := (Call.put "b" "2").run none fs saved.2.1
    fs.readable path = some "a\t1\n".toUTF8 ∧ result.2.2 = .failed (.disk .noSpace) ∧
      result.1.readable path = some ByteArray.empty ∧
      ¬ AllOrNothing path fs saved.2.1 (.put "b" "2") result := by
  intro path saved fs result
  have before : fs.readable path = some "a\t1\n".toUTF8 := by decide +kernel
  have fails : result.2.2 = .failed (.disk .noSpace) := by decide +kernel
  have after : result.1.readable path = some ByteArray.empty := by decide +kernel
  refine ⟨before, fails, after, ?_⟩
  generalize result = outcome at fails after
  rintro (⟨means, bytes⟩ | ⟨cause, bytes⟩)
  · cases fails
  · rw [before] at bytes
    cases bytes.symm.trans after

end Store

end KeyValueService
