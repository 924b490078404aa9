import KeyValueService.Disk.Buffered

/-!
# Entries after an operation

Which entry there is at a location after an entry was put there, taken away, written
through a handle or moved with all that lies in it, and that nothing changes anywhere
else. The location of the top directory is empty and is left out: no operation puts
anything in its place.

Through a handle only the file with its number can change. The bytes that a buffered
file holds back are seen as part of its content here: writing adds to the whole, and
flushing only moves bytes from the buffer to the disk.
-/

namespace KeyValueService

namespace FileSystem

theorem mem_of_lookup? {location : Location} {entry : Entry} {entries : List (Location × Entry)}
    (found : lookup? location entries = some entry) : (location, entry) ∈ entries := by
  induction entries with
  | nil => cases found
  | cons first rest inductionHypothesis =>
    obtain ⟨other, entry'⟩ := first
    rw [lookup?] at found
    by_cases same : location = other
    · rw [if_pos same] at found
      cases found
      rw [same]
      exact List.mem_cons_self
    · rw [if_neg same] at found
      exact List.mem_cons_of_mem _ (inductionHypothesis found)

theorem lookup?_filter_ne (location other : Location) (entries : List (Location × Entry)) :
    lookup? other (entries.filter fun (l, _) => l ≠ location) =
      if other = location then none else lookup? other entries := by
  induction entries with
  | nil => simp [lookup?]
  | cons first rest inductionHypothesis =>
    obtain ⟨place, entry⟩ := first
    by_cases removed : place = location
    · subst removed
      rw [List.filter_cons_of_neg (by simp), inductionHypothesis]
      by_cases same : other = place
      · rw [if_pos same, if_pos same]
      · rw [if_neg same, if_neg same, lookup?, if_neg same]
    · rw [List.filter_cons_of_pos (by simpa using removed), lookup?, lookup?, inductionHypothesis]
      by_cases found : other = place
      · rw [if_pos found, if_pos found, if_neg (found ▸ removed)]
      · rw [if_neg found, if_neg found]

theorem entryAt?_set (fs : FileSystem) {location : Location} (below : location ≠ []) (entry : Entry)
    (other : Location) :
    (fs.set location entry).entryAt? other =
      if other = location then some entry else fs.entryAt? other := by
  cases other with
  | nil => rw [if_neg (Ne.symm below)]; rfl
  | cons name above =>
    change lookup? (name :: above) ((location, entry) ::
      fs.entries.filter fun (l, _) => l ≠ location) = _
    rw [lookup?, lookup?_filter_ne]
    by_cases same : name :: above = location
    · rw [if_pos same, if_pos same]
    · rw [if_neg same, if_neg same, if_neg same]
      rfl

theorem entryAt?_unset (fs : FileSystem) {location : Location} (below : location ≠ [])
    (other : Location) :
    (fs.unset location).entryAt? other = if other = location then none else fs.entryAt? other := by
  cases other with
  | nil => rw [if_neg (Ne.symm below)]; rfl
  | cons name above => exact lookup?_filter_ne location (name :: above) fs.entries

theorem entryAt?_addFile (fs : FileSystem) {location : Location} (below : location ≠ [])
    (other : Location) :
    (fs.addFile location).entryAt? other =
      if other = location then some (.file fs.nextNumber ByteArray.empty) else fs.entryAt? other :=
  fs.entryAt?_set below _ other

/-- What writing through a handle makes of an entry. -/
def filled (handle : Handle) (bytes : ByteArray) : Entry → Entry
  | .directory => .directory
  | .file number content =>
    if number = handle.number then .file number (written content handle.offset bytes)
    else .file number content

/-- A write that is not refused either writes nothing or changes the entries with the number of the
handle. -/
theorem entryAt?_write {fs fs' : FileSystem} {handle handle' : Handle} {bytes : ByteArray}
    (done : fs.write handle bytes = .ok (fs', handle')) (nonempty : bytes.size ≠ 0) (other : Location) :
    fs'.entryAt? other = (fs.entryAt? other).map (filled handle bytes) := by
  simp only [write, if_neg nonempty] at done
  by_cases full : fs.full
  · simp [full] at done
  · simp only [full, Bool.false_eq_true, if_false, Except.ok.injEq, Prod.mk.injEq] at done
    obtain ⟨rfl, rfl⟩ := done
    cases other with
    | nil => rfl
    | cons name above =>
      change lookup? (name :: above) _ = (lookup? (name :: above) fs.entries).map (filled handle bytes)
      induction fs.entries with
      | nil => rfl
      | cons first rest inductionHypothesis =>
        obtain ⟨place, entry⟩ := first
        rw [List.map_cons, lookup?, lookup?, inductionHypothesis]
        by_cases found : name :: above = place
        · rw [if_pos found, if_pos found]
          cases entry <;> rfl
        · rw [if_neg found, if_neg found]

/-- Writing at the end of a content puts the bytes behind it, whether the end is asked for or the
offset has come there by itself. -/
theorem written_at_end (content : ByteArray) {offset : Option Nat} (bytes : ByteArray)
    (atEnd : ∀ position ∈ offset, position = content.size) :
    written content offset bytes = content ++ bytes := by
  cases offset with
  | none => rfl
  | some position =>
    have same : position = content.size := atEnd position rfl
    subst same
    have noGap : ByteArray.mk (Array.replicate (content.size - content.size) 0) = ByteArray.empty := by
      rw [Nat.sub_self]
      rfl
    have nothingBehind : content.extract (content.size + bytes.size) content.size = ByteArray.empty := by
      rw [ByteArray.extract_eq_empty_iff]
      omega
    simp only [written, overwrite, noGap, nothingBehind, ByteArray.extract_zero_size,
      ByteArray.append_empty]

/-- Nothing has changed but, at most, the content of the file with a number. -/
structure ChangesOnly (number : Nat) (fs fs' : FileSystem) : Prop where
  workingDirectory : fs'.workingDirectory = fs.workingDirectory
  nextNumber : fs'.nextNumber = fs.nextNumber
  entryAt? : ∀ location, (∀ content, fs.entryAt? location ≠ some (.file number content)) →
    fs'.entryAt? location = fs.entryAt? location

theorem ChangesOnly.refl (number : Nat) (fs : FileSystem) : ChangesOnly number fs fs :=
  ⟨rfl, rfl, fun _ _ => rfl⟩

theorem ChangesOnly.trans {number : Nat} {fs fs' fs'' : FileSystem} (first : ChangesOnly number fs fs')
    (second : ChangesOnly number fs' fs'') : ChangesOnly number fs fs'' where
  workingDirectory := second.workingDirectory.trans first.workingDirectory
  nextNumber := second.nextNumber.trans first.nextNumber
  entryAt? location other := by
    have same := first.entryAt? location other
    exact (second.entryAt? location fun content => same ▸ other content).trans same

/-- A write that is not refused puts the bytes at the end of the file, if that is where the handle
writes, and changes nothing else. -/
theorem write_exact {fs fs' : FileSystem} {handle handle' : Handle} {bytes : ByteArray}
    (done : fs.write handle bytes = .ok (fs', handle')) :
    handle'.number = handle.number ∧ ChangesOnly handle.number fs fs' ∧
      ∀ location content, fs.entryAt? location = some (.file handle.number content) →
        (∀ position ∈ handle.offset, position = content.size) →
        fs'.entryAt? location = some (.file handle.number (content ++ bytes)) ∧
          ∀ position ∈ handle'.offset, position = (content ++ bytes).size := by
  by_cases nothing : bytes.size = 0
  · obtain rfl := ByteArray.size_eq_zero_iff.1 nothing
    simp only [write, nothing, if_true, Except.ok.injEq, Prod.mk.injEq] at done
    obtain ⟨rfl, rfl⟩ := done
    refine ⟨rfl, ChangesOnly.refl _ _, ?_⟩
    intro location content there atEnd
    rw [ByteArray.append_empty]
    exact ⟨there, atEnd⟩
  · have entries := entryAt?_write done nothing
    have moved : handle' = { handle with offset := handle.offset.map (· + bytes.size) } ∧
        fs'.workingDirectory = fs.workingDirectory ∧ fs'.nextNumber = fs.nextNumber := by
      simp only [write, if_neg nothing] at done
      by_cases full : fs.full
      · simp [full] at done
      · simp only [full, Bool.false_eq_true, if_false, Except.ok.injEq, Prod.mk.injEq] at done
        obtain ⟨rfl, rfl⟩ := done
        exact ⟨rfl, rfl, rfl⟩
    obtain ⟨rfl, directory, next⟩ := moved
    refine ⟨rfl, ⟨directory, next, ?_⟩, ?_⟩
    · intro location other
      rw [entries]
      cases found : fs.entryAt? location with
      | none => rfl
      | some entry =>
        cases entry with
        | directory => rfl
        | file number content =>
          have different : number ≠ handle.number := by
            rintro rfl
            exact other content found
          simp [filled, different]
    · intro location content there atEnd
      rw [entries, there]
      refine ⟨?_, ?_⟩
      · simp [filled, written_at_end content bytes atEnd]
      · intro position member
        obtain ⟨before, known, rfl⟩ := Option.map_eq_some_iff.1 member
        rw [atEnd before known, ByteArray.size_append]

/-- Down to the depth of what is moved, only the entry moved is at another location. -/
theorem moved_eq_iff {source target place other : Location} (level : target.length = source.length)
    (shallow : other.length ≤ source.length) (different : place ≠ source) :
    other = moved source target place ↔ other = place := by
  rw [moved]
  by_cases inside : within place source
  · rw [if_pos inside]
    obtain ⟨front, rfl⟩ := List.isSuffixOf_iff_suffix.1 inside
    have deeper : 0 < front.length := by
      rw [List.length_pos_iff]
      rintro rfl
      exact different rfl
    constructor
    · intro same
      have lengths := congrArg List.length same
      simp only [List.length_append, List.length_take] at lengths
      omega
    · intro same
      have lengths := congrArg List.length same
      rw [List.length_append] at lengths
      omega
  · rw [if_neg inside]

theorem lookup?_map_moved {source target other : Location} {entries : List (Location × Entry)}
    (level : target.length = source.length) (shallow : other.length ≤ source.length)
    (free : lookup? target entries = none) :
    lookup? other (entries.map fun (location, entry) => (moved source target location, entry)) =
      if other = target then lookup? source entries
      else if other = source then none
      else lookup? other entries := by
  induction entries with
  | nil => simp [lookup?]
  | cons first rest inductionHypothesis =>
    obtain ⟨place, entry⟩ := first
    rw [lookup?] at free
    by_cases taken : target = place
    · rw [if_pos taken] at free
      cases free
    rw [if_neg taken] at free
    have later := inductionHypothesis free
    rw [List.map_cons, lookup?, later, lookup?, lookup?]
    by_cases own : place = source
    · have landed : moved source target source = target := by
        simp [moved, within]
      rw [own, landed, if_pos rfl]
      by_cases there : other = target
      · rw [if_pos there, if_pos there]
      · rw [if_neg there, if_neg there, if_neg there]
        by_cases left : other = source
        · rw [if_pos left, if_pos left]
        · rw [if_neg left, if_neg left, if_neg left]
    · rw [if_neg (Ne.symm own)]
      by_cases found : other = place
      · have notTarget : other ≠ target := fun same => taken (same.symm.trans found)
        have notSource : other ≠ source := fun same => own (found.symm.trans same)
        rw [if_pos ((moved_eq_iff level shallow own).2 found), if_neg notTarget, if_neg notSource,
          if_pos found]
      · rw [if_neg (mt (moved_eq_iff level shallow own).1 found), if_neg found]

/-- After a directory has moved to a free location of the same depth, it is there and no longer where
it was. What lies deeper is left open. -/
theorem entryAt?_moveAll (fs : FileSystem) {source target other : Location}
    (level : target.length = source.length) (shallow : other.length ≤ source.length)
    (below : source ≠ []) (free : fs.entryAt? target = none) :
    (fs.moveAll source target).entryAt? other =
      if other = target then fs.entryAt? source
      else if other = source then none
      else fs.entryAt? other := by
  have notTop : target ≠ [] := by
    rintro rfl
    cases free
  obtain ⟨name, above, rfl⟩ := List.exists_cons_of_ne_nil below
  obtain ⟨name', above', rfl⟩ := List.exists_cons_of_ne_nil notTop
  cases other with
  | nil => simp [entryAt?]
  | cons name'' above'' => exact lookup?_map_moved level shallow free

end FileSystem

namespace BufferedFile

open FileSystem

/-- What a buffered file at a location holds: the bytes on the disk followed by those held back. Its
handle writes at the end. -/
def Holds (fs : FileSystem) (location : Location) (file : BufferedFile) (whole : ByteArray) : Prop :=
  ∃ content, fs.entryAt? location = some (.file file.handle.number content) ∧
    content ++ file.pending = whole ∧ ∀ position ∈ file.handle.offset, position = content.size

/-- With nothing held back the whole is on the disk. -/
theorem Holds.entryAt? {fs : FileSystem} {location : Location} {file : BufferedFile}
    {whole : ByteArray} (holds : file.Holds fs location whole)
    (empty : file.pending = ByteArray.empty) :
    fs.entryAt? location = some (.file file.handle.number whole) := by
  obtain ⟨content, there, joined, -⟩ := holds
  rw [empty, ByteArray.append_empty] at joined
  rw [there, joined]

/-- A flush that succeeds leaves nothing held back and the whole as it was. -/
theorem flush_exact {fs fs' : FileSystem} {file file' : BufferedFile}
    (done : file.flush fs = (fs', file', .ok ())) :
    file'.handle.number = file.handle.number ∧ ChangesOnly file.handle.number fs fs' ∧
      file'.pending = ByteArray.empty ∧
      ∀ location whole, file.Holds fs location whole → file'.Holds fs' location whole := by
  simp only [flush] at done
  split at done
  next written completed =>
    obtain ⟨rfl, rfl, -⟩ := Prod.mk.inj done |>.imp_right Prod.mk.inj
    obtain ⟨number, only, exact⟩ := write_exact completed
    refine ⟨number, only, rfl, ?_⟩
    rintro location whole ⟨content, there, joined, atEnd⟩
    obtain ⟨now, atEnd'⟩ := exact location content there atEnd
    refine ⟨content ++ file.pending, ?_, ?_, atEnd'⟩
    · simpa [ofHandle, number] using now
    · simp [ofHandle, joined]
  next e refused => simp at done

/-- A write that succeeds adds the bytes to the whole, whether they are held back or not. -/
theorem write_exact {fs fs' : FileSystem} {file file' : BufferedFile} {bytes : ByteArray}
    (done : file.write fs bytes = (fs', file', .ok ())) :
    file'.handle.number = file.handle.number ∧ ChangesOnly file.handle.number fs fs' ∧
      ∀ location whole, file.Holds fs location whole →
        file'.Holds fs' location (whole ++ bytes) := by
  unfold write at done
  by_cases fits : file.pending.size + bytes.size ≤ capacity ∧ bytes.size < capacity
  · rw [if_pos fits] at done
    obtain ⟨rfl, rfl, -⟩ := Prod.mk.inj done |>.imp_right Prod.mk.inj
    refine ⟨rfl, ChangesOnly.refl _ _, ?_⟩
    rintro location whole ⟨content, there, rfl, atEnd⟩
    exact ⟨content, there, ByteArray.append_assoc.symm, atEnd⟩
  · rw [if_neg fits] at done
    rcases flushed : file.flush fs with ⟨fs₁, file₁, e | ⟨⟩⟩
    · simp [flushed] at done
    · obtain ⟨number, only, empty, kept⟩ := flush_exact flushed
      simp only [flushed] at done
      by_cases short : bytes.size < capacity
      · rw [if_pos short] at done
        obtain ⟨rfl, rfl, -⟩ := Prod.mk.inj done |>.imp_right Prod.mk.inj
        refine ⟨number, only, ?_⟩
        intro location whole holds
        obtain ⟨content, there, rfl, atEnd⟩ := kept location whole holds
        exact ⟨content, there, ByteArray.append_assoc.symm, atEnd⟩
      · rw [if_neg short] at done
        split at done
        next written completed =>
          obtain ⟨rfl, rfl, -⟩ := Prod.mk.inj done |>.imp_right Prod.mk.inj
          obtain ⟨number', only', exact⟩ := FileSystem.write_exact completed
          refine ⟨number'.trans number, only.trans (number ▸ only'), ?_⟩
          intro location whole holds
          obtain ⟨content, there, rfl, atEnd⟩ := kept location whole holds
          obtain ⟨now, atEnd'⟩ := exact location content there atEnd
          refine ⟨content ++ bytes, ?_, ?_, atEnd'⟩
          · simpa [number'] using now
          · simp [empty]
        next e refused => simp at done

/-- A flush changes no other file, whether it succeeds or not. -/
theorem flush_only (fs : FileSystem) (file : BufferedFile) :
    (file.flush fs).2.1.handle.number = file.handle.number ∧
      ChangesOnly file.handle.number fs (file.flush fs).1 := by
  rcases flushed : file.flush fs with ⟨fs', file', e | ⟨⟩⟩
  · rw [flush] at flushed
    split at flushed
    next written done => cases flushed
    next e' refused =>
      cases flushed
      exact ⟨rfl, .refl _ _⟩
  · obtain ⟨number, only, -⟩ := flush_exact flushed
    exact ⟨number, only⟩

/-- Writing changes no other file, whether it succeeds or not. -/
theorem write_only (fs : FileSystem) (file : BufferedFile) (bytes : ByteArray) :
    (file.write fs bytes).2.1.handle.number = file.handle.number ∧
      ChangesOnly file.handle.number fs (file.write fs bytes).1 := by
  rcases wrote : file.write fs bytes with ⟨fs', file', e | ⟨⟩⟩
  · have flushed := flush_only fs file
    unfold write at wrote
    by_cases fits : file.pending.size + bytes.size ≤ capacity ∧ bytes.size < capacity
    · rw [if_pos fits] at wrote
      cases wrote
    rw [if_neg fits] at wrote
    rcases outcome : file.flush fs with ⟨fs₁, file₁, e' | ⟨⟩⟩
    · rw [outcome] at wrote flushed
      cases wrote
      exact flushed
    · rw [outcome] at wrote flushed
      dsimp only at wrote
      by_cases short : bytes.size < capacity
      · rw [if_pos short] at wrote
        cases wrote
      rw [if_neg short] at wrote
      split at wrote
      next written done => cases wrote
      next e' refused =>
        cases wrote
        exact flushed
  · obtain ⟨number, only, -⟩ := write_exact wrote
    exact ⟨number, only⟩

end BufferedFile

end KeyValueService
