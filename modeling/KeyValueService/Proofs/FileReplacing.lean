import KeyValueService.Proofs.SoundFiles

/-!
# Replacing a file

The three operations with which a file is replaced by a draft: opening the draft, writing it, and
moving it over the file. Each one that is not refused leaves a sound file system with all
its directories, and changes nothing but where the draft, or the file, is.
-/

namespace KeyValueService

namespace FileSystem

open KeyValueService.Path

section Replacing

variable {fs fs' : FileSystem} (sound : fs.Sound)

include sound

/-- A file that is opened to be written anew is empty, and nothing else changes. -/
theorem openEmptied_exact {p : Path} {handle : Handle} (done : fs.openEmptied p = .ok (fs', handle)) :
    ∃ target, fs.resolve p = .ok target ∧ target.entry ≠ some .directory ∧
      handle.offset = some 0 ∧ fs'.Sound ∧ KeepsDirectories fs fs' ∧
      fs'.entryAt? target.location = some (.file handle.number ByteArray.empty) ∧
      ∀ other, other ≠ target.location → fs'.entryAt? other = fs.entryAt? other := by
  unfold openEmptied at done
  split at done
  next e refused => cases done
  next location slash isNamed resolved => cases done
  next location entry isNamed notDirectory resolved => cases done
  next location number content isNamed resolved =>
    cases done
    have there : fs.entryAt? location = some (.file number content) :=
      (entry_of_resolve resolved).symm
    rcases sound.resolve_cases resolved with ⟨-, directory⟩ | ⟨-, -, between, rfl, directory⟩
    · cases directory
    have below := List.cons_ne_nil (String.ofList (splitLast p.text.toList).2) between
    have free : fs.entryAt? (String.ofList (splitLast p.text.toList).2 :: between) ≠
        some .directory := by
      rw [there]
      simp
    refine ⟨_, resolved, by simp, rfl, ?_, fs.keepsDirectories_set below _ free, ?_, ?_⟩
    · refine sound.set directory free ?_
      intro number' content' same
      cases same
      refine ⟨sound.fresh _ _ content there, ?_⟩
      intro other content' there'
      exact sound.distinct _ _ _ _ _ there' there
    · rw [entryAt?_set fs below, if_pos rfl]
    · intro other different
      rw [entryAt?_set fs below, if_neg different]
  next location isNamed resolved =>
    cases done
    have nothing : fs.entryAt? location = none := (entry_of_resolve resolved).symm
    rcases sound.resolve_cases resolved with ⟨-, directory⟩ | ⟨-, -, between, rfl, directory⟩
    · cases directory
    have below := List.cons_ne_nil (String.ofList (splitLast p.text.toList).2) between
    have free : fs.entryAt? (String.ofList (splitLast p.text.toList).2 :: between) ≠
        some .directory := by
      rw [nothing]
      simp
    refine ⟨_, resolved, by simp, rfl, sound.addFile directory free,
      fs.keepsDirectories_addFile below free, ?_, ?_⟩
    · rw [entryAt?_addFile fs below, if_pos rfl]
    · intro other different
      rw [entryAt?_addFile fs below, if_neg different]

/-- What is written at the end of a file is added to it, and nothing else changes. -/
theorem write_beside {handle handle' : Handle} {bytes content : ByteArray} {location : Location}
    (there : fs.entryAt? location = some (.file handle.number content))
    (atEnd : ∀ position ∈ handle.offset, position = content.size)
    (done : fs.write handle bytes = .ok (fs', handle')) :
    handle'.number = handle.number ∧ fs'.Sound ∧ KeepsDirectories fs fs' ∧
      fs'.entryAt? location = some (.file handle.number (content ++ bytes)) ∧
      (∀ position ∈ handle'.offset, position = (content ++ bytes).size) ∧
      ∀ other, other ≠ location → fs'.entryAt? other = fs.entryAt? other := by
  obtain ⟨number, only, exact⟩ := write_exact done
  obtain ⟨now, atEnd'⟩ := exact location content there atEnd
  refine ⟨number, sound.write done, only.keepsDirectories, now, atEnd', ?_⟩
  intro other different
  refine only.entryAt? other ?_
  intro content' there'
  exact different (sound.distinct other location _ content' content there' there)

/-- A file that is moved over another path is read there. -/
theorem rename_exact {p q : Path} {location : Location} {number : Nat} {content : ByteArray}
    (source : fs.resolve p = .ok ⟨location, some (.file number content), false, true⟩)
    (apart : q.HasName → ∀ above,
      String.ofList (splitLast q.text.toList).2 :: above ≠ location)
    (done : fs.rename p q = .ok fs') : fs'.Sound ∧ fs'.readBytes q = .ok content := by
  have file : fs.entryAt? location = some (.file number content) := (entry_of_resolve source).symm
  have below : location ≠ [] := by
    rintro rfl
    cases file
  rw [rename, source] at done
  rcases resolved : fs.resolve q with e | ⟨location', entry, slash, isNamed⟩
  · rw [resolved] at done
    cases done
  rw [resolved] at done
  dsimp only at done
  rcases sound.resolve_cases resolved with ⟨unnamed, -⟩ | ⟨isTrue, named, above, own, directory⟩
  · dsimp only at unnamed
    subst unnamed
    simp at done
  dsimp only at isTrue own
  subst isTrue own
  have different := apart named above
  have slashFree : slash = false := by
    cases slash
    · rfl
    · simp at done
  subst slashFree
  simp only [Bool.not_true, Bool.or_self, Bool.false_eq_true, if_false] at done
  have there := entry_of_resolve resolved
  dsimp only at there
  have free : fs.entryAt? (String.ofList (splitLast q.text.toList).2 :: above) ≠
      some .directory := by
    rw [← there]
    rintro rfl
    simp [renameFile] at done
  have moved : fs' = (fs.unset location).set (String.ofList (splitLast q.text.toList).2 :: above)
      (.file number content) := by
    rw [there] at done
    rcases found : fs.entryAt? (String.ofList (splitLast q.text.toList).2 :: above) with
      _ | ⟨⟩ | ⟨number', content'⟩
    · simp only [found, renameFile, if_neg different.symm] at done
      exact (Except.ok.inj done).symm
    · exact absurd found free
    · simp only [found, renameFile, if_neg different.symm] at done
      exact (Except.ok.inj done).symm
  subst moved
  have soundUnset := sound.unset file
  have keeps := fs.keepsDirectories_unset below (by simp [file])
  have below' := List.cons_ne_nil (String.ofList (splitLast q.text.toList).2) above
  have freeUnset : (fs.unset location).entryAt?
      (String.ofList (splitLast q.text.toList).2 :: above) ≠ some .directory := by
    rw [entryAt?_unset fs below, if_neg different]
    exact free
  constructor
  · refine soundUnset.set (keeps.entryAt? above directory) freeUnset ?_
    intro number' content' same
    cases same
    refine ⟨sound.fresh location number content file, ?_⟩
    intro other content' there'
    rw [entryAt?_unset fs below] at there'
    by_cases same : other = location
    · rw [if_pos same] at there'
      cases there'
    · rw [if_neg same] at there'
      exact absurd (sound.distinct other location number content' content there' file) same
  · have keeps' := (fs.unset location).keepsDirectories_set below' (.file number content) freeUnset
    rw [readBytes, find, resolve_of_keepsDirectories (keeps.trans keeps') resolved]
    dsimp only
    rw [entryAt?_set _ below', if_pos rfl]

end Replacing

end FileSystem

end KeyValueService
