import KeyValueService.Proofs.ImageCodec
import KeyValueService.Proofs.SettledPaths
import KeyValueService.Store.Basic

/-!
# Where a draft is written

The draft of a file has the extension of drafts in place of the file's own, so that it lies beside
the file unless that is named like a draft itself. Whatever happens to the draft, the path of
the file leads to the same as before. A file that is named like a draft is its own draft
(`draftPath_eq_self`).
-/

namespace KeyValueService

namespace Path

open Text

/-- The extension of the last name of a path. -/
def extension (p : Path) : List Char :=
  (splitExtension (splitLast p.text.toList).2).2

/-- A name is split where the extension was put behind it. -/
theorem splitExtension_append {stem extension : List Char} (nonempty : stem ≠ [])
    (noDot : '.' ∉ extension) : splitExtension (stem ++ '.' :: extension) = (stem, extension) := by
  have uncut : ∀ c ∈ extension.reverse, (c == '.') = false := by
    intro c member
    rw [beq_eq_false_iff_ne]
    rintro rfl
    exact noDot (List.mem_reverse.1 member)
  have isDot : ('.' == '.') = true := rfl
  have backwards : (stem ++ '.' :: extension).reverse = extension.reverse ++ '.' :: stem.reverse := by
    simp
  rw [splitExtension, cutLast?, backwards, cut?_append uncut isDot]
  cases stem with
  | nil => exact absurd rfl nonempty
  | cons c rest => simp

/-- What stays of a name without its extension is not empty, and part of the name. -/
theorem splitExtension_fst {name : List Char} (nonempty : name ≠ []) :
    (splitExtension name).1 ≠ [] ∧ (splitExtension name).1 <+: name := by
  rw [splitExtension]
  split
  next c before after cut =>
    refine ⟨by simp, ?_⟩
    rw [cutLast?] at cut
    obtain ⟨⟨last, first⟩, found, same⟩ := Option.map_eq_some_iff.1 cut
    obtain ⟨backwards, -⟩ := Prod.mk.inj same
    rw [cut?] at found
    split at found
    next => cases found
    next stop behind dropped =>
      obtain ⟨-, rfl⟩ := Prod.mk.inj (Option.some.inj found)
      have tail : behind <:+ name.reverse :=
        ((List.suffix_cons stop behind).trans (dropped ▸ List.dropWhile_suffix _))
      have front := List.reverse_prefix.2 tail
      rwa [List.reverse_reverse, backwards] at front
  next => exact ⟨nonempty, List.prefix_rfl⟩

/-- A name at the end of a text, which is given backwards, is no trail to be dropped. -/
theorem dropTrail_of_name {name : List Char} (noSlash : '/' ∉ name) (nonempty : name ≠ [])
    (notDot : name ≠ ['.']) (rest : List Char) :
    dropTrail (name.reverse ++ rest) = name.reverse ++ rest := by
  have free : '/' ∉ name.reverse := mt List.mem_reverse.1 noSlash
  have kept : ∃ c more, name.reverse = c :: more ∧ (c = '.' → more ≠ []) := by
    cases backwards : name.reverse with
    | nil => exact absurd (List.reverse_eq_nil_iff.1 backwards) nonempty
    | cons c more =>
      refine ⟨c, more, rfl, ?_⟩
      rintro rfl rfl
      exact notDot (by rw [← List.reverse_reverse name, backwards, List.reverse_singleton])
  obtain ⟨c, more, backwards, long⟩ := kept
  rw [backwards] at free ⊢
  rw [List.cons_append, dropTrail.eq_3]
  · rintro tail same
    exact free ((List.cons.inj same).1 ▸ List.mem_cons_self)
  · rintro tail same
    obtain ⟨dot, slash⟩ := List.cons.inj same
    cases more with
    | nil => exact long dot rfl
    | cons d others =>
      obtain rfl := (List.cons.inj slash).1
      exact free (List.mem_cons_of_mem c List.mem_cons_self)

/-- The last name of a text is what stands behind its last slash. -/
theorem takeWhile_of_name {folder name : List Char} (ends : folder = [] ∨ folder.getLast? = some '/')
    (noSlash : '/' ∉ name) :
    (name.reverse ++ folder.reverse).takeWhile (· ≠ '/') = name.reverse := by
  have own : ∀ c ∈ name.reverse, decide (c ≠ '/') = true := by
    intro c member
    rw [decide_eq_true_eq]
    rintro rfl
    exact noSlash (List.mem_reverse.1 member)
  rw [List.takeWhile_append_of_pos own]
  rcases ends with rfl | slash
  · simp
  · rw [← List.head?_reverse] at slash
    cases backwards : folder.reverse with
    | nil => simp
    | cons c rest =>
      rw [backwards] at slash
      obtain rfl := Option.some.inj slash
      simp

/-- A path with another extension ends in that, unless its own text was left with no name to put it
behind. -/
theorem withExtension_cases (p : Path) {extension : String} (noDot : '.' ∉ extension.toList)
    (noSlash : '/' ∉ extension.toList) (notEmpty : extension.toList ≠ []) :
    ¬ (p.withExtension extension).HasName ∨
      ∃ folder name, (p.withExtension extension).Splits folder name ∧
        (splitExtension name).2 = extension.toList := by
  rw [withExtension]
  dsimp only
  generalize p.text.toList.take (p.text.toList.length -
    (splitExtension (splitLast p.text.toList).2).2.length) = bare
  have last : (splitLast bare).2 = ((dropTrail bare.reverse).takeWhile (· ≠ '/')).reverse := rfl
  rw [← last]
  by_cases unnamed : (splitLast bare).2 = [] ∨ (splitLast bare).2 = ['.'] ∨
      (splitLast bare).2 = ['.', '.']
  · left
    rw [if_pos unnamed]
    rintro ⟨nonempty, named⟩
    rw [String.toList_ofList] at nonempty named
    rcases unnamed with nothing | dot | dots
    · exact nonempty nothing
    · rw [dot] at named
      exact absurd named (by decide)
    · rw [dots] at named
      exact absurd named (by decide)
  · right
    rw [if_neg unnamed]
    obtain ⟨nonempty, part⟩ := splitExtension_fst fun nothing => unnamed (.inl nothing)
    have slashFree : '/' ∉ (splitExtension (splitLast bare).2).1 :=
      fun member => slash_not_mem_splitLast bare (part.subset member)
    have stemLength := List.length_pos_iff.2 nonempty
    have extensionLength := List.length_pos_iff.2 notEmpty
    refine ⟨((dropTrail bare.reverse).drop (splitLast bare).2.length).reverse,
      (splitExtension (splitLast bare).2).1 ++ '.' :: extension.toList, ?_, ?_⟩
    · constructor
      case text => simp
      case folder =>
        rw [last, List.length_reverse, drop_length_takeWhile]
        cases found : (dropTrail bare.reverse).dropWhile (· ≠ '/') with
        | nil => exact .inl rfl
        | cons c rest =>
          have stops := List.head?_dropWhile_not (· ≠ '/') (dropTrail bare.reverse)
          rw [found] at stops
          right
          rw [List.getLast?_reverse]
          simpa using stops
      case noSlash =>
        intro member
        rcases List.mem_append.1 member with inStem | behind
        · exact slashFree inStem
        · rcases List.mem_cons.1 behind with dot | inExtension
          · exact absurd dot (by decide)
          · exact noSlash inExtension
      case notEmpty => simp
      case notDot =>
        intro same
        have length := congrArg List.length same
        simp only [List.length_append, List.length_cons, List.length_nil] at length
        omega
      case notDots =>
        intro same
        have length := congrArg List.length same
        simp only [List.length_append, List.length_cons, List.length_nil] at length
        omega
    · rw [splitExtension_append nonempty noDot]

end Path

namespace Store

open FileSystem KeyValueService.Path

/-- The extension of drafts. -/
abbrev draftExtension : List Char :=
  "tmp".toList

/-- A file with a name before the extension of drafts is its own draft. -/
theorem draftPath_eq_self {path : Path} {folder stem : List Char}
    (splits : path.Splits folder (stem ++ '.' :: draftExtension)) (nonempty : stem ≠ [])
    (notDot : stem ≠ ['.']) : draftPath path = path := by
  have noSlash : '/' ∉ stem := fun member => splits.noSlash (List.mem_append_left _ member)
  have backwards (name : List Char) : (folder ++ name).reverse = name.reverse ++ folder.reverse :=
    List.reverse_append
  have last : (splitLast path.text.toList).2 = stem ++ '.' :: draftExtension := by
    rw [splitLast, splits.text, backwards,
      dropTrail_of_name splits.noSlash splits.notEmpty splits.notDot,
      takeWhile_of_name splits.folder splits.noSlash, List.reverse_reverse]
  have bare : path.text.toList.take (path.text.toList.length - draftExtension.length) =
      folder ++ (stem ++ ['.']) := by
    have whole : path.text.toList = (folder ++ (stem ++ ['.'])) ++ draftExtension := by
      rw [splits.text]
      simp
    rw [whole, List.length_append, Nat.add_sub_cancel, List.take_left]
  have dotted : '/' ∉ stem ++ ['.'] := by simpa using noSlash
  have named : stem ++ ['.'] ≠ ['.'] := by simpa using nonempty
  have notDots : stem ++ ['.'] ≠ ['.', '.'] := by
    intro same
    have both : stem ++ ['.'] = ['.'] ++ ['.'] := same
    exact notDot (List.append_cancel_right both)
  rw [draftPath, withExtension, last, splitExtension_append nonempty (by decide)]
  dsimp only
  rw [bare, backwards, dropTrail_of_name dotted (by simp) named, takeWhile_of_name splits.folder dotted,
    List.reverse_reverse, if_neg (by simp [nonempty, notDots])]
  have kept : ((stem ++ ['.']).reverse ++ folder.reverse).drop (stem ++ ['.']).length = folder.reverse := by
    rw [← List.length_reverse, List.drop_left]
  rw [kept, List.reverse_reverse, splitExtension_append nonempty (by simp)]
  have text : String.ofList (folder ++ stem) ++ "." ++ "tmp" = path.text := by
    rw [← String.toList_inj, splits.text]
    simp [draftExtension]
  dsimp only
  rw [text]

/-- If no directory is where the draft of a file is to be, the draft is an entry of a directory, and
its name has the extension of drafts. -/
theorem draft_cases {fs : FileSystem} (sound : fs.Sound) {path : Path} {target : Target}
    (resolved : fs.resolve (draftPath path) = .ok target)
    (notDirectory : target.entry ≠ some .directory) :
    ∃ name above, (splitExtension name).2 = draftExtension ∧
      fs.entryAt? above = some .directory ∧
      target =
        ⟨String.ofList name :: above, fs.entryAt? (String.ofList name :: above), false, true⟩ := by
  have cases := @withExtension_cases path "tmp" (by decide) (by decide) (by decide)
  rcases cases with unnamed | ⟨folder, name, splits, tail⟩
  · exfalso
    rcases sound.resolve_cases resolved with ⟨-, directory⟩ | ⟨-, named, -⟩
    · exact notDirectory directory
    · exact unnamed named
  · obtain ⟨above, leads, fits⟩ := leads_of_resolve splits resolved
    have own := resolve_of_leads splits leads fits
    rw [draftPath] at resolved
    rw [resolved, Except.ok.injEq] at own
    exact ⟨name, above, tail, leads.entryAt?, own⟩

/-- The path of a file leads to the same, whatever changes where its draft is. -/
theorem resolve_beside_draft {fs fs' : FileSystem} (sound : fs.Sound) {path : Path}
    (settled : fs.Settled path) (apart : path.extension ≠ draftExtension)
    (keeps : KeepsDirectories fs fs') {name : List Char} {above : Location}
    (tail : (splitExtension name).2 = draftExtension)
    (elsewhere : ∀ other, other ≠ String.ofList name :: above →
      fs'.entryAt? other = fs.entryAt? other) : fs'.resolve path = fs.resolve path := by
  refine resolve_of_settled sound keeps settled ?_
  intro location
  refine elsewhere _ ?_
  intro same
  have lastName := String.ofList_inj.1 (List.cons.inj same).1
  rw [extension, lastName, tail] at apart
  exact apart rfl

end Store

end KeyValueService
