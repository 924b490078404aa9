import KeyValueService.Proofs.DirectoryMaking
import Mathlib.Data.List.TakeWhile

/-!
# The directories around a path

How the text of a path is taken apart, in terms of the names in it: everything up to the last
name, single dots, the last name, and single dots again. The directory that a path lies in
therefore has the first names of the path, and so has every directory around that. A path
that leads somewhere has directories all around it.
-/

namespace KeyValueService

namespace Path

open Text

theorem parts_append_slash (before after : List Char) :
    parts (before ++ '/' :: after) = parts before ++ parts after := by
  rw [parts, pieces_append, List.filter_append, List.map_append]
  rfl

theorem parts_nil : parts [] = [] := rfl

theorem parts_of_name {name : List Char} (noSlash : '/' ∉ name) (notEmpty : name ≠ []) :
    parts name = [String.ofList name] := by
  rw [parts, pieces_of_not_mem '/' noSlash]
  simp [notEmpty]

/-- Single dots, which name no entry. -/
abbrev dots (count : Nat) : List String :=
  List.replicate count "."

theorem dropTrail_suffix (backwards : List Char) : dropTrail backwards <:+ backwards := by
  fun_induction dropTrail backwards with
  | case1 rest inductionHypothesis => exact inductionHypothesis.trans (List.suffix_cons _ _)
  | case2 rest inductionHypothesis =>
    exact inductionHypothesis.trans ((List.suffix_cons _ _).trans (List.suffix_cons _ _))
  | case3 backwards => exact List.suffix_rfl

/-- What is dropped from the end of a text are slashes and single dots. -/
theorem parts_dropTrail (backwards : List Char) :
    ∃ count, parts backwards.reverse = parts (dropTrail backwards).reverse ++ dots count := by
  fun_induction dropTrail backwards with
  | case1 rest inductionHypothesis =>
    obtain ⟨count, same⟩ := inductionHypothesis
    refine ⟨count, ?_⟩
    rw [List.reverse_cons, parts_append_slash, parts_nil, List.append_nil, same]
  | case2 rest inductionHypothesis =>
    obtain ⟨count, same⟩ := inductionHypothesis
    refine ⟨count + 1, ?_⟩
    have dot : parts ['.'] = ["."] := parts_of_name (by decide) (by decide)
    rw [List.reverse_cons, List.reverse_cons, List.append_assoc, List.singleton_append,
      parts_append_slash, dot, same, List.append_assoc, ← List.replicate_succ']
  | case3 backwards =>
    refine ⟨0, ?_⟩
    simp

/-- After the drop the text does not end in a slash. -/
theorem head?_dropTrail (backwards : List Char) : (dropTrail backwards).head? ≠ some '/' := by
  fun_induction dropTrail backwards with
  | case1 rest inductionHypothesis => exact inductionHypothesis
  | case2 rest inductionHypothesis => exact inductionHypothesis
  | case3 backwards noSlash noDot =>
    cases backwards with
    | nil => simp
    | cons c rest =>
      intro slash
      obtain rfl : c = '/' := by simpa using slash
      exact noSlash rest rfl

/-- Nothing is left only of a text that begins with a slash. -/
theorem getLast?_of_dropTrail {backwards : List Char} (nothing : dropTrail backwards = []) :
    backwards = [] ∨ backwards.getLast? = some '/' := by
  fun_induction dropTrail backwards with
  | case1 rest inductionHypothesis =>
    rcases inductionHypothesis nothing with rfl | slash
    · exact .inr rfl
    · exact .inr (by simp [List.getLast?_cons, slash])
  | case2 rest inductionHypothesis =>
    rcases inductionHypothesis nothing with rfl | slash
    · exact .inr rfl
    · exact .inr (by simp [List.getLast?_cons, slash])
  | case3 backwards => exact .inl nothing

theorem slash_not_mem_splitLast (s : List Char) : '/' ∉ (splitLast s).2 := by
  rw [splitLast, List.mem_reverse]
  intro member
  simpa using List.mem_takeWhile_imp member

theorem splitLast_prefix (s : List Char) : (splitLast s).1 <+: s := by
  have dropped : dropTrail ((dropTrail s.reverse).drop
      ((dropTrail s.reverse).takeWhile (· ≠ '/')).length) <:+ s.reverse :=
    (dropTrail_suffix _).trans ((List.drop_suffix _ _).trans (dropTrail_suffix _))
  have whole := List.reverse_prefix.2 dropped
  rwa [List.reverse_reverse] at whole

/-- A slash at the beginning of a text stays there unless nothing but a dot is left behind it. -/
theorem dropTrail_append_slash (backwards : List Char) :
    dropTrail (backwards ++ ['/']) =
      if dropTrail backwards = [] ∨ dropTrail backwards = ['.'] then []
      else dropTrail backwards ++ ['/'] := by
  fun_induction dropTrail backwards with
  | case1 rest inductionHypothesis => exact inductionHypothesis
  | case2 rest inductionHypothesis => exact inductionHypothesis
  | case3 backwards noSlash noDot =>
    rcases backwards with _ | ⟨c, _ | ⟨d, rest⟩⟩
    · rfl
    · have notSlash : c ≠ '/' := by
        rintro rfl
        exact noSlash [] rfl
      by_cases dot : c = '.'
      · subst dot
        rfl
      · rw [if_neg (by simp [dot])]
        exact dropTrail.eq_3 _ (by simp [notSlash]) (by simp [dot])
    · have notSlash : c ≠ '/' := by
        rintro rfl
        exact noSlash _ rfl
      have notDot : ¬ (c = '.' ∧ d = '/') := by
        rintro ⟨rfl, rfl⟩
        exact noDot _ rfl
      rw [if_neg (by simp)]
      refine dropTrail.eq_3 _ (by simp [notSlash]) ?_
      simpa using fun dot slash => absurd ⟨dot, slash⟩ notDot

/-- The last name does not depend on a slash at the beginning, unless it is a single dot. -/
theorem splitLast_slash {rest : List Char} (named : (splitLast rest).2 ≠ [])
    (notDot : (splitLast rest).2 ≠ ['.']) : (splitLast ('/' :: rest)).2 = (splitLast rest).2 := by
  rw [splitLast] at named notDot
  dsimp only at named notDot
  have kept : ¬ (dropTrail rest.reverse = [] ∨ dropTrail rest.reverse = ['.']) := by
    rintro (nothing | dot)
    · rw [nothing] at named
      exact named rfl
    · rw [dot] at notDot
      exact notDot rfl
  rw [splitLast, splitLast, List.reverse_cons, dropTrail_append_slash, if_neg kept]
  dsimp only
  rw [List.takeWhile_append]
  by_cases whole : ((dropTrail rest.reverse).takeWhile (· ≠ '/')).length =
      (dropTrail rest.reverse).length
  · rw [if_pos whole]
    have all := (List.takeWhile_prefix (· ≠ '/')).eq_of_length whole
    rw [all]
    simp
  · rw [if_neg whole]

/-- What follows the last name, backwards. -/
theorem drop_length_takeWhile (keeps : Char → Bool) (s : List Char) :
    s.drop (s.takeWhile keeps).length = s.dropWhile keeps := by
  induction s with
  | nil => rfl
  | cons c rest inductionHypothesis =>
    by_cases kept : keeps c = true
    · simpa [kept] using inductionHypothesis
    · simp [kept]

/-- The names of a text: those up to the last name, single dots, the last name, and single dots. -/
theorem parts_splitLast (s : List Char) :
    ∃ between behind, parts s =
      parts (splitLast s).1 ++ dots between ++ parts (splitLast s).2 ++ dots behind := by
  obtain ⟨behind, trail⟩ := parts_dropTrail s.reverse
  rw [List.reverse_reverse] at trail
  rw [splitLast]
  dsimp only
  rw [drop_length_takeWhile, trail]
  have whole : (dropTrail s.reverse).reverse =
      ((dropTrail s.reverse).dropWhile (· ≠ '/')).reverse ++
        ((dropTrail s.reverse).takeWhile (· ≠ '/')).reverse := by
    rw [← List.reverse_append, List.takeWhile_append_dropWhile]
  rw [whole]
  cases found : (dropTrail s.reverse).dropWhile (· ≠ '/') with
  | nil =>
    refine ⟨0, behind, ?_⟩
    simp [dropTrail, parts_nil]
  | cons c rest =>
    have stops := List.head?_dropWhile_not (· ≠ '/') (dropTrail s.reverse)
    rw [found] at stops
    obtain rfl : c = '/' := by simpa using stops
    obtain ⟨between, above⟩ := parts_dropTrail rest
    refine ⟨between, behind, ?_⟩
    rw [List.reverse_cons, List.append_assoc, List.singleton_append, parts_append_slash, above,
      dropTrail]

/-- There is a last name unless the text begins with a slash, or is empty. -/
theorem splitLast_eq_nil {s : List Char} (nothing : (splitLast s).2 = []) :
    (s = [] ∨ s.head? = some '/') ∧ (splitLast s).1 = [] := by
  have noName : (dropTrail s.reverse).takeWhile (· ≠ '/') = [] := by
    rw [splitLast] at nothing
    exact List.reverse_eq_nil_iff.1 nothing
  have empty : dropTrail s.reverse = [] := by
    cases found : dropTrail s.reverse with
    | nil => rfl
    | cons c rest =>
      have noSlash := head?_dropTrail s.reverse
      rw [found] at noName noSlash
      have notSlash : c ≠ '/' := by simpa using noSlash
      simp [notSlash] at noName
  constructor
  · rcases getLast?_of_dropTrail empty with nil | slash
    · exact .inl (List.reverse_eq_nil_iff.1 nil)
    · rw [List.getLast?_reverse] at slash
      exact .inr slash
  · rw [splitLast, empty]
    rfl

/-- A path around another: its text is where the other begins, and so are its names, of which the
other has more. -/
structure Around (a p : Path) : Prop where
  named : a.text ≠ ""
  text : a.text.toList <+: p.text.toList
  more : ∃ more, more ≠ [] ∧ parts p.text.toList = parts a.text.toList ++ more

theorem Around.outer_named {a p : Path} (around : a.Around p) : p.text ≠ "" := by
  intro empty
  have nothing := around.text
  rw [empty] at nothing
  exact around.named (String.toList_eq_nil_iff.1 (List.prefix_nil.1 nothing))

theorem Around.trans {a b p : Path} (inner : a.Around b) (outer : b.Around p) : a.Around p where
  named := inner.named
  text := inner.text.trans outer.text
  more := by
    obtain ⟨more, nonempty, joined⟩ := inner.more
    obtain ⟨more', -, joined'⟩ := outer.more
    refine ⟨more ++ more', by simp [nonempty], ?_⟩
    rw [joined', joined, List.append_assoc]

/-- The text of the directory that a path lies in; a slash at the beginning is kept apart. -/
theorem parent_text {p a : Path} (parent : p.parent? = some a) :
    (∃ rest, p.text.toList = '/' :: rest ∧ (splitLast rest).2 ≠ [] ∧
        a.text.toList = '/' :: (splitLast rest).1) ∨
      p.text.toList ≠ [] ∧ p.text.toList.head? ≠ some '/' ∧
        a.text.toList = (splitLast p.text.toList).1 := by
  rw [parent?] at parent
  split at parent
  next empty => cases parent
  next rest slash =>
    left
    refine ⟨rest, slash, ?_⟩
    rcases found : splitLast rest with ⟨above, name⟩
    simp only [found] at parent
    cases name with
    | nil => cases parent
    | cons c name =>
      cases parent
      exact ⟨by simp, by simp⟩
  next empty noSlash =>
    right
    cases parent
    refine ⟨empty, ?_, by simp⟩
    intro head
    obtain ⟨rest, slash⟩ := List.head?_eq_some_iff.1 head
    exact noSlash rest slash

theorem parts_slash (rest : List Char) : parts ('/' :: rest) = parts rest := by
  have split := parts_append_slash [] rest
  rwa [parts_nil, List.nil_append, List.nil_append] at split

/-- Behind the directory that a path lies in come single dots, a name, and single dots. The name is
the last one of the path, or a dot as well. -/
theorem parts_parent {p a : Path} (parent : p.parent? = some a) :
    ∃ between name behind, (name = ['.'] ∨ name = (splitLast p.text.toList).2) ∧
      parts p.text.toList =
        parts a.text.toList ++ dots between ++ [String.ofList name] ++ dots behind := by
  rcases parent_text parent with ⟨rest, slash, named, text⟩ | ⟨nonempty, noSlash, text⟩
  · obtain ⟨between, behind, split⟩ := parts_splitLast rest
    refine ⟨between, (splitLast rest).2, behind, ?_, ?_⟩
    · by_cases dot : (splitLast rest).2 = ['.']
      · exact .inl dot
      · rw [slash, splitLast_slash named dot]
        exact .inr rfl
    · rw [slash, text, parts_slash, parts_slash, split,
        parts_of_name (slash_not_mem_splitLast rest) named]
  · obtain ⟨between, behind, split⟩ := parts_splitLast p.text.toList
    have named : (splitLast p.text.toList).2 ≠ [] := by
      intro nothing
      rcases (splitLast_eq_nil nothing).1 with empty | slash
      · exact nonempty empty
      · exact noSlash slash
    refine ⟨between, (splitLast p.text.toList).2, behind, .inr rfl, ?_⟩
    rw [text, split, parts_of_name (slash_not_mem_splitLast _) named]

/-- A path that lies in no directory has no names but single dots, and begins at the top. -/
theorem parts_of_no_parent {p : Path} (none : p.parent? = none) :
    p.text.toList = [] ∨
      p.text.toList.head? = some '/' ∧ ∃ count, parts p.text.toList = dots count := by
  rw [parent?] at none
  split at none
  next empty => exact .inl empty
  next rest slash =>
    right
    rw [slash]
    refine ⟨rfl, ?_⟩
    have nothing : (splitLast rest).2 = [] := by
      rcases found : splitLast rest with ⟨above, name⟩
      simp only [found] at none
      cases name with
      | nil => rfl
      | cons c name => cases none
    obtain ⟨between, behind, split⟩ := parts_splitLast rest
    refine ⟨between + behind, ?_⟩
    rw [parts_slash, split, nothing, (splitLast_eq_nil nothing).2]
    simp [parts_nil]
  next empty noSlash => cases none

/-- The directory that a path lies in is around it. -/
theorem around_of_parent {p a : Path} (parent : p.parent? = some a) (named : a.text ≠ "") :
    a.Around p where
  named := named
  text := by
    rcases parent_text parent with ⟨rest, slash, -, text⟩ | ⟨-, -, text⟩
    · rw [slash, text, List.prefix_cons_inj]
      exact splitLast_prefix rest
    · rw [text]
      exact splitLast_prefix p.text.toList
  more := by
    obtain ⟨between, name, behind, -, split⟩ := parts_parent parent
    refine ⟨dots between ++ [String.ofList name] ++ dots behind, by simp, ?_⟩
    rw [split]
    simp

theorem around_of_ancestorsFrom {fuel : Nat} {p a : Path} (among : a ∈ ancestorsFrom fuel p)
    (named : a.text ≠ "") : a = p ∨ a.Around p := by
  induction fuel generalizing p with
  | zero => cases among
  | succ fuel inductionHypothesis =>
    rw [ancestorsFrom] at among
    rcases List.mem_cons.1 among with rfl | above
    · exact .inl rfl
    · right
      cases parent : p.parent? with
      | none => simp [parent] at above
      | some b =>
        simp only [parent, Option.map_some, Option.getD_some] at above
        rcases inductionHypothesis above with rfl | inner
        · exact around_of_parent parent named
        · exact inner.trans (around_of_parent parent inner.outer_named)

/-- All directories that a path lies in are around it. -/
theorem around_of_mem_ancestors {p above directory : Path} (lies : p.parent? = some above)
    (among : directory ∈ above.ancestors) (named : directory.text ≠ "") : directory.Around p := by
  rcases around_of_ancestorsFrom among named with rfl | around
  · exact around_of_parent lies named
  · exact around.trans (around_of_parent lies around.outer_named)

end Path

namespace FileSystem

open KeyValueService.Path

/-- What is followed first leads to a directory, if more is followed from there. -/
theorem entryAt?_of_walk_append {fs : FileSystem} {location reached : Location}
    {names more : List String} (walked : fs.walk location (names ++ more) = .ok reached)
    (nonempty : more ≠ []) :
    ∃ between, fs.walk location names = .ok between ∧ fs.walk between more = .ok reached ∧
      fs.entryAt? between = some .directory := by
  rw [walk_append] at walked
  cases first : fs.walk location names with
  | error e => simp [first] at walked
  | ok between =>
    rw [first] at walked
    dsimp only at walked
    refine ⟨between, rfl, walked, ?_⟩
    cases more with
    | nil => exact absurd rfl nonempty
    | cons name rest =>
      rw [walk_cons] at walked
      rcases there : fs.entryAt? between with _ | ⟨⟩ | ⟨number, content⟩
      · simp [there] at walked
      · rfl
      · simp [there] at walked

/-- The longer a text, the more bytes. -/
theorem utf8ByteSize_of_prefix {s t : String} (starts : s.toList <+: t.toList) :
    s.utf8ByteSize ≤ t.utf8ByteSize := by
  obtain ⟨rest, whole⟩ := starts
  have joined : t = s ++ String.ofList rest := by
    apply String.toList_inj.1
    simp [whole]
  rw [joined, String.utf8ByteSize_append]
  exact Nat.le_add_right _ _

theorem origin_of_around (fs : FileSystem) {a p : Path} (around : a.Around p) :
    fs.origin a.text.toList = fs.origin p.text.toList := by
  obtain ⟨rest, whole⟩ := around.text
  rw [← whole, origin, origin, List.head?_append]
  cases begins : a.text.toList with
  | nil => exact absurd (String.toList_eq_nil_iff.1 begins) around.named
  | cons c others => rfl

/-- A path that leads somewhere has directories all around it. -/
theorem isDirectory_of_around {fs : FileSystem} {a p : Path} (around : a.Around p) {target : Target}
    (resolved : fs.resolve p = .ok target) : fs.isDirectory a = true := by
  obtain ⟨more, nonempty, joined⟩ := around.more
  obtain ⟨⟨-, noNul, short⟩, walked, -⟩ := walk_of_resolve resolved
  have named : a.text.toList ≠ [] := fun empty => around.named (String.toList_eq_nil_iff.1 empty)
  have sameOrigin := fs.origin_of_around around
  rw [joined] at walked
  obtain ⟨between, reached, -, directory⟩ := entryAt?_of_walk_append walked nonempty
  have noNul' : '\x00' ∉ a.text.toList := fun member => noNul (around.text.subset member)
  have short' : ¬ maxPathSize < a.text.utf8ByteSize := by
    have size := utf8ByteSize_of_prefix around.text
    omega
  have resolves : fs.resolve a = .ok ⟨between, some .directory, a.text.toList.getLast? == some '/',
      ((Path.parts a.text.toList).getLast?.map isName).getD false⟩ := by
    rw [resolve_eq, if_neg named, if_neg noNul', if_neg short', sameOrigin, reached, ← directory]
  exact isDirectory_iff.2 ⟨_, resolves, rfl⟩

end FileSystem

end KeyValueService
