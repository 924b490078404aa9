import KeyValueService.Proofs.ImageCodec
import KeyValueService.Proofs.PathResolution
import KeyValueService.Proofs.UnbrokenTexts
import KeyValueService.Request.Reader
import KeyValueService.Service.Response

/-!
# Telling responses apart

A client that knows the lines it has sent can cut the bytes it has received into the responses
(`readResponses`): the line that it sent says whether a line, a block or a farewell is to be
expected, and instead of the last two there may be a refusal. The cut is right for responses that
fit their lines (`Response.Fits`): texts are on one line, and every entry of a block begins with a
bracket, which neither a refusal nor the end of the block does. Main statement:
`readResponses_of_fits`.
-/

namespace KeyValueService

open Text

/-- What a client expects to receive. -/
inductive Form
  | line
  | block
  | farewell
  deriving DecidableEq, Repr

/-- What is expected in answer to a line. -/
def expectedForm (sent : List Char) : Form :=
  match Request.read sent with
  | .ok (.logs _) => .block
  | .ok (.sessionLogs _ _) => .block
  | .ok (.exportLog _) => .block
  | .ok .shutdown => .farewell
  | .ok .quit => .farewell
  | _ => .line

/-- Whether a line says that a request was refused or failed. -/
def isRefusal (line : String) : Bool :=
  "ERROR: ".toList.isPrefixOf line.toList

/-- The entries of a block, up to the line that ends it, and the lines behind that. -/
def cutBlock : List String → Option (List String × List String)
  | [] => none
  | line :: rest =>
    if line = Response.terminator then some ([], rest)
    else
      match cutBlock rest with
      | none => none
      | some (entries, behind) => some (line :: entries, behind)

/-- The response to a line that was sent, and the lines behind it. -/
def cutResponse (sent : List Char) : List String → Option (Response × List String)
  | [] => none
  | first :: rest =>
    match expectedForm sent, isRefusal first with
    | .line, _ => some (.line first, rest)
    | _, true => some (.line first, rest)
    | .farewell, false => some (.farewell, rest)
    | .block, false =>
      match cutBlock (first :: rest) with
      | none => none
      | some (entries, behind) => some (.block entries, behind)

/-- The responses to the lines that were sent, one for each; no line may be left over. -/
def cutResponses : List (List Char) → List String → Option (List Response)
  | [], [] => some []
  | [], _ :: _ => none
  | sent :: more, lines =>
    match cutResponse sent lines with
    | none => none
    | some (response, behind) => (cutResponses more behind).map (response :: ·)

/-- The lines of a text in which a line feed ends each line. -/
def endedLines (text : String) : List String :=
  (pieces '\n' text.toList).dropLast.map String.ofList

/-- The responses to the lines that were sent, as the bytes received tell. -/
def readResponses (sent : List (List Char)) (received : ByteArray) : Option (List Response) :=
  match String.fromUTF8? received with
  | none => none
  | some text => cutResponses sent (endedLines text)

/-- The bytes of responses, one after the other. -/
def sentBytes (responses : List Response) : ByteArray :=
  (String.join (responses.map Response.text)).toUTF8

/-- An entry of a block: a line that begins with a bracket. -/
structure IsEntry (line : String) : Prop where
  unbroken : Unbroken line
  bracket : line.toList.head? = some '['

namespace Response

/-- A response that a client can tell from what is sent after it, if it has sent the given line. -/
def Fits (sent : List Char) : Response → Prop
  | line text => Unbroken text ∧ (expectedForm sent = .line ∨ isRefusal text = true)
  | block entries => expectedForm sent = .block ∧ ∀ entry ∈ entries, IsEntry entry
  | farewell => expectedForm sent = .farewell

variable {sent : List Char} {response : Response}

theorem unbroken_of_fits (fits : response.Fits sent) : ∀ line ∈ response.lines, Unbroken line := by
  cases response with
  | line text => simpa [lines] using fits.1
  | block entries =>
    intro line member
    rcases List.mem_append.1 member with member | member
    · exact (fits.2 line member).unbroken
    · rw [List.mem_singleton.1 member]
      decide +kernel
  | farewell => simpa [lines] using (by decide +kernel : Unbroken "BYE")

end Response

/-- A bracket is not the beginning of a refusal, nor of the end of a block. -/
theorem IsEntry.isRefusal {entry : String} (isEntry : IsEntry entry) :
    KeyValueService.isRefusal entry = false := by
  obtain ⟨rest, shape⟩ := List.head?_eq_some_iff.1 isEntry.bracket
  rw [KeyValueService.isRefusal, shape]
  rfl

theorem IsEntry.ne_terminator {entry : String} (isEntry : IsEntry entry) :
    entry ≠ Response.terminator := by
  rintro rfl
  exact absurd isEntry.bracket (by decide +kernel)

theorem cutBlock_of_entries {entries : List String} (areEntries : ∀ entry ∈ entries, IsEntry entry)
    (behind : List String) :
    cutBlock (entries ++ Response.terminator :: behind) = some (entries, behind) := by
  induction entries with
  | nil => rw [List.nil_append, cutBlock, if_pos rfl]
  | cons entry rest inductionHypothesis =>
    obtain ⟨first, others⟩ := List.forall_mem_cons.1 areEntries
    rw [List.cons_append, cutBlock, if_neg first.ne_terminator, inductionHypothesis others]

theorem cutResponse_of_fits {sent : List Char} {response : Response} (fits : response.Fits sent)
    (behind : List String) :
    cutResponse sent (response.lines ++ behind) = some (response, behind) := by
  cases response with
  | line text =>
    rcases fits.2 with expected | refusal
    · simp [Response.lines, cutResponse, expected]
    · simp only [Response.lines, List.singleton_append, cutResponse, refusal]
      cases expectedForm sent <;> rfl
  | block entries =>
    obtain ⟨expected, areEntries⟩ := fits
    have cut := cutBlock_of_entries areEntries behind
    have shape : (Response.block entries).lines ++ behind =
        entries ++ Response.terminator :: behind := by
      simp [Response.lines]
    obtain ⟨first, rest, split, accepted⟩ : ∃ first rest,
        entries ++ Response.terminator :: behind = first :: rest ∧ isRefusal first = false := by
      cases entries with
      | nil => exact ⟨_, _, rfl, by decide +kernel⟩
      | cons entry others => exact ⟨_, _, rfl, (areEntries entry List.mem_cons_self).isRefusal⟩
    rw [split] at cut
    rw [shape, split, cutResponse, expected, accepted]
    dsimp only
    rw [cut]
  | farewell =>
    have expected : expectedForm sent = .farewell := fits
    have accepted : isRefusal "BYE" = false := by decide +kernel
    rw [Response.lines, List.singleton_append, cutResponse, expected, accepted]

theorem cutResponses_of_fits {pairs : List (List Char × Response)}
    (fit : ∀ pair ∈ pairs, pair.2.Fits pair.1) :
    cutResponses (pairs.map Prod.fst) (pairs.flatMap fun pair => pair.2.lines) =
      some (pairs.map Prod.snd) := by
  induction pairs with
  | nil => rfl
  | cons pair rest inductionHypothesis =>
    obtain ⟨first, others⟩ := List.forall_mem_cons.1 fit
    rw [List.map_cons, List.flatMap_cons, cutResponses, cutResponse_of_fits first]
    dsimp only
    rw [inductionHypothesis others]
    rfl

/-- Lines that are written with a line feed each are cut at the line feeds. -/
theorem endedLines_join {lines : List String} (unbroken : ∀ line ∈ lines, Unbroken line) :
    endedLines (String.join (lines.map (· ++ "\n"))) = lines := by
  have cut : pieces '\n' (String.join (lines.map (· ++ "\n"))).toList =
      lines.map String.toList ++ [[]] := by
    induction lines with
    | nil => simp [pieces]
    | cons line rest inductionHypothesis =>
      obtain ⟨first, others⟩ := List.forall_mem_cons.1 unbroken
      have shape : (String.join ((line :: rest).map (· ++ "\n"))).toList =
          line.toList ++ '\n' :: (String.join (rest.map (· ++ "\n"))).toList := by
        simp
      rw [shape, pieces_append, pieces_of_not_mem '\n' first, inductionHypothesis others,
        List.map_cons, List.singleton_append, List.cons_append]
  rw [endedLines, cut, List.dropLast_concat, List.map_map]
  simp

/-- Responses that fit the lines sent are told from their bytes. -/
theorem readResponses_of_fits (pairs : List (List Char × Response))
    (fit : ∀ pair ∈ pairs, pair.2.Fits pair.1) :
    readResponses (pairs.map Prod.fst) (sentBytes (pairs.map Prod.snd)) =
      some (pairs.map Prod.snd) := by
  have unbroken : ∀ line ∈ pairs.flatMap fun pair => pair.2.lines, Unbroken line := by
    intro line member
    obtain ⟨pair, among, own⟩ := List.mem_flatMap.1 member
    exact Response.unbroken_of_fits (fit pair among) line own
  have whole : String.join ((pairs.map Prod.snd).map Response.text) =
      String.join ((pairs.flatMap fun pair => pair.2.lines).map (· ++ "\n")) := by
    clear fit unbroken
    induction pairs with
    | nil => rfl
    | cons pair rest inductionHypothesis =>
      rw [List.flatMap_cons, List.map_append, String.join_append, ← inductionHypothesis,
        List.map_cons, List.map_cons, String.join_cons, Response.text]
  rw [readResponses, sentBytes, whole, Store.fromUTF8?_toUTF8]
  dsimp only
  rw [endedLines_join unbroken, cutResponses_of_fits fit]

end KeyValueService
