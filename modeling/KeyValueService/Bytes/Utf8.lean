/-!
# Reading UTF-8 that may be broken

Every byte sequence is given a text. A well-formed sequence is read as its character. Where the
bytes are ill-formed, the longest piece that a well-formed sequence could still have started with is
read as one replacement character, and reading goes on right after it.
-/

namespace KeyValueService.Bytes

/-- What a leading byte announces: its share of the code point, the number of continuation bytes,
and the range of the first of them. -/
structure Lead where
  value : Nat
  count : Nat
  low : UInt8
  high : UInt8

/-- Reads a leading byte. Shorter forms of a code point, surrogates and numbers above the last code
point are excluded by the range of the first continuation byte. -/
def lead? (b : UInt8) : Option Lead :=
  if b < 0x80 then some ⟨b.toNat, 0, 0x80, 0xbf⟩
  else if b < 0xc2 then none
  else if b < 0xe0 then some ⟨b.toNat - 0xc0, 1, 0x80, 0xbf⟩
  else if b < 0xf0 then
    some ⟨b.toNat - 0xe0, 2, if b = 0xe0 then 0xa0 else 0x80, if b = 0xed then 0x9f else 0xbf⟩
  else if b < 0xf5 then
    some ⟨b.toNat - 0xf0, 3, if b = 0xf0 then 0x90 else 0x80, if b = 0xf4 then 0x8f else 0xbf⟩
  else none

/-- The continuation bytes at the front, at most `count`, the first of them between the bounds. -/
def continuations : Nat → UInt8 → UInt8 → List UInt8 → List UInt8
  | 0, _, _, _ => []
  | _ + 1, _, _, [] => []
  | count + 1, low, high, b :: rest =>
    if low ≤ b ∧ b ≤ high then b :: continuations count 0x80 0xbf rest else []

/-- The character put in place of an ill-formed piece. -/
def replacement : Char := '\ufffd'

/-- Joins the shares of a leading byte and its continuation bytes. -/
def codePoint (lead : Nat) (tail : List UInt8) : Nat :=
  tail.foldl (fun value b => value * 64 + (b.toNat - 0x80)) lead

/-- The text of any byte sequence. -/
def decodeLossy : List UInt8 → List Char
  | [] => []
  | b :: rest =>
    match lead? b with
    | none => replacement :: decodeLossy rest
    | some lead =>
      let tail := continuations lead.count lead.low lead.high rest
      let c := if tail.length = lead.count then Char.ofNat (codePoint lead.value tail) else replacement
      c :: decodeLossy (rest.drop tail.length)
termination_by bytes => bytes.length
decreasing_by all_goals (simp only [List.length_drop, List.length_cons]; omega)

end KeyValueService.Bytes
