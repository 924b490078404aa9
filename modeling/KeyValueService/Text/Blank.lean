/-!
# Blanks

White space as Unicode lists it, the removal of characters at either end of a text, and the one
change of case that the service makes, that of ASCII letters. Texts are lists of characters here;
`Text.trim` and its companions are the same operations on strings.
-/

namespace KeyValueService.Text

/-- The characters with the Unicode property `White_Space`. -/
def isBlank (c : Char) : Bool :=
  (0x09 ≤ c.toNat && c.toNat ≤ 0x0d) || c.toNat == 0x20 || c.toNat == 0x85 || c.toNat == 0xa0 ||
    c.toNat == 0x1680 || (0x2000 ≤ c.toNat && c.toNat ≤ 0x200a) || c.toNat == 0x2028 ||
    c.toNat == 0x2029 || c.toNat == 0x202f || c.toNat == 0x205f || c.toNat == 0x3000

/-- Drops the longest run at the end whose characters all satisfy `p`. -/
def dropEndWhile (p : Char → Bool) (s : List Char) : List Char :=
  (s.reverse.dropWhile p).reverse

/-- Drops the runs at both ends whose characters satisfy `p`. -/
def stripWhile (p : Char → Bool) (s : List Char) : List Char :=
  dropEndWhile p (s.dropWhile p)

/-- The text without the blanks at its ends. -/
def trimChars (s : List Char) : List Char :=
  stripWhile isBlank s

/-- The string without the blanks at its ends. -/
def trim (s : String) : String :=
  String.ofList (trimChars s.toList)

/-- An ASCII capital becomes the small letter; every other character stays. -/
def lowerAscii (s : String) : String :=
  String.ofList (s.toList.map Char.toLower)

/-- An ASCII small letter becomes the capital; every other character stays. -/
def upperAscii (s : String) : String :=
  String.ofList (s.toList.map Char.toUpper)

theorem isBlank_lineFeed : isBlank '\n' = true := by decide

theorem isBlank_carriageReturn : isBlank '\r' = true := by decide

/-- Every blank of the core library's class is one of Unicode's. -/
theorem isBlank_of_isWhitespace (c : Char) (blank : c.isWhitespace = true) : isBlank c = true := by
  simp only [Char.isWhitespace, Bool.or_eq_true, decide_eq_true_eq] at blank
  rcases blank with ((rfl | rfl) | rfl) | rfl <;> decide

end KeyValueService.Text
