-- Texts as lists of characters: which characters are blank and how blanks are
-- cut off the two ends, where a text is cut in two, where one text occurs in
-- another, and when two texts differ at most in the case of ASCII letters.
namespace ResponsiveCss.Text

/-! ## The blank characters -/

/-- The code points with the Unicode property White_Space, each run by its first and last. -/
def blankRuns : List (Nat × Nat) :=
  [(0x09, 0x0D), (0x20, 0x20), (0x85, 0x85), (0xA0, 0xA0), (0x1680, 0x1680), (0x2000, 0x200A),
    (0x2028, 0x2029), (0x202F, 0x202F), (0x205F, 0x205F), (0x3000, 0x3000)]

/-- A character is blank if its code point lies in one of the runs. -/
def isBlank (c : Char) : Bool :=
  blankRuns.any fun run => run.1 ≤ c.toNat && c.toNat ≤ run.2

/-! ## Cutting blanks off -/

/-- The text without the blanks at its end. -/
def trimEnd (s : List Char) : List Char := (s.reverse.dropWhile isBlank).reverse

/-- The text without the blanks at its two ends. -/
def trim (s : List Char) : List Char := trimEnd (s.dropWhile isBlank)

/-! ## Cutting in two -/

/-- The text before the first `sep` and the text after it, if there is one. -/
def splitFirst? (sep : Char) : List Char → Option (List Char × List Char)
  | [] => none
  | c :: cs =>
    if c = sep then some ([], cs)
    else (splitFirst? sep cs).map fun parts => (c :: parts.1, parts.2)

/-! ## Looking for a text -/

/-- `part` occurs somewhere in the text; the empty text occurs everywhere. -/
def occursIn (part : List Char) : List Char → Bool
  | [] => part.isEmpty
  | c :: cs => part.isPrefixOf (c :: cs) || occursIn part cs

/-- The two texts are equal but for the case of ASCII letters. -/
def sameLetters (a b : List Char) : Bool := a.map Char.toLower == b.map Char.toLower

/-! ## Small laws -/

@[simp] theorem trimEnd_nil : trimEnd [] = [] := rfl

@[simp] theorem trim_nil : trim [] = [] := rfl

/-- A space is blank. -/
theorem isBlank_space : isBlank ' ' = true := by decide

@[simp] theorem splitFirst?_nil (sep : Char) : splitFirst? sep [] = none := rfl

end ResponsiveCss.Text
