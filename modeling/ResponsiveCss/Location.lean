-- Places in a text, as line and column. Lines end at `\n`, `\r\n`, `\r` or
-- `\f`; columns count UTF-16 units, so a character beyond the first plane
-- takes two.
namespace ResponsiveCss

/-- A place in a text. A node that was never in a text stands at line 0, column 0. -/
structure Location where
  line : Nat
  column : Nat
deriving DecidableEq, Repr

namespace Location

/-- The place of nodes that were never in a text. -/
def nowhere : Location := ⟨0, 0⟩

/-- The first character of a text. -/
def start : Location := ⟨1, 1⟩

instance : Inhabited Location := ⟨nowhere⟩

/-- The beginning of the next line. -/
def nextLine (l : Location) : Location := ⟨l.line + 1, 1⟩

/-- The number of UTF-16 units of a character. -/
def units (c : Char) : Nat := if c.toNat < 0x10000 then 1 else 2

/-- The place after a stretch of text that begins here. -/
def after : Location → List Char → Location
  | l, [] => l
  | l, '\r' :: '\n' :: cs => after l.nextLine cs
  | l, c :: cs =>
    if c = '\n' || c = '\r' || c = '\x0c' then after l.nextLine cs
    else after ⟨l.line, l.column + units c⟩ cs

/-- A place as it is written: line, colon, column. -/
def text (l : Location) : String := s!"{l.line}:{l.column}"

@[simp] theorem after_nil (l : Location) : l.after [] = l := by simp [after]

end Location

end ResponsiveCss
