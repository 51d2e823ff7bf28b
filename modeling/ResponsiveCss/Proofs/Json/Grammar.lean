-- The grammar of JSON as relations on texts: which texts spell a string, and
-- which texts are values at all. How a text is read is not part of it.
import ResponsiveCss.Json.Skip

namespace ResponsiveCss.Json

/-! ## Strings -/

/-- The digits of numerals. -/
def decimalDigits : List Char := "0123456789".toList

/-- The digits of escapes with their values, in lower and in upper case. -/
def hexDigits : List (Char × Nat) := "0123456789abcdef".toList.zipIdx ++ "ABCDEF".toList.zipIdx 10

/-- Four hexadecimal digits that spell a number. -/
inductive FourDigits : List Char → Nat → Prop
  | intro {a b c d : Char} {i j k l : Nat} (ha : (a, i) ∈ hexDigits) (hb : (b, j) ∈ hexDigits)
      (hc : (c, k) ∈ hexDigits) (hd : (d, l) ∈ hexDigits) :
      FourDigits [a, b, c, d] (((i * 16 + j) * 16 + k) * 16 + l)

/-- The letters of the short escapes with what they stand for. -/
def letterEscapes : List (Char × Char) :=
  [('"', '"'), ('\\', '\\'), ('/', '/'), ('b', '\x08'), ('f', '\x0c'), ('n', '\n'), ('r', '\r'),
    ('t', '\t')]

/-- A character that may stand in a string as it is. -/
def IsLiteral (c : Char) : Prop := ' ' ≤ c ∧ c ≠ '"' ∧ c ≠ '\\'

instance (c : Char) : Decidable (IsLiteral c) := inferInstanceAs (Decidable (_ ∧ _ ∧ _))

/-- The ways to write one character in a string: as it is, by a short escape, by its number, or by
the numbers of two surrogates. -/
inductive SpellsChar (c : Char) : List Char → Prop
  | literal (h : IsLiteral c) : SpellsChar c [c]
  | letter {e : Char} (h : (e, c) ∈ letterEscapes) : SpellsChar c ['\\', e]
  | number {digits : List Char} (h : FourDigits digits c.toNat) :
      SpellsChar c ('\\' :: 'u' :: digits)
  | surrogates {high low : List Char} {hi lo : Nat} (hhigh : FourDigits high hi)
      (hlow : FourDigits low lo) (hhi : 0xD800 ≤ hi ∧ hi ≤ 0xDBFF)
      (hlo : 0xDC00 ≤ lo ∧ lo ≤ 0xDFFF)
      (hc : c.toNat = 0x10000 + (hi - 0xD800) * 0x400 + (lo - 0xDC00)) :
      SpellsChar c ('\\' :: 'u' :: high ++ '\\' :: 'u' :: low)

/-- What stands between the quotes of a string spells this text. -/
inductive Spells : List Char → List Char → Prop
  | nil : Spells [] []
  | cons {c : Char} {text own more : List Char} (hown : SpellsChar c own)
      (hmore : Spells text more) : Spells (c :: text) (own ++ more)

theorem spells_literals {s : List Char} (h : s.all (IsLiteral ·) = true) : Spells s s := by
  induction s with
  | nil => exact .nil
  | cons c s ih =>
    rw [List.all_cons, Bool.and_eq_true, decide_eq_true_iff] at h
    exact .cons (.literal h.1) (ih h.2)

/-- One piece of a string. The number of an escape may be any at all. -/
inductive IsPiece : List Char → Prop
  | literal {c : Char} (h : IsLiteral c) : IsPiece [c]
  | letter {e c : Char} (h : (e, c) ∈ letterEscapes) : IsPiece ['\\', e]
  | number {digits : List Char} {n : Nat} (h : FourDigits digits n) :
      IsPiece ('\\' :: 'u' :: digits)

/-- What may stand between the quotes of a string, whether it spells a text or not. -/
inductive IsString : List Char → Prop
  | nil : IsString []
  | cons {own more : List Char} (hown : IsPiece own) (hmore : IsString more) :
      IsString (own ++ more)

/-! ## Numerals -/

/-- Digits, at least one. -/
structure IsDigits (s : List Char) : Prop where
  digits : ∀ c ∈ s, c ∈ decimalDigits
  ne_nil : s ≠ []

instance (s : List Char) : Decidable (IsDigits s) :=
  have := List.decidableBAll (· ∈ decimalDigits) s
  decidable_of_iff ((∀ c ∈ s, c ∈ decimalDigits) ∧ s ≠ []) ⟨fun h => ⟨h.1, h.2⟩, fun h => ⟨h.1, h.2⟩⟩

/-- The digits in front of the point: a zero alone, or no zero first. -/
structure IsWhole (s : List Char) : Prop extends IsDigits s where
  zero : s.head? = some '0' → s = ['0']

/-- The fraction, if there is one. -/
inductive IsFraction : List Char → Prop
  | none : IsFraction []
  | some {s : List Char} (h : IsDigits s) : IsFraction ('.' :: s)

/-- The exponent, if there is one. -/
inductive IsExponent : List Char → Prop
  | none : IsExponent []
  | some {e : Char} {sign s : List Char} (he : e = 'e' ∨ e = 'E')
      (hsign : sign = [] ∨ sign = ['+'] ∨ sign = ['-']) (h : IsDigits s) :
      IsExponent (e :: sign ++ s)

/-- A numeral: perhaps a minus, then the whole part, the fraction and the exponent. -/
inductive IsNumeral : List Char → Prop
  | intro {minus whole fraction exponent : List Char} (hminus : minus = [] ∨ minus = ['-'])
      (hwhole : IsWhole whole) (hfraction : IsFraction fraction) (hexponent : IsExponent exponent) :
      IsNumeral (minus ++ whole ++ fraction ++ exponent)

/-! ## Containers -/

/-- White space between two parts, perhaps none. -/
def Gap (s : List Char) : Prop := ∀ c ∈ s, c = ' ' ∨ c = '\n' ∨ c = '\t' ∨ c = '\r'

instance (s : List Char) : Decidable (Gap s) := List.decidableBAll _ s

/-- What stands in front of an entry: white space, and a comma in it unless the entry is the
first. -/
inductive Lead : (first : Bool) → List Char → Prop
  | first {gap : List Char} (h : Gap gap) : Lead true gap
  | later {before behind : List Char} (hbefore : Gap before) (hbehind : Gap behind) :
      Lead false (before ++ ',' :: behind)

/-- What is left of a container's inside in front of its entries, the first one or later ones. -/
inductive Entries : (first : Bool) → List (List Char) → List Char → Prop
  | done {first : Bool} {gap : List Char} (h : Gap gap) : Entries first [] gap
  | entry {first : Bool} {lead entry s : List Char} {more : List (List Char)}
      (hlead : Lead first lead) (hmore : Entries false more s) :
      Entries first (entry :: more) (lead ++ entry ++ s)

/-- The bracket that opens a container. -/
def Container.opener : Container → Char
  | .list => '['
  | .object => '\x7b'

/-- What stands in front of the value of an entry: nothing in a list, a key with its colon in an
object. -/
inductive Label : Container → List Char → Prop
  | list : Label .list []
  | object {key before behind : List Char} (hkey : IsString key) (hbefore : Gap before)
      (hbehind : Gap behind) : Label .object ('"' :: key ++ '"' :: before ++ ':' :: behind)

/-- The words that are values. -/
def valueWords : List (List Char) := ["null".toList, "true".toList, "false".toList]

/-- A value of any kind. The entries of a container are pairs of what labels them and their
value. -/
inductive IsValue : List Char → Prop
  | word {s : List Char} (h : s ∈ valueWords) : IsValue s
  | numeral {s : List Char} (h : IsNumeral s) : IsValue s
  | string {s : List Char} (h : IsString s) : IsValue ('"' :: s ++ ['"'])
  | container {c : Container} {entries : List (List Char × List Char)} {s : List Char}
      (hlabels : ∀ e ∈ entries, Label c e.1) (hvalues : ∀ e ∈ entries, IsValue e.2)
      (h : Entries true (entries.map fun e => e.1 ++ e.2) s) :
      IsValue (c.opener :: s ++ [c.closer])

/-- A member of an object: a key that spells the name, a colon, and the value. -/
inductive Member (name value : List Char) : List Char → Prop
  | intro {key before behind : List Char} (hkey : Spells name key) (hbefore : Gap before)
      (hbehind : Gap behind) :
      Member name value ('"' :: key ++ '"' :: before ++ ':' :: behind ++ value)

end ResponsiveCss.Json
