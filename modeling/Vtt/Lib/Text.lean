import Vtt.Lib.Bytes

/-!
# Text

Trimming, case folding and number parsing as the standard library of the modelled code does them.
Texts are lists of characters here.
-/

namespace Vtt.Lib.Text

/-- The characters that trimming a text removes: those with the Unicode white-space property. -/
def isWhiteSpace (c : Char) : Bool :=
  let n := c.toNat
  (9 ≤ n && n ≤ 13) || n == 32 || n == 133 || n == 160 || n == 5760 || (8192 ≤ n && n ≤ 8202) ||
    n == 8232 || n == 8233 || n == 8239 || n == 8287 || n == 12288

/-- A text without white space at its ends. -/
def trim (cs : List Char) : List Char :=
  ((cs.dropWhile isWhiteSpace).reverse.dropWhile isWhiteSpace).reverse

/-- A text in ASCII upper case. -/
def asciiUppercase (s : String) : String := String.ofList (s.toList.map Char.toUpper)

/-- A text in ASCII lower case. -/
def asciiLowercase (s : String) : String := String.ofList (s.toList.map Char.toLower)

/-- Equality up to ASCII case. -/
def eqIgnoreCase (s t : String) : Bool := asciiLowercase s == asciiLowercase t

/-- A text without any number of copies of a pattern at its start. The length of the text is enough
rounds for a pattern that is not empty. -/
def trimStartMatches (pattern cs : List Char) : List Char :=
  go cs.length cs
where
  go : Nat → List Char → List Char
    | 0, cs => cs
    | rounds + 1, cs =>
      if pattern.isPrefixOf cs then go rounds (cs.drop pattern.length) else cs

/-- The value of decimal digits, if there are only digits. -/
def decimalDigits (acc : Nat) : List Char → Option Nat
  | [] => some acc
  | c :: cs => if c.isDigit then decimalDigits (acc * 10 + (c.toNat - '0'.toNat)) cs else none

/-- An unsigned number of a number of bits: digits with an optional plus sign in front. -/
def parseUnsigned (bits : Nat) (cs : List Char) : Option Nat :=
  let digits := match cs with
    | '+' :: rest => rest
    | _ => cs
  if digits.isEmpty then
    none
  else
    (decimalDigits 0 digits).bind fun n => if n < 2 ^ bits then some n else none

/-- The value of a hexadecimal digit given by its character code. -/
def hexDigit (b : UInt8) : Option Nat :=
  let n := b.toNat
  if 48 ≤ n ∧ n ≤ 57 then some (n - 48)
  else if 97 ≤ n ∧ n ≤ 102 then some (n - 87)
  else if 65 ≤ n ∧ n ≤ 70 then some (n - 55)
  else none

/-- The byte written by two characters of hexadecimal text. A plus sign may stand in the place of
the first digit. -/
def hexByte (high low : UInt8) : Option UInt8 :=
  (hexDigit low).bind fun l =>
    if high = 43 then some (UInt8.ofNat l)
    else (hexDigit high).map fun h => UInt8.ofNat (16 * h + l)

/-- A UTF-8 code unit that does not start a character. -/
def isContinuation (b : UInt8) : Bool := 128 ≤ b.toNat && b.toNat < 192

/-- The bytes written by a hexadecimal text, read two characters at a time. Cutting the text inside
a character aborts, which is the outer `none`; a pair that is not hexadecimal is the inner one. -/
def hexBytes : Bytes → Option (Option Bytes)
  | high :: low :: rest =>
    if isContinuation high || (rest.head?.any isContinuation) then
      none
    else
      match hexByte high low with
      | none => some none
      | some b => (hexBytes rest).map fun bs => bs.map (b :: ·)
  | _ => some (some [])

end Vtt.Lib.Text
