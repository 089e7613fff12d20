import Stepwise.Text.Printable

/-!
# Quoted text and words in columns

Names that come from a program or from settings are shown between double quotes
inside error messages, so that blanks and control characters stay visible.  A
quote and a backslash get a backslash in front.  Printable characters stand for
themselves.  The seven common control characters have one-letter escapes, the
other ASCII control characters and DEL are written with two hexadecimal digits,
and every other character that is not printable with four or, beyond U+FFFF, with
eight.

Reports are lines of fields without quotes.  Truth values have their words there, and some
fields are filled up with blanks on the right so that they stand in columns.
-/

namespace Stepwise.Text

/-! ## Between quotes -/

/-- The lower-case hexadecimal digits of `n`, filled up with zeros to `width`. -/
def hexDigits (width n : Nat) : List Char :=
  let digits := Nat.toDigits 16 n
  List.replicate (width - digits.length) '0' ++ digits

/-- The letter that stands for a common control character after a backslash. -/
def controlLetter? (c : Char) : Option Char :=
  match c.toNat with
  | 0x07 => some 'a'
  | 0x08 => some 'b'
  | 0x09 => some 't'
  | 0x0A => some 'n'
  | 0x0B => some 'v'
  | 0x0C => some 'f'
  | 0x0D => some 'r'
  | _ => none

/-- How one character is written between quotes. -/
def escapeChar (c : Char) : List Char :=
  if c = '"' || c = '\\' then ['\\', c]
  else if isPrintable c then [c]
  else match controlLetter? c with
    | some letter => ['\\', letter]
    | none =>
      if c.toNat < 0x20 || c.toNat = 0x7F then '\\' :: 'x' :: hexDigits 2 c.toNat
      else if c.toNat < 0x10000 then '\\' :: 'u' :: hexDigits 4 c.toNat
      else '\\' :: 'U' :: hexDigits 8 c.toNat

/-- The text of `s` between double quotes. -/
def quote (s : String) : String :=
  String.ofList ('"' :: s.toList.flatMap escapeChar ++ ['"'])

example : quote "a\"b" = "\"a\\\"b\"" := by decide +kernel
example : quote "tab\t" = "\"tab\\t\"" := by decide +kernel
example : escapeChar (Char.ofNat 0xA0) = "\\u00a0".toList := by decide +kernel

/-! ## In columns -/

/-- The word for a truth value. -/
def flag (b : Bool) : String := if b then "true" else "false"

/-- The text `s`, filled up with blanks on the right to `width` characters. -/
def padRight (width : Nat) (s : String) : String :=
  s ++ String.ofList (List.replicate (width - s.length) ' ')

end Stepwise.Text
