/-!
# Binary data as text

Three bytes are written as four characters of an alphabet of 64, six bits each.  At the
end, one byte is written as two characters and two bytes as three, and equals signs
fill up the four.  Bits that are left over at the end do not count.  Line ends may
stand anywhere.

The bytes are read as a text.  Those that make no characters are replaced.
-/

namespace Stepwise.Text

/-- The six bits that a character stands for. -/
def sixBits? (c : Char) : Option Nat :=
  if 'A' ≤ c && c ≤ 'Z' then some (c.toNat - 'A'.toNat)
  else if 'a' ≤ c && c ≤ 'z' then some (c.toNat - 'a'.toNat + 26)
  else if '0' ≤ c && c ≤ '9' then some (c.toNat - '0'.toNat + 52)
  else if c = '+' then some 62
  else if c = '/' then some 63
  else none

/-- The bytes of the first, second and third pair of neighbours among groups of six
bits. -/
def byteAt (i hi lo : Nat) : UInt8 :=
  match i with
  | 0 => UInt8.ofNat (hi * 4 + lo / 16)
  | 1 => UInt8.ofNat (hi * 16 + lo / 4)
  | _ => UInt8.ofNat (hi * 64 + lo)

/-- The bytes that a text without line ends stands for. -/
def base64Bytes? : List Char → Option (List UInt8)
  | [] => some []
  | [a, b, '=', '='] => do
    let a ← sixBits? a
    let b ← sixBits? b
    some [byteAt 0 a b]
  | [a, b, c, '='] => do
    let a ← sixBits? a
    let b ← sixBits? b
    let c ← sixBits? c
    some [byteAt 0 a b, byteAt 1 b c]
  | a :: b :: c :: d :: rest => do
    let a ← sixBits? a
    let b ← sixBits? b
    let c ← sixBits? c
    let d ← sixBits? d
    let bytes ← base64Bytes? rest
    some (byteAt 0 a b :: byteAt 1 b c :: byteAt 2 c d :: bytes)
  | _ => none

/-- The text of bytes, with a replacement character for each byte beyond ASCII if the whole
is no text. -/
def textOfBytes (bytes : List UInt8) : String :=
  match String.fromUTF8? ⟨bytes.toArray⟩ with
  | some s => s
  | none => String.ofList (bytes.map fun b => if b < 0x80 then Char.ofNat b.toNat else '\uFFFD')

/-- The text that is written as binary data. -/
def readBase64? (s : String) : Option String :=
  (base64Bytes? (s.toList.filter fun c => c ≠ '\n' && c ≠ '\r')).map textOfBytes

example : base64Bytes? "aGk=".toList = some [104, 105] := by decide +kernel
example : base64Bytes? "aGk".toList = none := by decide +kernel

end Stepwise.Text
