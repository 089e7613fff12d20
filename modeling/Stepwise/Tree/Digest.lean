import Stepwise.Tree.Node

/-!
# Structural digests

A tree has a 64-bit digest that depends on its names and shape only, so equal
trees have equal digests.  Bytes are absorbed one at a time by the FNV-1a rule:
exclusive or with the byte, then multiply by a fixed prime.  A terminal absorbs the
letter `T` and the bytes of its name.  A form absorbs the letter `A`, its number
of children modulo 256, and the eight bytes of each child's digest, lowest first.
-/

namespace Stepwise

/-- A digest under construction. -/
abbrev Digest := UInt64

namespace Digest

/-- The digest of no bytes. -/
def start : Digest := 0xcbf29ce484222325

/-- Absorb one byte. -/
def absorb (h : Digest) (b : UInt8) : Digest := (h ^^^ b.toUInt64) * 0x100000001b3

/-- Absorb a list of bytes, first to last. -/
def absorbAll (h : Digest) (bs : List UInt8) : Digest := bs.foldl absorb h

/-- The eight bytes of a digest, lowest first. -/
def bytes (h : Digest) : List UInt8 :=
  (List.range 8).map fun i => (h >>> (8 * i).toUInt64).toUInt8

/-- The sixteen lower-case hexadecimal digits of a digest. -/
def hex (h : Digest) : String :=
  let digits := Nat.toDigits 16 h.toNat
  String.ofList (List.replicate (16 - digits.length) '0' ++ digits)

end Digest

namespace Node

mutual

/-- The digest of a tree. -/
def digest : Node → Digest
  | .missing => Digest.start
  | .terminal name =>
      (Digest.start.absorb 'T'.toUInt8).absorbAll name.toUTF8.data.toList
  | .form children =>
      digestChildren
        ((Digest.start.absorb 'A'.toUInt8).absorb (UInt8.ofNat children.length)) children

/-- Absorb the digests of the children, first to last. -/
def digestChildren (h : Digest) : List Node → Digest
  | [] => h
  | n :: ns => digestChildren (h.absorbAll (digest n).bytes) ns

end

end Node

end Stepwise
