/-!
# Text/Utf8 — characters as bytes

How many bytes a character takes decides where a fingerprint may be cut, and the bytes of a form
value are read back as characters.  `prefixOfSize?` cuts only between characters; `decodeLossy`
reads any bytes, putting one replacement character in the place of each longest piece that begins
like a character and is none.
-/

namespace Reporting.Text

/-- The number of bytes a text takes. -/
def byteSize (cs : List Char) : Nat := cs.foldr (fun c n => c.utf8Size + n) 0

/-- The beginning of a text that takes exactly the given number of bytes, if there is one. -/
def prefixOfSize? : Nat → List Char → Option (List Char)
  | 0, _ => some []
  | _ + 1, [] => none
  | n + 1, c :: rest =>
    if c.utf8Size ≤ n + 1 then (prefixOfSize? (n + 1 - c.utf8Size) rest).map (c :: ·) else none

/-- The bytes of a text. -/
def bytes (s : String) : List UInt8 := s.toUTF8.toList

/-- A lead byte: the number of bytes that must follow it, the range in which the first of them has
to lie, and the bits it contributes. -/
structure Lead where
  following : Nat
  low : UInt8
  high : UInt8
  bits : Nat

/-- The lead bytes of characters that take more than one byte.  The narrower ranges shut out
overlong forms, surrogates and numbers above the last code point. -/
def lead? (b : UInt8) : Option Lead :=
  if 0xC2 ≤ b ∧ b ≤ 0xDF then some ⟨1, 0x80, 0xBF, b.toNat - 0xC0⟩
  else if b = 0xE0 then some ⟨2, 0xA0, 0xBF, 0⟩
  else if b = 0xED then some ⟨2, 0x80, 0x9F, 0xD⟩
  else if 0xE1 ≤ b ∧ b ≤ 0xEF then some ⟨2, 0x80, 0xBF, b.toNat - 0xE0⟩
  else if b = 0xF0 then some ⟨3, 0x90, 0xBF, 0⟩
  else if 0xF1 ≤ b ∧ b ≤ 0xF3 then some ⟨3, 0x80, 0xBF, b.toNat - 0xF0⟩
  else if b = 0xF4 then some ⟨3, 0x80, 0x8F, 4⟩
  else none

/-- A character that has begun and still needs bytes: how many, the range for the next of them,
and the bits so far. -/
abbrev Pending := Lead

/-- Reads bytes as characters.  A piece that breaks off, or a byte that begins nothing, becomes one
replacement character; the byte at which a piece breaks off is looked at again. -/
def decodeLossy (bs : List UInt8) : List Char := go none bs
where
  /-- Starts a character at a byte. -/
  start (b : UInt8) : List Char × Option Pending :=
    if b < 0x80 then ([Char.ofNat b.toNat], none)
    else match lead? b with
      | some l => ([], some l)
      | none => (['\uFFFD'], none)
  /-- Reads on, with the character that has begun. -/
  go : Option Pending → List UInt8 → List Char
    | none, [] => []
    | some _, [] => ['\uFFFD']
    | none, b :: rest =>
      let (out, pending) := start b
      out ++ go pending rest
    | some p, b :: rest =>
      if p.low ≤ b ∧ b ≤ p.high then
        let bits := p.bits * 64 + (b.toNat - 0x80)
        if p.following ≤ 1 then Char.ofNat bits :: go none rest
        else go (some ⟨p.following - 1, 0x80, 0xBF, bits⟩) rest
      else
        let (out, pending) := start b
        '\uFFFD' :: out ++ go pending rest

end Reporting.Text
