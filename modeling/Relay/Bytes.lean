/-!
# Byte strings

Keys, header values and payloads are byte strings. Text becomes bytes in UTF-8, and bytes become
text only if they are well-formed UTF-8. To be shown, bytes become text in any case: what is not well formed
stands as replacement characters.
-/

namespace Relay

/-- A byte string. -/
abbrev Bytes := List UInt8

namespace Bytes

/-- The byte of an ASCII character. -/
def code (c : Char) : UInt8 := c.toNat.toUInt8

/-- The UTF-8 encoding of a text. -/
def ofText (s : String) : Bytes := s.toList.flatMap String.utf8EncodeChar

/-- The text that the bytes encode, if they are well-formed UTF-8. -/
def toText? (bs : Bytes) : Option String := String.fromUTF8? (ByteArray.mk bs.toArray)

/-- A character of which some bytes were read. -/
structure Partial where
  /-- The bits so far. -/
  code : Nat
  /-- The number of bytes still to come. -/
  missing : Nat
  /-- The least byte that may come next. -/
  least : UInt8
  /-- The greatest byte that may come next. -/
  greatest : UInt8

/-- What a character starts with: a whole character, one to go on with, or bytes that start none. Encodings
that are longer than need be, of surrogates or beyond the last character are told by the second byte. -/
def lead (b : UInt8) : List Char × Option Partial :=
  if b < 0x80 then ([Char.ofNat b.toNat], none)
  else if 0xC2 ≤ b && b ≤ 0xDF then ([], some ⟨b.toNat % 32, 1, 0x80, 0xBF⟩)
  else if 0xE0 ≤ b && b ≤ 0xEF then
    let least := if b = 0xE0 then 0xA0 else 0x80
    let greatest := if b = 0xED then 0x9F else 0xBF
    ([], some ⟨b.toNat % 16, 2, least, greatest⟩)
  else if 0xF0 ≤ b && b ≤ 0xF4 then
    let least := if b = 0xF0 then 0x90 else 0x80
    let greatest := if b = 0xF4 then 0x8F else 0xBF
    ([], some ⟨b.toNat % 8, 3, least, greatest⟩)
  else (['\ufffd'], none)

/-- The characters that bytes stand for after a character that was begun. -/
def shownAfter : Option Partial → Bytes → List Char
  | none, [] => []
  | some _, [] => ['\ufffd']
  | none, b :: bs => (lead b).1 ++ shownAfter (lead b).2 bs
  | some p, b :: bs =>
    if p.least ≤ b && b ≤ p.greatest then
      let code := p.code * 64 + b.toNat % 64
      if p.missing = 1 then Char.ofNat code :: shownAfter none bs
      else shownAfter (some ⟨code, p.missing - 1, 0x80, 0xBF⟩) bs
    else '\ufffd' :: (lead b).1 ++ shownAfter (lead b).2 bs

/-- The text that bytes are shown as. Each longest beginning of a character that is not finished, and each
byte that starts none, stands as one replacement character. -/
def shown (bs : Bytes) : String := String.ofList (shownAfter none bs)

end Bytes

/-! ## Checksums -/

namespace Crc32

/-- One place of division by the reflected polynomial `0xEDB88320`. -/
def shift (c : UInt32) : UInt32 :=
  if c &&& 1 == 1 then (c >>> 1) ^^^ 0xEDB88320 else c >>> 1

/-- `n` places of division. -/
def shifts : Nat → UInt32 → UInt32
  | 0, c => c
  | n + 1, c => shifts n (shift c)

/-- The remainder after one more byte. -/
def feed (c : UInt32) (b : UInt8) : UInt32 := shifts 8 (c ^^^ b.toUInt32)

end Crc32

/-- The CRC-32 checksum of a byte string: reflected, with the remainder inverted at both ends. -/
def crc32 (bs : Bytes) : UInt32 := bs.foldl Crc32.feed 0xFFFFFFFF ^^^ 0xFFFFFFFF

end Relay
