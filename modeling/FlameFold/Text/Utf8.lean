/-!
# Bytes and text

The bytes of a text in UTF-8, and reading bytes as text. Reading is a small
machine that takes one byte at a time. A byte that cannot continue the
character begun before it ends that character, which is then written as one
replacement character, and the byte is read afresh: so every maximal part of a
damaged sequence gives one replacement character.
-/

namespace FlameFold.Text

/-- The bytes of a text. -/
def encode (text : String) : List UInt8 :=
  text.toList.flatMap String.utf8EncodeChar

/-- The character that stands for bytes that are no text. -/
def replacement : Char := '\uFFFD'

/-- A character whose first bytes have been read. -/
structure Begun where
  /-- The value of the bits read so far. -/
  value : Nat
  /-- How many bytes are still to come, at least one. -/
  missing : Nat
  /-- The least value the next byte may have. -/
  low : UInt8
  /-- The greatest value the next byte may have. -/
  high : UInt8
  deriving DecidableEq

/-- The reader between two bytes. -/
structure Reader where
  /-- The characters read, the last one first. -/
  written : List Char
  /-- The character that is not complete yet. -/
  begun : Option Begun
  /-- Whether a replacement character has been written. -/
  damaged : Bool
  deriving DecidableEq

/-- The reader before the first byte. -/
def Reader.start : Reader := ⟨[], none, false⟩

/-- The character that a first byte begins, if it is the first of several. -/
def Begun.ofLead? (b : UInt8) : Option Begun :=
  let n := b.toNat
  if 0xC2 ≤ n ∧ n ≤ 0xDF then some ⟨n - 0xC0, 1, 0x80, 0xBF⟩
  else if n = 0xE0 then some ⟨0, 2, 0xA0, 0xBF⟩
  else if n = 0xED then some ⟨0xD, 2, 0x80, 0x9F⟩
  else if 0xE1 ≤ n ∧ n ≤ 0xEF then some ⟨n - 0xE0, 2, 0x80, 0xBF⟩
  else if n = 0xF0 then some ⟨0, 3, 0x90, 0xBF⟩
  else if 0xF1 ≤ n ∧ n ≤ 0xF3 then some ⟨n - 0xF0, 3, 0x80, 0xBF⟩
  else if n = 0xF4 then some ⟨4, 3, 0x80, 0x8F⟩
  else none

/-- Read a byte with no character begun. -/
def Reader.fresh (written : List Char) (damaged : Bool) (b : UInt8) : Reader :=
  if b < 0x80 then ⟨Char.ofNat b.toNat :: written, none, damaged⟩
  else match Begun.ofLead? b with
    | some begun => ⟨written, some begun, damaged⟩
    | none => ⟨replacement :: written, none, true⟩

/-- Read one byte. -/
def Reader.step (r : Reader) (b : UInt8) : Reader :=
  match r.begun with
  | none => Reader.fresh r.written r.damaged b
  | some begun =>
    if begun.low ≤ b ∧ b ≤ begun.high then
      let value := begun.value * 64 + (b.toNat - 0x80)
      if begun.missing = 1 then ⟨Char.ofNat value :: r.written, none, r.damaged⟩
      else ⟨r.written, some ⟨value, begun.missing - 1, 0x80, 0xBF⟩, r.damaged⟩
    else Reader.fresh (replacement :: r.written) true b

/-- Meet the end of the bytes. -/
def Reader.finish (r : Reader) : Reader :=
  match r.begun with
  | none => r
  | some _ => ⟨replacement :: r.written, none, true⟩

/-- The reader after all of the bytes. -/
def Reader.run (bytes : List UInt8) : Reader :=
  (bytes.foldl Reader.step Reader.start).finish

/-- Read bytes as text, with replacement characters where they are none. -/
def decodeLossy (bytes : List UInt8) : String :=
  String.ofList (Reader.run bytes).written.reverse

/-- Read bytes as text; nothing if they are not the bytes of a text. -/
def decode? (bytes : List UInt8) : Option String :=
  let r := Reader.run bytes
  if r.damaged then none else some (String.ofList r.written.reverse)

end FlameFold.Text
