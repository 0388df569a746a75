import QueryTidy.Text.Basic

/-!
Text as bytes in UTF-8. Decoding reports where the first ill-formed character begins and how many
of its bytes could have belonged to a well-formed one.
-/

set_option autoImplicit false
set_option relaxedAutoImplicit false

namespace QueryTidy.Bytes

/-- Where decoding failed: the index of the first byte that belongs to no character, and the number
of bytes that are wrong there, or none if the bytes end inside a character. -/
structure Fault where
  index : Nat
  length : Option Nat
deriving DecidableEq

def Fault.message (f : Fault) : Text :=
  match f.length with
  | some n =>
    "invalid utf-8 sequence of ".toList ++ Text.ofNat n ++ " bytes from index ".toList ++
      Text.ofNat f.index
  | none => "incomplete utf-8 byte sequence from index ".toList ++ Text.ofNat f.index

/-- A character of which some bytes are still owed: how many, the least and the greatest value of
the next one, the bits read so far and the number of bytes read so far. -/
structure Unfinished where
  owed : Nat
  low : Nat
  high : Nat
  bits : Nat
  read : Nat
deriving DecidableEq

/-- What a byte above the ASCII range announces as the first of a character. -/
def lead? (byte : Nat) : Option Unfinished :=
  if 0xC2 ≤ byte ∧ byte ≤ 0xDF then some ⟨1, 0x80, 0xBF, byte - 0xC0, 1⟩
  else if byte = 0xE0 then some ⟨2, 0xA0, 0xBF, 0, 1⟩
  else if byte = 0xED then some ⟨2, 0x80, 0x9F, 0xD, 1⟩
  else if 0xE1 ≤ byte ∧ byte ≤ 0xEF then some ⟨2, 0x80, 0xBF, byte - 0xE0, 1⟩
  else if byte = 0xF0 then some ⟨3, 0x90, 0xBF, 0, 1⟩
  else if 0xF1 ≤ byte ∧ byte ≤ 0xF3 then some ⟨3, 0x80, 0xBF, byte - 0xF0, 1⟩
  else if byte = 0xF4 then some ⟨3, 0x80, 0x8F, 4, 1⟩
  else none

/-- Decodes bytes of which the current character begins at `index`. -/
def decodeFrom (index : Nat) : Option Unfinished → List UInt8 → Except Fault Text
  | none, [] => .ok []
  | some _, [] => .error ⟨index, none⟩
  | none, b :: bytes =>
    if b.toNat < 0x80 then (decodeFrom (index + 1) none bytes).map (Char.ofNat b.toNat :: ·)
    else
      match lead? b.toNat with
      | some p => decodeFrom index (some p) bytes
      | none => .error ⟨index, some 1⟩
  | some p, b :: bytes =>
    if p.low ≤ b.toNat ∧ b.toNat ≤ p.high then
      let bits := p.bits * 64 + (b.toNat - 0x80)
      if p.owed ≤ 1 then
        (decodeFrom (index + p.read + 1) none bytes).map (Char.ofNat bits :: ·)
      else decodeFrom index (some ⟨p.owed - 1, 0x80, 0xBF, bits, p.read + 1⟩) bytes
    else .error ⟨index, some p.read⟩

def decode (bytes : List UInt8) : Except Fault Text :=
  decodeFrom 0 none bytes

def encode (t : Text) : List UInt8 :=
  t.flatMap String.utf8EncodeChar

end QueryTidy.Bytes
