import SqlUnits.Text.Span
/-!
Reading UTF-8. A malformed text is reported with the index of the first character that cannot be
read, and with the length of its malformed part unless the text merely ends too early.
-/

namespace SqlUnits.Utf8

structure Malformed where
  index : Nat
  length : Option Nat
deriving DecidableEq

def Malformed.message (m : Malformed) : String :=
  match m.length with
  | some n =>
      "invalid utf-8 sequence of " ++ toString n ++ " bytes from index " ++ toString m.index
  | none => "incomplete utf-8 byte sequence from index " ++ toString m.index

/-- How a character starts: its length, the bits of its first byte, the range of the second. -/
structure Lead where
  length : Nat
  bits : Nat
  low : Nat
  high : Nat

def lead? (b : Nat) : Option Lead :=
  if b < 0x80 then some ⟨1, b, 0, 0⟩
  else if b < 0xC2 then none
  else if b < 0xE0 then some ⟨2, b - 0xC0, 0x80, 0xBF⟩
  else if b < 0xF0 then
    some ⟨3, b - 0xE0, if b = 0xE0 then 0xA0 else 0x80, if b = 0xED then 0x9F else 0xBF⟩
  else if b < 0xF5 then
    some ⟨4, b - 0xF0, if b = 0xF0 then 0x90 else 0x80, if b = 0xF4 then 0x8F else 0xBF⟩
  else none

/-- Reads the bytes that must follow; a failure gives the length of the part that was fine. -/
def follow (low high : Nat) : Nat → Nat → Nat → List UInt8 →
    Except (Option Nat) (Nat × List UInt8)
  | 0, _, code, rest => .ok (code, rest)
  | _ + 1, _, _, [] => .error none
  | n + 1, read, code, b :: rest =>
      if low ≤ b.toNat && b.toNat ≤ high then
        follow 0x80 0xBF n (read + 1) (64 * code + b.toNat % 64) rest
      else .error (some read)

def decodeFrom (index : Nat) : Nat → List UInt8 → Except Malformed Text
  | 0, _ => .ok []
  | _ + 1, [] => .ok []
  | n + 1, b :: rest =>
      match lead? b.toNat with
      | none => .error ⟨index, some 1⟩
      | some lead =>
          match follow lead.low lead.high (lead.length - 1) 1 lead.bits rest with
          | .error length => .error ⟨index, length⟩
          | .ok (code, rest) =>
              (Char.ofNat code :: ·) <$> decodeFrom (index + lead.length) n rest

def decode (bytes : List UInt8) : Except Malformed String :=
  String.ofList <$> decodeFrom 0 bytes.length bytes

def encode (s : String) : List UInt8 :=
  s.toUTF8.toList

end SqlUnits.Utf8
