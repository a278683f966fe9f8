/-!
# Decoding UTF-8

Bytes are decoded one character at a time. The first sequence that is not well formed is reported
by its place and by how many bytes can be told to be wrong, or as incomplete when the bytes end
inside it.
-/

set_option autoImplicit false

namespace AmbientCatalog.Utf8

inductive Error where
  | invalid (length index : Nat)
  | incomplete (index : Nat)
  deriving DecidableEq, Repr

def Error.message : Error → String
  | .invalid length index =>
    "invalid utf-8 sequence of " ++ length.repr ++ " bytes from index " ++ index.repr
  | .incomplete index => "incomplete utf-8 byte sequence from index " ++ index.repr

def following? (b : Nat) : Option Nat :=
  if b < 0x80 then some 0
  else if 0xC2 ≤ b && b ≤ 0xDF then some 1
  else if 0xE0 ≤ b && b ≤ 0xEF then some 2
  else if 0xF0 ≤ b && b ≤ 0xF4 then some 3
  else none

def isSecond (first b : Nat) : Bool :=
  -- No overlong forms, no surrogates, and nothing beyond the last character.
  if first = 0xE0 then 0xA0 ≤ b && b ≤ 0xBF
  else if first = 0xED then 0x80 ≤ b && b ≤ 0x9F
  else if first = 0xF0 then 0x90 ≤ b && b ≤ 0xBF
  else if first = 0xF4 then 0x80 ≤ b && b ≤ 0x8F
  else 0x80 ≤ b && b ≤ 0xBF

def firstBits (following b : Nat) : Nat :=
  match following with
  | 0 => b
  | 1 => b - 0xC0
  | 2 => b - 0xE0
  | _ => b - 0xF0

inductive State where
  | between
  | inside (index first read missing value : Nat)

def decodeFrom : State → Nat → List UInt8 → Except Error (List Char)
  | .between, _, [] => .ok []
  | .inside index _ _ _ _, _, [] => .error (.incomplete index)
  | .between, i, b :: bs =>
    match following? b.toNat with
    | none => .error (.invalid 1 i)
    | some 0 => (decodeFrom .between (i + 1) bs).map (Char.ofNat b.toNat :: ·)
    | some n => decodeFrom (.inside i b.toNat 1 n (firstBits n b.toNat)) (i + 1) bs
  | .inside index first read missing value, i, b :: bs =>
    let b := b.toNat
    if (if read = 1 then isSecond first b else 0x80 ≤ b && b ≤ 0xBF) then
      let value := value * 64 + (b - 0x80)
      if missing ≤ 1 then (decodeFrom .between (i + 1) bs).map (Char.ofNat value :: ·)
      else decodeFrom (.inside index first (read + 1) (missing - 1) value) (i + 1) bs
    else .error (.invalid read index)

def decode (bytes : List UInt8) : Except Error String :=
  (decodeFrom .between 0 bytes).map String.ofList

end AmbientCatalog.Utf8
