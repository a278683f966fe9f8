/-!
# Hexadecimal digits

Reading and writing numbers by hexadecimal digits, for escapes in source text, in JSON text and in
URLs.
-/

set_option autoImplicit false

namespace AmbientCatalog.Hex

def value? (c : Char) : Option Nat :=
  if '0' ≤ c ∧ c ≤ '9' then some (c.toNat - 48)
  else if 'a' ≤ c ∧ c ≤ 'f' then some (c.toNat - 87)
  else if 'A' ≤ c ∧ c ≤ 'F' then some (c.toNat - 55)
  else none

def ofDigits? (cs : List Char) : Option Nat :=
  (cs.mapM value?).map (List.foldl (fun n d => n * 16 + d) 0)

def lowerDigit (n : Nat) : Char :=
  if n < 10 then Char.ofNat (n + 48) else Char.ofNat (n + 87)

def upperDigit (n : Nat) : Char :=
  if n < 10 then Char.ofNat (n + 48) else Char.ofNat (n + 55)

end AmbientCatalog.Hex
