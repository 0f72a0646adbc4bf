import Mathlib.Tactic

/-!
# Unpadded base64url

The text that Go's `base64.RawURLEncoding` writes for a byte string. Four characters stand for three
bytes, and the last one or two bytes take two or three characters. The text determines the bytes.
-/

namespace SpiceAgent.Lib.Base64

def alphabet : List Char :=
  "ABCDEFGHIJKLMNOPQRSTUVWXYZabcdefghijklmnopqrstuvwxyz0123456789-_".toList

def digit (n : ℕ) : Char := alphabet.getD (n % 64) 'A'

def encode : List UInt8 → List Char
  | a :: b :: c :: rest =>
    digit (a.toNat / 4) :: digit (a.toNat * 16 + b.toNat / 16) ::
      digit (b.toNat * 4 + c.toNat / 64) :: digit c.toNat :: encode rest
  | [a, b] => [digit (a.toNat / 4), digit (a.toNat * 16 + b.toNat / 16), digit (b.toNat * 4)]
  | [a] => [digit (a.toNat / 4), digit (a.toNat * 16)]
  | [] => []

end SpiceAgent.Lib.Base64
