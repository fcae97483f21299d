import Mathlib.Data.List.Basic

/-!
# UTF-8

The characters of well-formed UTF-8, byte by byte: no overlong forms, no surrogates, no codes beyond the
last one.
-/

namespace Utf8

/-- How many bytes a first byte announces; bytes that start no character announce themselves. -/
def width (lead : UInt8) : Nat :=
  if 0xc2 ≤ lead ∧ lead ≤ 0xdf then 2
  else if 0xe0 ≤ lead ∧ lead ≤ 0xef then 3
  else if 0xf0 ≤ lead ∧ lead ≤ 0xf4 then 4
  else 1

def isTail (b : UInt8) : Bool := 0x80 ≤ b ∧ b ≤ 0xbf

/-- The bytes that may come second in a character of three or four bytes. -/
def isSecond (lead b : UInt8) : Bool :=
  (if lead = 0xe0 then 0xa0 else if lead = 0xf0 then 0x90 else 0x80) ≤ b ∧
    b ≤ if lead = 0xed then 0x9f else if lead = 0xf4 then 0x8f else 0xbf

/-- The code of a character, from the bits of its first byte and its other bytes. -/
def code (lead : Nat) (tail : List UInt8) : Nat :=
  tail.foldl (fun code b => code * 64 + b.toNat % 64) lead

/-- The character that the bytes are, if they are exactly one. -/
def char? : List UInt8 → Option Char
  | [a] => if a < 0x80 then some (.ofNat a.toNat) else none
  | [a, b] => if width a = 2 ∧ isTail b then some (.ofNat (code (a.toNat % 32) [b])) else none
  | [a, b, c] =>
    if width a = 3 ∧ isSecond a b ∧ isTail c then some (.ofNat (code (a.toNat % 16) [b, c])) else none
  | [a, b, c, d] =>
    if width a = 4 ∧ isSecond a b ∧ isTail c ∧ isTail d then
      some (.ofNat (code (a.toNat % 8) [b, c, d]))
    else none
  | _ => none

/-- The bytes are characters one after the other. -/
def valid : List UInt8 → Bool
  | [] => true
  | a :: rest =>
    if (char? [a]).isSome then valid rest
    else
      match rest with
      | [] => false
      | b :: rest =>
        if (char? [a, b]).isSome then valid rest
        else
          match rest with
          | [] => false
          | c :: rest =>
            if (char? [a, b, c]).isSome then valid rest
            else
              match rest with
              | [] => false
              | d :: rest => (char? [a, b, c, d]).isSome && valid rest

end Utf8
