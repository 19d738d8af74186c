import Mathlib.Data.List.TakeWhile
import Mathlib.Tactic.Common

/-! # Byte strings and buffers

The C library calls on strings and buffers that the sources use, over byte
lists. -/

set_option autoImplicit false

namespace ProjectOwl

def ascii (text : String) : List UInt8 := text.toList.map fun c => c.toNat.toUInt8

/-- The digits `%u` prints. -/
def decimal (n : Nat) : List UInt8 := (Nat.toDigits 10 n).map fun c => c.toNat.toUInt8

theorem decimal_length_le_iff (n digits : Nat) (positive : 0 < digits) :
    (decimal n).length ≤ digits ↔ n < Nat.pow 10 digits := by
  rw [decimal, List.length_map]
  exact Nat.length_toDigits_le_iff (by decide) positive

def zeros (n : Nat) : List UInt8 := List.replicate n 0

@[simp] theorem zeros_length (n : Nat) : (zeros n).length = n :=
  List.length_replicate

@[simp] theorem zeros_append (m n : Nat) : zeros m ++ zeros n = zeros (m + n) :=
  List.replicate_append_replicate

@[simp] theorem drop_zeros (m n : Nat) : (zeros n).drop m = zeros (n - m) :=
  List.drop_replicate

theorem zeros_succ (n : Nat) : zeros (n + 1) = 0 :: zeros n :=
  List.replicate_succ

/-- The C string a `char` array holds. -/
def cString (bytes : List UInt8) : List UInt8 := bytes.takeWhile (· ≠ 0)

/-- `strncpy(buffer, msg, count)`: at most `count` bytes of the C string, padded
with zeros up to `count`; the rest of the buffer is not touched. -/
def strncpy (buffer msg : List UInt8) (count : Nat) : List UInt8 :=
  let copied := (cString msg).take count
  copied ++ zeros (count - copied.length) ++ buffer.drop count

/-- `memcpy(buffer + offset, bytes, size)`. -/
def memcpy (buffer : List UInt8) (offset : Nat) (bytes : List UInt8) : List UInt8 :=
  buffer.take offset ++ bytes ++ buffer.drop (offset + bytes.length)

end ProjectOwl
