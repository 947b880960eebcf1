import Mathlib.Data.List.Basic
import Mathlib.Tactic.Common

/-!
# Strings of code points

A Python `str` is a list of code points, the surrogates among them, which no encoding to UTF-8
takes.  Here are the strings, their UTF-8, and the base64 of bytes.
-/

namespace NewlifeCore

structure CodePoint where
  val : Nat
  val_lt : val < 0x110000
deriving DecidableEq

abbrev Bytes := List UInt8

/-- A Python `str`. -/
abbrev PyStr := List CodePoint

namespace PyStr

def IsAscii (s : PyStr) : Prop := ∀ c ∈ s, c.val < 0x80

instance (s : PyStr) : Decidable s.IsAscii := by unfold IsAscii; infer_instance

/-- No code point is a surrogate. -/
def IsScalar (s : PyStr) : Prop := ∀ c ∈ s, ¬(0xD800 ≤ c.val ∧ c.val ≤ 0xDFFF)

instance (s : PyStr) : Decidable s.IsScalar := by unfold IsScalar; infer_instance

/-- `partition`, without the separator. -/
def partition (s : PyStr) (separator : CodePoint) : PyStr × PyStr :=
  (s.takeWhile fun c => decide (c ≠ separator),
    (s.dropWhile fun c => decide (c ≠ separator)).drop 1)

/-! ## 1. UTF-8 -/

def utf8Bytes (c : CodePoint) : Bytes :=
  let byte (lead : Nat) (shift : Nat) : UInt8 := UInt8.ofNat (lead + c.val / shift)
  let tail (shift : Nat) : UInt8 := UInt8.ofNat (0x80 + c.val / shift % 64)
  if c.val < 0x80 then [byte 0 1]
  else if c.val < 0x800 then [byte 0xC0 64, tail 1]
  else if c.val < 0x10000 then [byte 0xE0 4096, tail 64, tail 1]
  else [byte 0xF0 262144, tail 4096, tail 64, tail 1]

/-- `encode()`; none is a `UnicodeEncodeError`. -/
def encode (s : PyStr) : Option Bytes :=
  if s.IsScalar then some (s.flatMap utf8Bytes) else none

/-! ## 2. The strings of Lean -/

theorem toNat_scalar (c : Char) :
    c.toNat < 0x110000 ∧ ¬(0xD800 ≤ c.toNat ∧ c.toNat ≤ 0xDFFF) := by
  have hvalid := c.valid
  simp only [UInt32.isValidChar, Nat.isValidChar] at hvalid
  show c.val.toNat < 0x110000 ∧ ¬(0xD800 ≤ c.val.toNat ∧ c.val.toNat ≤ 0xDFFF)
  omega

def ofChar (c : Char) : CodePoint := ⟨c.toNat, (toNat_scalar c).1⟩

/-- A text without surrogates. -/
def ofString (s : String) : PyStr := s.toList.map ofChar

end PyStr

/-! ## 3. base64 -/

namespace Base64

/-- The URL-safe alphabet. -/
def letterCode (n : Nat) : Nat :=
  if n < 26 then 65 + n
  else if n < 52 then 71 + n
  else if n < 62 then n - 4
  else if n = 62 then 45
  else 95

theorem letterCode_lt (n : Nat) : letterCode n < 0x80 := by
  unfold letterCode
  split_ifs <;> omega

def letter (n : Nat) : CodePoint := ⟨letterCode n, Nat.lt_trans (letterCode_lt n) (by decide)⟩

/-- `urlsafe_b64encode(raw).rstrip(b"=")`. -/
def urlsafeEncode : Bytes → PyStr
  | a :: b :: c :: rest =>
    [letter (a.toNat / 4), letter (a.toNat % 4 * 16 + b.toNat / 16),
      letter (b.toNat % 16 * 4 + c.toNat / 64), letter (c.toNat % 64)] ++ urlsafeEncode rest
  | [a, b] =>
    [letter (a.toNat / 4), letter (a.toNat % 4 * 16 + b.toNat / 16), letter (b.toNat % 16 * 4)]
  | [a] => [letter (a.toNat / 4), letter (a.toNat % 4 * 16)]
  | [] => []

theorem urlsafeEncode_ascii (raw : Bytes) : (urlsafeEncode raw).IsAscii := by
  induction raw using urlsafeEncode.induct with
  | case1 a b c rest ih =>
    intro x hx
    rcases List.mem_append.mp hx with hx | hx
    · simp only [List.mem_cons, List.not_mem_nil, or_false] at hx
      rcases hx with rfl | rfl | rfl | rfl <;> exact letterCode_lt _
    · exact ih x hx
  | case2 a b =>
    intro x hx
    simp only [urlsafeEncode, List.mem_cons, List.not_mem_nil, or_false] at hx
    rcases hx with rfl | rfl | rfl <;> exact letterCode_lt _
  | case3 a =>
    intro x hx
    simp only [urlsafeEncode, List.mem_cons, List.not_mem_nil, or_false] at hx
    rcases hx with rfl | rfl <;> exact letterCode_lt _
  | case4 => exact fun x hx => absurd hx List.not_mem_nil

example : urlsafeEncode [77, 97, 110, 255] = PyStr.ofString "TWFu_w" := by decide

end Base64

end NewlifeCore
