import Mathlib.Algebra.Ring.Nat
import Mathlib.Data.List.Basic
import Mathlib.Tactic.Common
import NewlifeCore.CodePoints

/-!
# Reading base64

The decoder skips what is no letter, and stops at the padding that ends a quad.  What the URL-safe
encoding writes, padded to quads again, is read back as the bytes it was written from.
-/

namespace NewlifeCore

/-! ## 1. Numbers in bytes -/

namespace Bytes

/-- `to_bytes(length, "big")`. -/
def ofNat : Nat → Nat → Bytes
  | 0, _ => []
  | length + 1, n => ofNat length (n / 256) ++ [UInt8.ofNat n]

/-- `int.from_bytes(raw, "big")`. -/
def toNat (raw : Bytes) : Nat := raw.foldl (fun n b => n * 256 + b.toNat) 0

@[simp] theorem length_ofNat (length n : Nat) : (ofNat length n).length = length := by
  induction length generalizing n with
  | zero => rfl
  | succ length ih => rw [ofNat, List.length_append, ih, List.length_singleton]

theorem toNat_concat (raw : Bytes) (b : UInt8) :
    toNat (raw ++ [b]) = toNat raw * 256 + b.toNat := by
  simp [toNat]

/-- The bytes of a number are those of its residue. -/
theorem toNat_ofNat (length n : Nat) : toNat (ofNat length n) = n % 256 ^ length := by
  induction length generalizing n with
  | zero => simp [ofNat, toNat, Nat.mod_one]
  | succ length ih =>
    have hlast : (UInt8.ofNat n).toNat = n % 256 := by simp
    rw [ofNat, toNat_concat, ih, hlast, Nat.pow_succ', Nat.mod_mul]
    omega

theorem toNat_ofNat_of_lt {length n : Nat} (h : n < 256 ^ length) : toNat (ofNat length n) = n := by
  rw [toNat_ofNat, Nat.mod_eq_of_lt h]

end Bytes

/-! ## 2. The text of ASCII -/

namespace PyStr

/-- The byte of an ASCII code point. -/
def asciiByte (c : CodePoint) : UInt8 := UInt8.ofNat c.val

theorem isScalar_of_ascii {s : PyStr} (h : s.IsAscii) : s.IsScalar := by
  intro c hc hsurrogate
  have := h c hc
  omega

/-- ASCII is encoded a byte a code point. -/
theorem encode_ascii {s : PyStr} (h : s.IsAscii) : s.encode = some (s.map asciiByte) := by
  rw [encode, if_pos (isScalar_of_ascii h)]
  congr 1
  induction s with
  | nil => rfl
  | cons c s ih =>
    have hhead : utf8Bytes c = [asciiByte c] := by
      have hc : c.val < 0x80 := h c (by simp)
      simp [utf8Bytes, asciiByte, hc]
    rw [List.flatMap_cons, hhead, ih fun d hd => h d (List.mem_cons_of_mem _ hd), List.map_cons,
      List.singleton_append]

theorem isAscii_append {s t : PyStr} (hs : s.IsAscii) (ht : t.IsAscii) : (s ++ t).IsAscii := by
  intro c hc
  rcases List.mem_append.mp hc with hc | hc
  · exact hs c hc
  · exact ht c hc

end PyStr

namespace Base64

/-! ## 3. The decoder -/

/-- The six bits of a letter, either alphabet's; every other character is skipped. -/
def sextet (c : UInt8) : Option Nat :=
  let n := c.toNat
  if 65 ≤ n ∧ n ≤ 90 then some (n - 65)
  else if 97 ≤ n ∧ n ≤ 122 then some (n - 71)
  else if 48 ≤ n ∧ n ≤ 57 then some (n + 4)
  else if n = 43 ∨ n = 45 then some 62
  else if n = 47 ∨ n = 95 then some 63
  else none

/-- How far a quad has been read, with the bits of its last letter that no byte has yet. -/
inductive Quad
  | zero
  | one (left : Nat)
  | two (left : Nat)
  | three (left : Nat)

namespace Quad

def pos : Quad → Nat
  | zero => 0
  | one _ => 1
  | two _ => 2
  | three _ => 3

/-- One more letter: the byte that it completes, and how far the quad is then. -/
def push : Quad → Nat → Bytes × Quad
  | zero, v => ([], one v)
  | one left, v => ([UInt8.ofNat (left * 4 + v / 16)], two (v % 16))
  | two left, v => ([UInt8.ofNat (left * 16 + v / 4)], three (v % 4))
  | three left, v => ([UInt8.ofNat (left * 64 + v)], zero)

end Quad

/-- `a2b_base64` from some quad and number of pads on; none is a `binascii.Error`. -/
def scan : Quad → Nat → Bytes → Option Bytes
  | quad, _, [] => if quad.pos = 0 then some [] else none
  | quad, pads, c :: rest =>
    if c = 61 then
      if 2 ≤ quad.pos then
        -- the bytes of a padded quad are out already: nothing after it is read
        if 4 ≤ quad.pos + (pads + 1) then some [] else scan quad (pads + 1) rest
      else scan quad pads rest
    else
      match sextet c with
      | none => scan quad pads rest
      | some v => (scan (quad.push v).2 0 rest).map ((quad.push v).1 ++ ·)

/-- `urlsafe_b64decode`. -/
def urlsafeDecode (raw : Bytes) : Option Bytes := scan .zero 0 raw

/-- `"=" * (-length % 4)`. -/
def padding (length : Nat) : PyStr := List.replicate ((4 - length % 4) % 4) (PyStr.ofChar '=')

/-! ## 4. What a letter does -/

def letterByte (n : Nat) : UInt8 := PyStr.asciiByte (letter n)

theorem sextet_letterByte {n : Nat} (h : n < 64) :
    letterByte n ≠ 61 ∧ sextet (letterByte n) = some n := by
  revert n
  decide

theorem scan_letterByte {n : Nat} (h : n < 64) (quad : Quad) (pads : Nat) (rest : Bytes) :
    scan quad pads (letterByte n :: rest) =
      (scan (quad.push n).2 0 rest).map ((quad.push n).1 ++ ·) := by
  obtain ⟨hpad, hvalue⟩ := sextet_letterByte h
  rw [scan, if_neg hpad, hvalue]

theorem scan_pad_two {left : Nat} (rest : Bytes) :
    scan (.two left) 0 (61 :: 61 :: rest) = some [] := by
  simp [scan, Quad.pos]

theorem scan_pad_three {left : Nat} (rest : Bytes) :
    scan (.three left) 0 (61 :: rest) = some [] := by
  simp [scan, Quad.pos]

/-! ## 5. The round trip -/

/-- A byte is put together again from the bits before a cut and those after it. -/
theorem ofNat_cut {b : UInt8} {high low : Nat} (h : high + low = b.toNat) :
    UInt8.ofNat (high + low) = b := by
  rw [h, UInt8.ofNat_toNat]

theorem scan_three (a b c : UInt8) (rest : Bytes) :
    scan .zero 0 (letterByte (a.toNat / 4) :: letterByte (a.toNat % 4 * 16 + b.toNat / 16) ::
        letterByte (b.toNat % 16 * 4 + c.toNat / 64) :: letterByte (c.toNat % 64) :: rest) =
      (scan .zero 0 rest).map ([a, b, c] ++ ·) := by
  have ha := a.toNat_lt
  have hb := b.toNat_lt
  have hc := c.toNat_lt
  have hfirst : UInt8.ofNat (a.toNat / 4 * 4 + (a.toNat % 4 * 16 + b.toNat / 16) / 16) = a :=
    ofNat_cut (by omega)
  have hsecond : UInt8.ofNat ((a.toNat % 4 * 16 + b.toNat / 16) % 16 * 16 +
      (b.toNat % 16 * 4 + c.toNat / 64) / 4) = b := ofNat_cut (by omega)
  have hthird : UInt8.ofNat ((b.toNat % 16 * 4 + c.toNat / 64) % 4 * 64 + c.toNat % 64) = c :=
    ofNat_cut (by omega)
  rw [scan_letterByte (by omega), scan_letterByte (by omega), scan_letterByte (by omega),
    scan_letterByte (by omega)]
  simp only [Quad.push, hfirst, hsecond, hthird, Option.map_map, Function.comp_def,
    List.nil_append, List.cons_append]

theorem scan_two (a b : UInt8) :
    scan .zero 0 [letterByte (a.toNat / 4), letterByte (a.toNat % 4 * 16 + b.toNat / 16),
      letterByte (b.toNat % 16 * 4), 61] = some [a, b] := by
  have ha := a.toNat_lt
  have hb := b.toNat_lt
  have hfirst : UInt8.ofNat (a.toNat / 4 * 4 + (a.toNat % 4 * 16 + b.toNat / 16) / 16) = a :=
    ofNat_cut (by omega)
  have hsecond : UInt8.ofNat ((a.toNat % 4 * 16 + b.toNat / 16) % 16 * 16 +
      b.toNat % 16 * 4 / 4) = b := ofNat_cut (by omega)
  rw [scan_letterByte (by omega), scan_letterByte (by omega), scan_letterByte (by omega)]
  simp only [Quad.push, hfirst, hsecond, scan_pad_three, Option.map_some, List.nil_append,
    List.cons_append]

theorem scan_one (a : UInt8) :
    scan .zero 0 [letterByte (a.toNat / 4), letterByte (a.toNat % 4 * 16), 61, 61] = some [a] := by
  have ha := a.toNat_lt
  have hfirst : UInt8.ofNat (a.toNat / 4 * 4 + a.toNat % 4 * 16 / 16) = a := ofNat_cut (by omega)
  rw [scan_letterByte (by omega), scan_letterByte (by omega)]
  simp only [Quad.push, hfirst, scan_pad_two, Option.map_some, List.nil_append, List.cons_append]

/-- The URL-safe encoding of some bytes, padded to quads. -/
def padded (raw : Bytes) : PyStr := urlsafeEncode raw ++ padding (urlsafeEncode raw).length

theorem padding_ascii (length : Nat) : (padding length).IsAscii := by
  intro c hc
  rw [List.eq_of_mem_replicate hc]
  decide

theorem padding_add_four (length : Nat) : padding (length + 4) = padding length := by
  rw [padding, Nat.add_mod_right, padding]

/-- Three bytes are four letters. -/
theorem padded_three (a b c : UInt8) (rest : Bytes) :
    padded (a :: b :: c :: rest) =
      [letter (a.toNat / 4), letter (a.toNat % 4 * 16 + b.toNat / 16),
        letter (b.toNat % 16 * 4 + c.toNat / 64), letter (c.toNat % 64)] ++ padded rest := by
  have hlength : (urlsafeEncode (a :: b :: c :: rest)).length =
      (urlsafeEncode rest).length + 4 := by
    simp [urlsafeEncode]
  rw [padded, hlength, padding_add_four, urlsafeEncode, List.append_assoc, padded]

/-- **The round trip of base64.** -/
theorem urlsafeDecode_padded (raw : Bytes) :
    urlsafeDecode ((padded raw).map PyStr.asciiByte) = some raw := by
  unfold urlsafeDecode
  induction raw using urlsafeEncode.induct with
  | case1 a b c rest ih =>
    rw [padded_three, List.map_append]
    refine (scan_three a b c ((padded rest).map PyStr.asciiByte)).trans ?_
    rw [ih]
    rfl
  | case2 a b => exact scan_two a b
  | case3 a => exact scan_one a
  | case4 => rfl

theorem padded_ascii (raw : Bytes) : (padded raw).IsAscii :=
  PyStr.isAscii_append (urlsafeEncode_ascii raw) (padding_ascii _)

/-- The text without its padding is as long as its bits ask for. -/
theorem length_urlsafeEncode (raw : Bytes) :
    (urlsafeEncode raw).length = (raw.length * 4 + 2) / 3 := by
  induction raw using urlsafeEncode.induct with
  | case1 a b c rest ih =>
    simp only [urlsafeEncode, List.length_append, List.length_cons, List.length_nil, ih]
    omega
  | case2 a b => simp [urlsafeEncode]
  | case3 a => simp [urlsafeEncode]
  | case4 => rfl

end Base64

end NewlifeCore
