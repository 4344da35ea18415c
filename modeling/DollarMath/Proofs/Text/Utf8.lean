import DollarMath.Text.Utf8
import Mathlib.Data.Nat.Basic

/-!
# Reading a text back

The bytes of a text are read back as the text.  A character has a first byte that tells how many
bytes follow, and each of these carries six bits; the ranges of the byte that follows first leave
out only what no character needs.
-/

namespace DollarMath
namespace Utf8

theorem readRest_cons {low high : UInt8} {ranges : List ByteRange} {value bits : Nat}
    {bytes : Bytes} {result : Nat × Bytes} (small : bits < 64) (above : low.toNat ≤ bits + 128)
    (below : bits + 128 ≤ high.toNat)
    (read : readRest ranges (64 * value + bits) bytes = .ok result) :
    readRest ((low, high) :: ranges) value (UInt8.ofNat (bits + 128) :: bytes) = .ok result := by
  have byte : (UInt8.ofNat (bits + 128)).toNat = bits + 128 := by
    rw [UInt8.toNat_ofNat']
    omega
  have fits : low ≤ UInt8.ofNat (bits + 128) ∧ UInt8.ofNat (bits + 128) ≤ high := by
    rw [UInt8.le_iff_toNat_le, UInt8.le_iff_toNat_le, byte]
    exact ⟨above, below⟩
  rw [readRest, if_pos fits, byte, Nat.add_sub_cancel, read]

theorem readRest_continuation {ranges : List ByteRange} {value bits : Nat} {bytes : Bytes}
    {result : Nat × Bytes} (small : bits < 64)
    (read : readRest ranges (64 * value + bits) bytes = .ok result) :
    readRest (continuation :: ranges) value (UInt8.ofNat (bits + 128) :: bytes) = .ok result := by
  refine readRest_cons small ?_ ?_ read
  · exact Nat.le_add_left 128 bits
  · change bits + 128 ≤ 191
    omega

section First

theorem start?_one : ∀ code < 128, start? (UInt8.ofNat code) = some (code, []) := by
  decide

theorem start?_two : ∀ code < 32,
    code < 2 ∨ start? (UInt8.ofNat (code + 192)) = some (code, [continuation]) := by
  decide

/-- The range of the byte behind the first of three. -/
def secondOfThree (code : Nat) : ByteRange :=
  if code = 0 then (0xA0, 0xBF) else if code = 13 then (0x80, 0x9F) else continuation

theorem start?_three : ∀ code < 16,
    start? (UInt8.ofNat (code + 224)) = some (code, [secondOfThree code, continuation]) := by
  decide

/-- The range of the byte behind the first of four. -/
def secondOfFour (code : Nat) : ByteRange :=
  if code = 0 then (0x90, 0xBF) else if code = 4 then (0x80, 0x8F) else continuation

theorem start?_four : ∀ code < 5, start? (UInt8.ofNat (code + 240)) =
    some (code, [secondOfFour code, continuation, continuation]) := by
  decide

end First

/-- Bytes that are read as one code point, whatever follows them. -/
def Reads (bytes : Bytes) (code : Nat) : Prop :=
  ∃ first tail value ranges, bytes = first :: tail ∧ start? first = some (value, ranges) ∧
    ∀ rest, readRest ranges value (tail ++ rest) = .ok (code, rest)

section Forms

variable {code : Nat}

theorem reads_one (small : code < 128) : Reads [UInt8.ofNat code] code :=
  ⟨_, _, _, _, rfl, start?_one code small, fun _ => rfl⟩

theorem reads_two (large : 128 ≤ code) (small : code < 2048) :
    Reads [UInt8.ofNat (code / 64 % 32 + 192), UInt8.ofNat (code % 64 + 128)] code := by
  have started := (start?_two (code / 64 % 32) (by omega)).resolve_left (by omega)
  refine ⟨_, _, _, _, rfl, started, fun rest => ?_⟩
  refine readRest_continuation (by omega) ?_
  have whole : 64 * (code / 64 % 32) + code % 64 = code := by omega
  rw [whole, readRest]
  rfl

theorem reads_three (large : 2048 ≤ code) (small : code < 65536)
    (valid : code < 0xD800 ∨ 0xDFFF < code) :
    Reads [UInt8.ofNat (code / 4096 % 16 + 224), UInt8.ofNat (code / 64 % 64 + 128),
      UInt8.ofNat (code % 64 + 128)] code := by
  refine ⟨_, _, _, _, rfl, start?_three (code / 4096 % 16) (by omega), fun rest => ?_⟩
  have whole : 64 * (64 * (code / 4096 % 16) + code / 64 % 64) + code % 64 = code := by omega
  have last : readRest [continuation] (64 * (code / 4096 % 16) + code / 64 % 64)
      (UInt8.ofNat (code % 64 + 128) :: rest) = .ok (code, rest) := by
    refine readRest_continuation (by omega) ?_
    rw [whole, readRest]
  rw [secondOfThree]
  split
  · rename_i least
    refine readRest_cons (by omega) ?_ ?_ last
    · change 160 ≤ code / 64 % 64 + 128
      omega
    · change code / 64 % 64 + 128 ≤ 191
      omega
  · split
    · rename_i surrogates
      refine readRest_cons (by omega) ?_ ?_ last
      · exact Nat.le_add_left 128 _
      · change code / 64 % 64 + 128 ≤ 159
        omega
    · exact readRest_continuation (by omega) last

theorem reads_four (large : 65536 ≤ code) (valid : code < 0x110000) :
    Reads [UInt8.ofNat (code / 262144 % 8 + 240), UInt8.ofNat (code / 4096 % 64 + 128),
      UInt8.ofNat (code / 64 % 64 + 128), UInt8.ofNat (code % 64 + 128)] code := by
  refine ⟨_, _, _, _, rfl, start?_four (code / 262144 % 8) (by omega), fun rest => ?_⟩
  have whole : 64 * (64 * (64 * (code / 262144 % 8) + code / 4096 % 64) + code / 64 % 64) +
      code % 64 = code := by
    omega
  have last : readRest [continuation, continuation]
      (64 * (code / 262144 % 8) + code / 4096 % 64)
      (UInt8.ofNat (code / 64 % 64 + 128) :: UInt8.ofNat (code % 64 + 128) :: rest) =
        .ok (code, rest) := by
    refine readRest_continuation (by omega) (readRest_continuation (by omega) ?_)
    rw [whole, readRest]
  rw [secondOfFour]
  split
  · rename_i least
    refine readRest_cons (by omega) ?_ ?_ last
    · change 144 ≤ code / 4096 % 64 + 128
      omega
    · change code / 4096 % 64 + 128 ≤ 191
      omega
  · split
    · rename_i greatest
      refine readRest_cons (by omega) ?_ ?_ last
      · exact Nat.le_add_left 128 _
      · change code / 4096 % 64 + 128 ≤ 143
        omega
    · exact readRest_continuation (by omega) last

end Forms

theorem reads_utf8EncodeChar (c : Char) : Reads (String.utf8EncodeChar c) c.toNat := by
  have valid : c.toNat < 0xD800 ∨ 0xDFFF < c.toNat ∧ c.toNat < 0x110000 := c.valid
  have form : String.utf8EncodeChar c =
      if c.toNat ≤ 127 then [UInt8.ofNat c.toNat]
      else if c.toNat ≤ 2047 then
        [UInt8.ofNat (c.toNat / 64 % 32 + 192), UInt8.ofNat (c.toNat % 64 + 128)]
      else if c.toNat ≤ 65535 then
        [UInt8.ofNat (c.toNat / 4096 % 16 + 224), UInt8.ofNat (c.toNat / 64 % 64 + 128),
          UInt8.ofNat (c.toNat % 64 + 128)]
      else
        [UInt8.ofNat (c.toNat / 262144 % 8 + 240), UInt8.ofNat (c.toNat / 4096 % 64 + 128),
          UInt8.ofNat (c.toNat / 64 % 64 + 128), UInt8.ofNat (c.toNat % 64 + 128)] := rfl
  rw [form]
  split
  · exact reads_one (by omega)
  · split
    · exact reads_two (by omega) (by omega)
    · split
      · exact reads_three (by omega) (by omega) (by omega)
      · exact reads_four (by omega) (by omega)

/-- A character is read before what follows it. -/
theorem decodeFrom_append {bytes : Bytes} {c : Char} (reads : Reads bytes c.toNat)
    (position : Nat) (rest : Bytes) {text : Text}
    (decoded : ∀ position, decodeFrom position rest = .ok text) :
    decodeFrom position (bytes ++ rest) = .ok (c :: text) := by
  obtain ⟨first, tail, value, ranges, rfl, started, read⟩ := reads
  rw [List.cons_append, decodeFrom, started]
  simp only
  split
  · rename_i failed
    rw [read rest] at failed
    cases failed
  · rename_i found
    rw [read rest] at found
    cases found
    rw [decoded, Char.ofNat_toNat]
    rfl

/-- The bytes of a text are read back as the text. -/
theorem decode_encode (text : Text) : decode (encode text) = .ok text := by
  have general : ∀ position, decodeFrom position (encode text) = .ok text := by
    induction text with
    | nil =>
        intro position
        rw [encode, List.flatMap_nil, decodeFrom]
    | cons c text ih =>
        intro position
        exact decodeFrom_append (reads_utf8EncodeChar c) position _ ih
  exact general 0

end Utf8
end DollarMath
