import DollarMath.Text.Basic
import DollarMath.Text.Quoted

/-!
# UTF-8

A text is stored as the bytes of its UTF-8 form.  Reading bytes back stops at the first fault,
which is the longest beginning of a character's form that cannot be completed.
-/

namespace DollarMath

/-- The content of a file or stream. -/
abbrev Bytes := List UInt8

namespace Utf8

/-- The UTF-8 form of a text. -/
def encode (text : Text) : Bytes :=
  text.flatMap String.utf8EncodeChar

/-- What is wrong with bytes that are the form of no text. -/
inductive Reason where
  /-- No character starts with this byte. -/
  | invalidStart
  /-- The byte behind these continues no character that starts with them. -/
  | invalidContinuation
  /-- The bytes end inside a character. -/
  | unexpectedEnd
  deriving DecidableEq, Repr

/-- A reason in words. -/
def Reason.message : Reason → Text
  | .invalidStart => "invalid start byte"
  | .invalidContinuation => "invalid continuation byte"
  | .unexpectedEnd => "unexpected end of data"

/-- A place at which bytes are the form of no text. -/
structure Fault where
  /-- How many bytes stand before the faulty ones. -/
  position : Nat
  /-- The first faulty byte. -/
  first : UInt8
  /-- How many bytes are faulty. -/
  length : Nat
  /-- What is wrong with them. -/
  reason : Reason
  deriving DecidableEq, Repr

/-- A fault in words.  A single byte is shown with its value. -/
def Fault.message (fault : Fault) : Text :=
  let place :=
    if fault.length = 1 then
      " byte 0x" ++ Text.hexadecimal 2 fault.first.toNat ++ " in position " ++
        Text.decimal fault.position
    else
      " bytes in position " ++ Text.decimal fault.position ++ "-" ++
        Text.decimal (fault.position + fault.length - 1)
  "'utf-8' codec can't decode" ++ place ++ ": " ++ fault.reason.message

/-- The first and the last byte of a range. -/
abbrev ByteRange := UInt8 × UInt8

/-- The bytes that can stand at most places behind the first byte of a character. -/
def continuation : ByteRange :=
  (0x80, 0xBF)

/-- The part of a code point that a first byte carries, and the ranges of the bytes that have to
follow it. -/
def start? (byte : UInt8) : Option (Nat × List ByteRange) :=
  let code := byte.toNat
  if byte < 0x80 then some (code, [])
  else if byte < 0xC2 then none
  else if byte < 0xE0 then some (code - 0xC0, [continuation])
  else if byte = 0xE0 then some (code - 0xE0, [(0xA0, 0xBF), continuation])
  else if byte = 0xED then some (code - 0xE0, [(0x80, 0x9F), continuation])
  else if byte < 0xF0 then some (code - 0xE0, [continuation, continuation])
  else if byte = 0xF0 then some (code - 0xF0, [(0x90, 0xBF), continuation, continuation])
  else if byte < 0xF4 then some (code - 0xF0, [continuation, continuation, continuation])
  else if byte = 0xF4 then some (code - 0xF0, [(0x80, 0x8F), continuation, continuation])
  else none

/-- Reads bytes of the given ranges and adds what they carry to `value`.  A failure comes with
the number of bytes that fitted. -/
def readRest : List ByteRange → Nat → Bytes → Except (Nat × Reason) (Nat × Bytes)
  | [], value, bytes => .ok (value, bytes)
  | _ :: _, _, [] => .error (0, .unexpectedEnd)
  | (low, high) :: ranges, value, byte :: bytes =>
      if low ≤ byte ∧ byte ≤ high then
        match readRest ranges (64 * value + (byte.toNat - 0x80)) bytes with
        | .error (fitting, reason) => .error (fitting + 1, reason)
        | .ok result => .ok result
      else .error (0, .invalidContinuation)

theorem length_le_of_readRest {ranges : List ByteRange} {value result : Nat} {bytes rest : Bytes}
    (read : readRest ranges value bytes = .ok (result, rest)) : rest.length ≤ bytes.length := by
  fun_induction readRest ranges value bytes with
  | case1 => simp_all
  | case2 => simp at read
  | case3 => simp at read
  | case4 low high ranges value byte bytes _ result next ih =>
      obtain rfl := Except.ok.inj read
      exact Nat.le_succ_of_le (ih next)
  | case5 => simp at read

/-- The text of which `bytes` are the form, when `position` bytes have been read before them. -/
def decodeFrom (position : Nat) : Bytes → Except Fault Text
  | [] => .ok []
  | first :: bytes =>
      match start? first with
      | none => .error ⟨position, first, 1, .invalidStart⟩
      | some (value, ranges) =>
          match _ : readRest ranges value bytes with
          | .error (fitting, reason) => .error ⟨position, first, fitting + 1, reason⟩
          | .ok (value, rest) =>
              (decodeFrom (position + 1 + ranges.length) rest).map (Char.ofNat value :: ·)
termination_by bytes => bytes.length
decreasing_by exact Nat.lt_succ_of_le (length_le_of_readRest (by assumption))

/-- The text of which these bytes are the form. -/
def decode (bytes : Bytes) : Except Fault Text :=
  decodeFrom 0 bytes

end Utf8
end DollarMath
