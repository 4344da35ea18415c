import DollarMath.Text.Utf8

/-!
# Request targets

A request says by its target what it is about.  A scheme and a host can stand in front of the path
of a target, a query and a fragment behind it.  The path is counted from the root, its dot segments
are followed, and its percent signs are resolved.  That is done twice, as the target is sent and as
it arrives.
-/

namespace DollarMath
namespace Service

/-- What a request is about, without the query and the fragment. -/
structure Target where
  /-- The name in front of the first colon. -/
  scheme : Text
  /-- What stands between two slashes and the next one. -/
  host : Text
  /-- The rest. -/
  path : Text
  deriving DecidableEq, Repr

namespace Target

/-- Whether a scheme can have this character. -/
def isSchemeChar (c : Char) : Bool :=
  c.isAlphanum || c ∈ ['+', '-', '.']

/-- The scheme of a target and what is behind the colon. -/
def cutScheme (text : Text) : Text × Text :=
  match text.span isSchemeChar with
  | (scheme, ':' :: rest) => if scheme.head?.all Char.isAlpha then (scheme, rest) else ([], text)
  | _ => ([], text)

/-- The host of a target without its scheme, and what is behind it. -/
def cutHost : Text → Text × Text
  | '/' :: '/' :: rest => rest.span (· ≠ '/')
  | text => ([], text)

/-- The target that a text spells. -/
def ofText (text : Text) : Target :=
  let (scheme, rest) := cutScheme (text.takeWhile fun c => c ≠ '?' && c ≠ '#')
  let (host, path) := cutHost rest
  ⟨scheme, host, path⟩

/-- The path from the root, behind one slash where a scheme or a host is missing. -/
def rooted (target : Target) : Text :=
  if target.scheme ≠ [] ∧ target.host ≠ [] then target.path
  else '/' :: target.path.dropWhile (· == '/')

/-- The segments passed, last one first, when one more is entered.  No way leads up from the
root. -/
def enter (passed : List Text) (segment : Text) : List Text :=
  if segment = Text.ofString "." then passed
  else if segment = Text.ofString ".." then if passed = [[]] then passed else passed.tail
  else segment :: passed

/-- A path with its dot segments followed. -/
def withoutDots (path : Text) : Text :=
  (Text.ofString "/").intercalate ((path.splitOn '/').foldl enter []).reverse

/-- The value of a byte that is a hexadecimal digit. -/
def hexValue? (byte : UInt8) : Option UInt8 :=
  if 0x30 ≤ byte ∧ byte ≤ 0x39 then some (byte - 0x30)
  else if 0x41 ≤ byte ∧ byte ≤ 0x46 then some (byte - 0x37)
  else if 0x61 ≤ byte ∧ byte ≤ 0x66 then some (byte - 0x57)
  else none

/-- The percent sign. -/
def percent : UInt8 :=
  0x25

/-- The byte that is spelled by a percent sign with two hexadecimal digits. -/
def spelledByte? (sign high low : UInt8) : Option UInt8 :=
  if sign = percent then
    (hexValue? high).bind fun high => (hexValue? low).map fun low => 16 * high + low
  else none

/-- Bytes with a byte for each one that is spelled. -/
def percentDecode : Bytes → Bytes
  | sign :: high :: low :: rest =>
      match spelledByte? sign high low with
      | some byte => byte :: percentDecode rest
      | none => sign :: percentDecode (high :: low :: rest)
  | bytes => bytes

/-- The path that a target asks for. -/
def asked (text : Text) : Bytes :=
  percentDecode (percentDecode (Utf8.encode (withoutDots (ofText text).rooted)))

/-- Bytes without the slashes at their end. -/
def withoutFinalSlashes (bytes : Bytes) : Bytes :=
  (bytes.reverse.dropWhile (· == 0x2F)).reverse

/-- Whether these bytes are a path.  A line feed behind it does not count. -/
def isPath (path : Text) (bytes : Bytes) : Bool :=
  bytes == Utf8.encode path || bytes == Utf8.encode (path ++ ['\n'])

/-- Whether a target asks for a path, or would without the slashes at its end. -/
def leadsTo (text path : Text) : Bool :=
  isPath path (asked text) || isPath path (withoutFinalSlashes (asked text))

end Target
end Service
end DollarMath
