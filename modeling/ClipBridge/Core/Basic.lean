import Mathlib.Data.List.Basic

/-!
# Bytes, ids, clocks and text

The vocabulary both halves of the program share: what `core` and `relay` take from Rust's
standard library. A clock reading is a number of nanoseconds, the resolution of `Instant` and
`Duration`; an id or a name is a string; text is read character by character, with Rust's own
notions of a control character and of white space.
-/

namespace ClipBridge

abbrev Bytes := List UInt8

abbrev GroupId := String

abbrev DeviceId := String

/-! ## Time -/

/-- A reading of the monotonic clock, in nanoseconds. -/
abbrev Instant := Nat

/-- A span of time, in nanoseconds. -/
abbrev Duration := Nat

def Duration.fromSecs (n : Nat) : Duration := n * 1000000000

/-- Like Rust's, zero when `earlier` is later. -/
def Instant.durationSince (now earlier : Instant) : Duration := now - earlier

/-! ## Characters -/

/-- `char::is_control`: the general category `Cc`. -/
def isControl (c : Char) : Bool :=
  c.toNat < 0x20 || (0x7f ≤ c.toNat && c.toNat < 0xa0)

/-- `char::is_whitespace`: the property `White_Space`. -/
def isWhitespace (c : Char) : Bool :=
  (0x09 ≤ c.toNat && c.toNat ≤ 0x0d) || c.toNat == 0x20 || c.toNat == 0x85 || c.toNat == 0xa0 ||
    c.toNat == 0x1680 || (0x2000 ≤ c.toNat && c.toNat ≤ 0x200a) || c.toNat == 0x2028 ||
    c.toNat == 0x2029 || c.toNat == 0x202f || c.toNat == 0x205f || c.toNat == 0x3000

/-! ## Trimming -/

/-- Drop the characters that satisfy `p` from both ends: Rust's `trim_matches`. -/
def trimMatches (p : Char → Bool) (cs : List Char) : List Char :=
  (((cs.dropWhile p).reverse).dropWhile p).reverse

/-- `str::trim`. -/
def trim (cs : List Char) : List Char := trimMatches isWhitespace cs

end ClipBridge
