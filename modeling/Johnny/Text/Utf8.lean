import Johnny.Text.Quoted
import Johnny.Numeral

namespace Johnny

abbrev Bytes := List UInt8

namespace Text

def encode (text : List Char) : Bytes := text.flatMap String.utf8EncodeChar

inductive DecodeReason where
  | invalidStart
  | invalidContinuation
  | unexpectedEnd
  deriving DecidableEq

/-- The bytes that cannot be decoded: the position and value of the first, and their count. They
are the longest beginning of a valid sequence, or a single byte that begins none. -/
structure DecodeError where
  position : Nat
  first : UInt8
  count : Nat
  reason : DecodeReason
  deriving DecidableEq

def DecodeReason.message : DecodeReason → String
  | invalidStart => "invalid start byte"
  | invalidContinuation => "invalid continuation byte"
  | unexpectedEnd => "unexpected end of data"

def DecodeError.message (e : DecodeError) : String :=
  let bytes :=
    if e.count = 1 then
      "byte 0x" ++ String.ofList (hexadecimal 2 e.first.toNat)
        ++ " in position " ++ decimal e.position
    else
      "bytes in position " ++ decimal e.position ++ "-" ++ decimal (e.position + e.count - 1 : Nat)
  "'utf-8' codec can't decode " ++ bytes ++ ": " ++ e.reason.message

structure ByteRange where
  low : UInt8
  high : UInt8

def ByteRange.has (r : ByteRange) (b : UInt8) : Bool := r.low ≤ b && b ≤ r.high

def anyTail : ByteRange := ⟨0x80, 0xBF⟩

/-- What the first byte of a sequence tells: the bits it adds to the code point, and the ranges of
the bytes that have to follow. The range of the second byte shuts out sequences that are longer
than needed, surrogates and values beyond the last code point. -/
inductive Lead where
  | whole (bits : Nat)
  | opens (bits : Nat) (next : ByteRange) (later : List ByteRange)
  | stray

def lead (b : UInt8) : Lead :=
  let n := b.toNat
  if n < 0x80 then .whole n
  else if n < 0xC2 then .stray
  else if n < 0xE0 then .opens (n - 0xC0) anyTail []
  else if n = 0xE0 then .opens 0 ⟨0xA0, 0xBF⟩ [anyTail]
  else if n = 0xED then .opens 13 ⟨0x80, 0x9F⟩ [anyTail]
  else if n < 0xF0 then .opens (n - 0xE0) anyTail [anyTail]
  else if n = 0xF0 then .opens 0 ⟨0x90, 0xBF⟩ [anyTail, anyTail]
  else if n < 0xF4 then .opens (n - 0xF0) anyTail [anyTail, anyTail]
  else if n = 0xF4 then .opens 4 ⟨0x80, 0x8F⟩ [anyTail, anyTail]
  else .stray

structure Pending where
  first : UInt8
  taken : Nat
  bits : Nat
  next : ByteRange
  later : List ByteRange

def decodeFrom (position : Nat) : Option Pending → Bytes → Except DecodeError (List Char)
  | none, [] => .ok []
  | some p, [] => .error ⟨position - p.taken, p.first, p.taken, .unexpectedEnd⟩
  | none, b :: rest =>
    match lead b with
    | .whole bits => (decodeFrom (position + 1) none rest).map (Char.ofNat bits :: ·)
    | .opens bits next later => decodeFrom (position + 1) (some ⟨b, 1, bits, next, later⟩) rest
    | .stray => .error ⟨position, b, 1, .invalidStart⟩
  | some p, b :: rest =>
    if p.next.has b then
      let bits := 64 * p.bits + (b.toNat - 0x80)
      match p.later with
      | [] => (decodeFrom (position + 1) none rest).map (Char.ofNat bits :: ·)
      | next :: later =>
        decodeFrom (position + 1) (some ⟨p.first, p.taken + 1, bits, next, later⟩) rest
    else .error ⟨position - p.taken, p.first, p.taken, .invalidContinuation⟩

def decode (bytes : Bytes) : Except DecodeError (List Char) := decodeFrom 0 none bytes

end Text

end Johnny
