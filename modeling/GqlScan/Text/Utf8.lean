import GqlScan.Text.Basic

/-!
# UTF-8

Bytes to characters and back. A sequence of bytes is read as *pieces*: each piece is either a
character, or a fault that spans the longest run of bytes that could still have begun a
character. Strict decoding stops at the first fault and says where it is; lenient decoding puts
one replacement character for each fault.
-/

namespace GqlScan.Text.Utf8

/-- Why some bytes are not a character. -/
inductive Reason where
  /-- no character starts with this byte -/
  | invalidStart
  /-- a byte cannot continue the character that was begun -/
  | invalidContinuation
  /-- the input ends inside a character -/
  | unexpectedEnd
  deriving DecidableEq, Repr

/-- The wording of a reason. -/
def Reason.message : Reason → Text
  | .invalidStart => "invalid start byte".toList
  | .invalidContinuation => "invalid continuation byte".toList
  | .unexpectedEnd => "unexpected end of data".toList

/-- What stands at the front of some bytes, with the number of bytes it spans. -/
inductive Piece where
  | char (c : Char) (width : Nat)
  | fault (reason : Reason) (width : Nat)
  deriving DecidableEq, Repr

/-- The number of bytes that a piece spans. -/
def Piece.width : Piece → Nat
  | .char _ w => w
  | .fault _ w => w

/-- What the first byte of a longer character announces: the number of bytes that follow, the
bits that it contributes and the bounds on the second byte. The bounds exclude overlong forms,
surrogates and code points past the last. -/
structure Lead where
  owed : Nat
  bits : Nat
  low : Nat := 0x80
  high : Nat := 0xBF
  deriving Repr

/-- The announcement of a first byte above ASCII, or none when no character starts with it. -/
def lead? (b : Nat) : Option Lead :=
  if b < 0xC2 then none
  else if b < 0xE0 then some { owed := 1, bits := b - 0xC0 }
  else if b = 0xE0 then some { owed := 2, bits := 0, low := 0xA0 }
  else if b = 0xED then some { owed := 2, bits := 0xD, high := 0x9F }
  else if b < 0xF0 then some { owed := 2, bits := b - 0xE0 }
  else if b = 0xF0 then some { owed := 3, bits := 0, low := 0x90 }
  else if b < 0xF4 then some { owed := 3, bits := b - 0xF0 }
  else if b = 0xF4 then some { owed := 3, bits := 4, high := 0x8F }
  else none

/-- The rest of a character of which `width` bytes, worth `bits`, have been read and `owed`
bytes are missing. -/
def continuation (width bits : Nat) : Nat → Nat → Nat → List UInt8 → Piece
  | 0, _, _, _ => .char (Char.ofNat bits) width
  | _ + 1, _, _, [] => .fault .unexpectedEnd width
  | owed + 1, low, high, b :: rest =>
    if low ≤ b.toNat ∧ b.toNat ≤ high then
      continuation (width + 1) (bits * 64 + (b.toNat - 0x80)) owed 0x80 0xBF rest
    else .fault .invalidContinuation width

/-- The piece that starts with byte `b` when `rest` follows it. -/
def front (b : UInt8) (rest : List UInt8) : Piece :=
  if b.toNat < 0x80 then .char (Char.ofNat b.toNat) 1
  else
    match lead? b.toNat with
    | none => .fault .invalidStart 1
    | some l => continuation 1 l.bits l.owed l.low l.high rest

/-- The pieces of a sequence of bytes. -/
def pieces : List UInt8 → List Piece
  | [] => []
  | b :: rest =>
    let piece := front b rest
    piece :: pieces (rest.drop (piece.width - 1))
termination_by bytes => bytes.length

/-- The first fault of a sequence of bytes: its place, its span and its first byte. -/
structure DecodeError where
  reason : Reason
  start : Nat
  width : Nat
  byte : Nat
  deriving DecidableEq, Repr

/-- The wording of a decoding error. A fault of one byte shows the byte, a longer one the
positions of its first and last byte. -/
def DecodeError.message (e : DecodeError) : Text :=
  let place :=
    if e.width = 1 then
      "byte 0x".toList ++ hex 2 e.byte ++ " in position ".toList ++ ofNat e.start
    else
      "bytes in position ".toList ++ ofNat e.start ++ ['-'] ++ ofNat (e.start + e.width - 1)
  "'utf-8' codec can't decode ".toList ++ place ++ ": ".toList ++ e.reason.message

/-- Decode bytes that start at position `start`, stopping at the first fault. -/
def decodeFrom (start : Nat) : List UInt8 → Except DecodeError Text
  | [] => .ok []
  | b :: rest =>
    match front b rest with
    | .char c width => do
      let later ← decodeFrom (start + width) (rest.drop (width - 1))
      return c :: later
    | .fault reason width => .error ⟨reason, start, width, b.toNat⟩
termination_by bytes => bytes.length

/-- Decode bytes strictly. -/
def decode (bytes : List UInt8) : Except DecodeError Text := decodeFrom 0 bytes

/-- The character that stands for bytes which are no character. -/
def replacement : Char := '\uFFFD'

/-- Decode bytes with one replacement character for each fault. -/
def decodeLenient (bytes : List UInt8) : Text :=
  (pieces bytes).map fun
    | .char c _ => c
    | .fault _ _ => replacement

/-- The bytes of a text. -/
def encode (t : Text) : List UInt8 := t.flatMap String.utf8EncodeChar

end GqlScan.Text.Utf8
