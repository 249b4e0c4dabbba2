import GqlScan.Text.Basic

/-!
# Texts with halves of surrogate pairs

A text that another library hands over may hold what is no character: one half of a surrogate pair.
It is compared and cut like any other text. Where it becomes the name of a file it is written in
UTF-8, in which a half has no place; but some halves stand for single bytes that are no text, and
those are written as the bytes.
-/

namespace GqlScan

open Text

/-- A code point: a character, or a half of a surrogate pair. Halves are counted from U+D800. -/
inductive CodePoint where
  | char (c : Char)
  | half (n : Fin 0x800)
  deriving DecidableEq, Repr

namespace CodePoint

/-- Whether a code point is a half. -/
def isHalf : CodePoint → Bool
  | char _ => false
  | half _ => true

/-- Whether a code point is a half that stands for no byte: those from U+DC80 to U+DCFF do. -/
def isUnwritable : CodePoint → Bool
  | char _ => false
  | half n => n.val < 0x480 || 0x500 ≤ n.val

end CodePoint

/-- A sequence of code points. -/
abbrev Points := List CodePoint

namespace Points

/-- The code points of a text. -/
def ofText (t : Text) : Points := t.map .char

/-- The first half that cannot be written: its place, which half it is, and the number of halves
that stand there one behind another. -/
structure EncodeError where
  start : Nat
  half : Fin 0x800
  width : Nat
  deriving DecidableEq, Repr

/-- The wording of an encoding error. A single half is shown, of several the positions of the first
and the last. -/
def EncodeError.message (e : EncodeError) : Text :=
  let place :=
    if e.width = 1 then
      "character '\\u".toList ++ hex 4 (0xD800 + e.half.val) ++ "' in position ".toList
        ++ ofNat e.start
    else
      "characters in position ".toList ++ ofNat e.start ++ ['-'] ++ ofNat (e.start + e.width - 1)
  "'utf-8' codec can't encode ".toList ++ place ++ ": surrogates not allowed".toList

/-- Why code points cannot be written as the name of a file, if they cannot. -/
def encodeError? (t : Points) : Option EncodeError :=
  match t.dropWhile (!·.isUnwritable) with
  | .half n :: rest =>
    some ⟨(t.takeWhile (!·.isUnwritable)).length, n, (rest.takeWhile CodePoint.isHalf).length + 1⟩
  | _ => none

end Points

end GqlScan
