/-!
# Text

Documents, lines and names are sequences of code points, so that every offset, count and
column of this library counts code points. This file fixes the type and the few operations
that every later file uses: the letters of a name, joining, and cutting at a character.
-/

namespace GqlScan

/-- A text is the list of its code points. -/
abbrev Text := List Char

namespace Text

/-- The letters of a GraphQL name: ASCII letters, ASCII digits and the underscore. -/
def isNameChar (c : Char) : Bool := c.isAlphanum || c == '_'

/-- The letters of a type reference: those of a name, the list brackets and the bang. -/
def isTypeChar (c : Char) : Bool := isNameChar c || c == '[' || c == ']' || c == '!'

/-- Join texts, or other sequences, with a separator between neighbours. -/
def join {α : Type} (separator : List α) : List (List α) → List α
  | [] => []
  | [t] => t
  | t :: u :: ts => t ++ separator ++ join separator (u :: ts)

/-- Lines joined by a line feed, with none after the last. -/
def joinLines (lines : List Text) : Text := join ['\n'] lines

/-- The text before the first `c`, or the whole text when there is none. -/
def before (c : Char) (t : Text) : Text := t.takeWhile (· != c)

/-- The text after the first `c`, empty when there is none. -/
def after (c : Char) (t : Text) : Text := (t.dropWhile (· != c)).tail

/-- The pieces between the occurrences of `c`: one more than there are occurrences. -/
def splitOn {α : Type} [DecidableEq α] (c : α) : List α → List (List α)
  | [] => [[]]
  | d :: rest =>
    if d = c then [] :: splitOn c rest
    else
      match splitOn c rest with
      | [] => [[d]]
      | piece :: pieces => (d :: piece) :: pieces

/-- The decimal digits of a natural number. -/
def ofNat (n : Nat) : Text := Nat.toDigits 10 n

/-- The decimal digits of an integer, after a minus sign when it is negative. -/
def ofInt : Int → Text
  | .ofNat n => ofNat n
  | .negSucc n => '-' :: ofNat (n + 1)

/-- The lower-case hexadecimal digits of a number, padded with zeros to a least width. -/
def hex (width n : Nat) : Text :=
  let digits := Nat.toDigits 16 n
  List.replicate (width - digits.length) '0' ++ digits

/-- The value of a hexadecimal digit. -/
def hexDigit? (c : Char) : Option Nat :=
  if c.isDigit then some (c.toNat - '0'.toNat)
  else if 'a' ≤ c ∧ c ≤ 'f' then some (c.toNat - 'a'.toNat + 10)
  else if 'A' ≤ c ∧ c ≤ 'F' then some (c.toNat - 'A'.toNat + 10)
  else none

/-- Behind the first of some texts that are joined stand the others, each behind a separator. -/
theorem join_cons {α : Type} (separator t : List α) (ts : List (List α)) :
    join separator (t :: ts) = t ++ ts.flatMap (separator ++ ·) := by
  induction ts generalizing t with
  | nil => exact (List.append_nil t).symm
  | cons u ts ih => rw [join, ih, List.flatMap_cons, List.append_assoc, List.append_assoc]

/-- Cutting a text at its first `c` loses nothing but that `c`. -/
theorem before_append_after {c : Char} {t : Text} (h : c ∈ t) :
    before c t ++ c :: after c t = t := by
  induction t with
  | nil => cases h
  | cons d t ih =>
    by_cases hd : d = c
    · subst hd; simp [before, after]
    · have ht : c ∈ t := by
        rcases List.mem_cons.1 h with h | h
        · exact absurd h.symm hd
        · exact h
      have := ih ht
      simp only [before, after] at this ⊢
      simp [hd, this]

end Text

end GqlScan
