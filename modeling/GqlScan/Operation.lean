import GqlScan.Field
import GqlScan.Header

/-!
# Operations and their variables

An operation is a query, a mutation or a subscription with its variables and selected fields.
Variables are read from the text of the operation wherever they stand: a dollar sign, a name, a
colon and a type, with blanks allowed around the colon.
-/

namespace GqlScan

open Text

/-- A declared variable. -/
structure Variable where
  name : Text
  type : Text
  deriving DecidableEq, Repr

/-- A scanned operation. -/
structure Operation where
  kind : OperationKind
  name : Text
  parameters : List Variable := []
  fields : List Field := []
  deriving DecidableEq, Repr

namespace Variable

/-- A variable at the front of a text that follows a dollar sign, and the text after it. Name and
type are as long as possible. -/
def front? (t : Text) : Option (Variable × Text) := do
  let (name, more) ← name? t
  match trimStart more with
  | ':' :: rest =>
    let type := (trimStart rest).takeWhile isTypeChar
    if type = [] then none
    else return (⟨name, type⟩, (trimStart rest).dropWhile isTypeChar)
  | _ => none

theorem length_front?_lt {t rest : Text} {v : Variable} (h : front? t = some (v, rest)) :
    rest.length < t.length := by
  unfold front? at h
  cases hn : name? t with
  | none => simp [hn] at h
  | some p =>
    obtain ⟨name, more⟩ := p
    rw [hn] at h
    simp only [Option.bind_eq_bind, Option.bind_some] at h
    have hmore := (name?_suffix hn).length_le
    split at h
    · rename_i r hr
      split at h
      · cases h
      · cases h
        have h1 := length_trimStart_le more
        have h2 := length_trimStart_le r
        have h3 := (List.dropWhile_suffix (l := trimStart r) isTypeChar).length_le
        rw [hr, List.length_cons] at h1
        omega
    · cases h

/-- The variables of a line, from left to right and without overlap. Where a dollar sign starts
no variable the search goes on behind it. -/
def inLine (t : Text) : List Variable :=
  match t with
  | [] => []
  | c :: rest =>
    if c = '$' then
      match h : front? rest with
      | some (v, more) =>
        have := length_front?_lt h
        v :: inLine more
      | none => inLine rest
    else inLine rest
termination_by t.length

/-- The first occurrences of the members of a list. -/
def firsts (seen : List Variable) : List Variable → List Variable
  | [] => []
  | v :: rest => if v ∈ seen then firsts seen rest else v :: firsts (v :: seen) rest

/-- The variables of some lines, each once, in order of first appearance. -/
def inLines (lines : List Text) : List Variable := firsts [] (lines.flatMap inLine)

end Variable

end GqlScan
