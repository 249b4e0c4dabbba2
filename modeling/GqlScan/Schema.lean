import GqlScan.Comment
import GqlScan.Field
import GqlScan.Notice
import GqlScan.Operation
import GqlScan.Selection.LineShape
import GqlScan.Text.Word

/-!
# Schema types

A schema type starts at a live line `type Name` and ends at a live line that holds nothing but a
closing brace. In between, every `name: Type` on a line is a field, wherever on the line it stands;
braces are not counted. A type that the next one interrupts is kept, one that the document leaves
open is dropped.

The scan is a fold of one step over the live lines, so that it can be cut between any two of them.
-/

namespace GqlScan

open Text

/-- A schema type. -/
structure TypeDefinition where
  name : Text
  fields : List Field := []
  isTable : Bool := false
  deriving DecidableEq, Repr

namespace Schema

/-! ## Fields -/

/-- A type reference at the front of a text, and the text after it: any number of opening brackets
and a letter or underscore, then letters of a type as far as they go. -/
def type? (t : Text) : Option (Text × Text) :=
  if (t.dropWhile (· == '[')).head?.any fun c => c.isAlpha || c == '_' then
    some (t.takeWhile isTypeChar, t.dropWhile isTypeChar)
  else none

/-- A field at the front of a text, and the text after it. -/
def field? (t : Text) : Option (Field × Text) := do
  let (name, more) ← name? t
  match trimStart (LineShape.skipArguments (trimStart more)) with
  | ':' :: rest =>
    let (type, after) ← type? (trimStart rest)
    return (⟨name, type, []⟩, after)
  | _ => none

theorem type?_suffix {t n rest : Text} (h : type? t = some (n, rest)) : rest <:+ t := by
  unfold type? at h
  split at h
  · cases h; exact List.dropWhile_suffix _
  · cases h

theorem length_field?_lt {t rest : Text} {f : Field} (h : field? t = some (f, rest)) :
    rest.length < t.length := by
  unfold field? at h
  cases hn : name? t with
  | none => simp [hn] at h
  | some p =>
    obtain ⟨name, more⟩ := p
    rw [hn] at h
    simp only [Option.bind_eq_bind, Option.bind_some] at h
    split at h
    · rename_i r hr
      cases ht : type? (trimStart r) with
      | none => simp [ht] at h
      | some q =>
        obtain ⟨type, later⟩ := q
        rw [ht] at h
        cases h
        change later.length < t.length
        have h1 := (type?_suffix ht).length_le
        have h2 := length_trimStart_le r
        have h3 := length_trimStart_le (LineShape.skipArguments (trimStart more))
        have h4 := (LineShape.skipArguments_suffix (trimStart more)).length_le
        have h5 := length_trimStart_le more
        have h6 := (name?_suffix hn).length_le
        rw [hr, List.length_cons] at h3
        omega
    · cases h

/-- The fields of a line, from left to right and without overlap. Where no field starts the search
goes on one character later. -/
def fieldsIn (t : Text) : List Field :=
  match t with
  | [] => []
  | c :: rest =>
    match h : field? (c :: rest) with
    | some (f, more) =>
      have := length_field?_lt h
      f :: fieldsIn more
    | none => fieldsIn rest
termination_by t.length
decreasing_by
  · exact this
  · exact Nat.lt_succ_self _

/-! ## Headers -/

/-- The word that starts a type. -/
def typeKeyword : Text := ['t', 'y', 'p', 'e']

/-- The directive that marks a table. -/
def tableDirective : Text := ['@', 't', 'a', 'b', 'l', 'e']

/-- Whether a text holds the table directive, as a whole word. -/
def hasTableDirective : Text → Bool
  | [] => false
  | c :: rest =>
    -- the front of a longer word does not count, and the search goes on inside it
    match tableDirective.isPrefixOf? (c :: rest) with
    | some more => !(more.head?.any isWordChar) || hasTableDirective rest
    | none => hasTableDirective rest

/-- The type that a line starts: its name, its mark and the fields that already stand behind the
first opening brace. -/
def header? (line : Text) : Option TypeDefinition := do
  let more ← typeKeyword.isPrefixOf? line
  if more.head?.any isBlank then
    let (name, rest) ← name? (trimStart more)
    return ⟨name, fieldsIn (Text.after '{' rest), hasTableDirective (Text.before '{' rest)⟩
  else none

/-! ## The scan -/

/-- What is known between two lines: the finished types, the type that is open, and the notices
so far. -/
structure Progress where
  finished : List TypeDefinition := []
  current? : Option TypeDefinition := none
  notices : List Notice := []
  deriving DecidableEq, Repr

/-- Whether a line closes a type. -/
def closes (line : Text) : Bool := line == ['}']

/-- Advance over a live line. -/
def step (p : Progress) (line : Comment.NumberedLine) : Progress :=
  match header? line.text with
  | some definition =>
    -- the type that this header interrupts is finished as it is
    { finished := p.finished ++ p.current?.toList
      current? := some definition
      notices := p.notices ++ p.current?.toList.map fun d => .unclosedType d.name line.number }
  | none =>
    match p.current? with
    | none => p
    | some d =>
      if closes line.text then { p with finished := p.finished ++ [d], current? := none }
      else { p with current? := some { d with fields := d.fields ++ fieldsIn line.text } }

/-- What is known after all lines of a document. -/
def progress (content : Text) : Progress := (Comment.liveLines content).foldl step {}

/-- The types of a document. -/
def definitions (content : Text) : List TypeDefinition := (progress content).finished

/-- The notices of a scan for the types of a document. -/
def notices (content : Text) : List Notice :=
  (progress content).notices
    ++ (progress content).current?.toList.map fun d => .unfinishedType d.name

end Schema

end GqlScan
