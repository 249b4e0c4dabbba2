import GqlScan.Header

/-!
# The shapes of a selection line

A logical line of a selection set can open a selection, name a field, or name a field under an
alias. Arguments run from an opening parenthesis to the first closing one, directives are an
at-sign, a name and optional arguments, and blanks are allowed between all parts.

Every name is taken as long as possible, so each shape splits a line in one way only.
-/

namespace GqlScan.LineShape

open Text

/-- The text after the arguments at its front, if it starts with any. An opening parenthesis that
is never closed starts none. -/
def skipArguments : Text → Text
  | '(' :: rest => if ')' ∈ rest then Text.after ')' rest else '(' :: rest
  | t => t

theorem after_suffix (c : Char) (t : Text) : Text.after c t <:+ t :=
  (List.tail_suffix _).trans (List.dropWhile_suffix _)

theorem skipArguments_suffix (t : Text) : skipArguments t <:+ t := by
  unfold skipArguments
  split
  · split
    · exact (after_suffix _ _).trans (List.suffix_cons _ _)
    · exact List.suffix_rfl
  · exact List.suffix_rfl

/-- The text after the directives at its front and the blanks around them. -/
def skipDirectives (t : Text) : Text :=
  match h : trimStart t with
  | '@' :: rest =>
    match hn : name? rest with
    | some (_, more) =>
      have : (skipArguments (trimStart more)).length < t.length := by
        have h1 := (skipArguments_suffix (trimStart more)).length_le
        have h2 := length_trimStart_le more
        have h3 := (name?_suffix hn).length_le
        have h4 := length_trimStart_le t
        rw [h, List.length_cons] at h4
        omega
      skipDirectives (skipArguments (trimStart more))
    | none => '@' :: rest
  | other => other
termination_by t.length

/-- The text after a field name, its arguments and its directives, without the blanks there. -/
def skipTail (t : Text) : Text := skipDirectives (skipArguments (trimStart t))

/-- Whether a text is blank but for a comma that may end it. -/
def isLineEnd (t : Text) : Bool := trimStart t == [] || trimStart t == [',']

/-! ## Lines that open a selection -/

/-- A line that opens a selection: its alias, its field name and the text after the brace. -/
structure Opening where
  aliasName? : Option Text
  field : Text
  after : Text
  deriving DecidableEq, Repr

/-- The name under which a selection is recorded. -/
def Opening.name (o : Opening) : Text := o.aliasName?.getD o.field

/-- The part of an opening line behind its field name. -/
def openingTail? (aliasName? : Option Text) (field more : Text) : Option Opening :=
  match skipTail more with
  -- only a text that was never cut into lines has a line feed behind the brace
  | '{' :: rest => if '\n' ∈ rest then none else some ⟨aliasName?, field, rest⟩
  | _ => none

/-- Read a line as one that opens a selection. -/
def opening? (line : Text) : Option Opening := do
  let (first, more) ← name? line
  match trimStart more with
  | ':' :: rest =>
    let (field, more) ← name? (trimStart rest)
    openingTail? (some first) field more
  | _ => openingTail? none first more

/-! ## Lines that name a field -/

/-- Read a line as a field with an optional type. -/
def simple? (line : Text) : Option (Text × Option Text) := do
  let (name, more) ← name? line
  match skipTail more with
  | ':' :: rest =>
    let type := (trimStart rest).takeWhile isTypeChar
    if type ≠ [] ∧ isLineEnd ((trimStart rest).dropWhile isTypeChar) then
      return (name, some type)
    else none
  | other => if isLineEnd other then return (name, none) else none

/-- Read a line as a field under an alias; the alias is what is recorded. -/
def aliased? (line : Text) : Option Text := do
  let (recorded, more) ← name? line
  match trimStart more with
  | ':' :: rest =>
    let (_, more) ← name? (trimStart rest)
    if isLineEnd (skipTail more) then return recorded else none
  | _ => none

/-! ## The text after the brace holds one brace less -/

theorem skipDirectives_suffix (t : Text) : skipDirectives t <:+ t := by
  fun_induction skipDirectives t with
  | case1 t rest h name more hn _ ih =>
    refine ih.trans ((skipArguments_suffix _).trans ((trimStart_suffix _).trans ?_))
    refine (name?_suffix hn).trans ((List.suffix_cons '@' rest).trans ?_)
    rw [← h]
    exact trimStart_suffix _
  | case2 t rest h hn =>
    rw [← h]; exact trimStart_suffix _
  | case3 t =>
    exact trimStart_suffix _

theorem skipTail_suffix (t : Text) : skipTail t <:+ t :=
  (skipDirectives_suffix _).trans ((skipArguments_suffix _).trans (trimStart_suffix _))

theorem openingTail?_suffix {aliasName? : Option Text} {field more : Text} {o : Opening}
    (h : openingTail? aliasName? field more = some o) : '{' :: o.after <:+ more := by
  unfold openingTail? at h
  split at h
  · rename_i rest hr
    split at h
    · cases h
    · cases h
      have := skipTail_suffix more
      rwa [hr] at this
  · cases h

/-- The opening brace and what follows it end the line. -/
theorem opening?_suffix {line : Text} {o : Opening} (h : opening? line = some o) :
    '{' :: o.after <:+ line := by
  unfold opening? at h
  cases hn : name? line with
  | none => simp [hn] at h
  | some p =>
    obtain ⟨first, more⟩ := p
    have hmore := name?_suffix hn
    rw [hn] at h
    simp only [Option.bind_eq_bind, Option.bind_some] at h
    split at h
    · rename_i rest hr
      have hrest : rest <:+ more := by
        have : ':' :: rest <:+ more := hr ▸ trimStart_suffix _
        exact (List.suffix_cons ':' rest).trans this
      cases hf : name? (trimStart rest) with
      | none => simp [hf] at h
      | some q =>
        obtain ⟨field, more'⟩ := q
        rw [hf] at h
        simp only [Option.bind_some] at h
        exact (openingTail?_suffix h).trans
          ((name?_suffix hf).trans ((trimStart_suffix _).trans (hrest.trans hmore)))
    · exact (openingTail?_suffix h).trans hmore

theorem count_after_lt {line : Text} {o : Opening} (h : opening? line = some o) :
    o.after.count '{' < line.count '{' := by
  have := (opening?_suffix h).sublist.count_le '{'
  rw [List.count_cons_self] at this
  omega

end GqlScan.LineShape
