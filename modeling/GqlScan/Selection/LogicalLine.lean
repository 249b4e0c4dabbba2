import GqlScan.Selection.Block
import GqlScan.Text.Blank

/-!
# Logical lines

Inside a selection set a line loses its trailing comment and the blanks around it; then lines are
joined, with a space between, as long as a parenthesis is left open. Surplus closing parentheses
are forgotten at the end of a group, and empty lines count only inside one.
-/

namespace GqlScan

open Text

/-! ## Trailing comments -/

namespace Comment

/-- Where a character stands with regard to string literals. -/
inductive Quotation where
  /-- outside any literal -/
  | unquoted
  /-- inside a literal -/
  | quoted
  /-- inside a literal, after a backslash -/
  | escaped
  deriving DecidableEq, Repr

/-- The state after a character. A backslash escapes only inside a literal. -/
def Quotation.next : Quotation → Char → Quotation
  | .unquoted, c => if c = '"' then .quoted else .unquoted
  | .quoted, c => if c = '\\' then .escaped else if c = '"' then .unquoted else .quoted
  | .escaped, _ => .quoted

/-- Cut a text at the first number sign outside a literal, starting in the given state. -/
def cutFrom (q : Quotation) : Text → Text
  | [] => []
  | c :: rest => if q = .unquoted ∧ c = '#' then [] else c :: cutFrom (q.next c) rest

/-- A line without its trailing comment. -/
def cut (line : Text) : Text := cutFrom .unquoted line

theorem cutFrom_isPrefix (q : Quotation) (t : Text) : cutFrom q t <+: t := by
  induction t generalizing q with
  | nil => exact List.prefix_rfl
  | cons c t ih =>
    unfold cutFrom
    split
    · exact List.nil_prefix
    · exact List.cons_prefix_cons.2 ⟨rfl, ih _⟩

end Comment

/-! ## Joining -/

namespace LogicalLine

/-- The text of a physical line that counts. -/
def clean (line : Text) : Text := trim (Comment.cut line)

/-- Group clean lines. `pending` is the group that is being gathered and `depth`, which is zero
when there is none, the number of parentheses open in it. -/
def gather (pending : List Text) (depth : Nat) : List Text → List (List Text)
  | [] => if pending = [] then [] else [pending]
  | t :: rest =>
    if t = [] ∧ pending = [] then gather [] depth rest
    -- no parenthesis is left open, so the group is complete
    else if depth + t.count '(' ≤ t.count ')' then (pending ++ [t]) :: gather [] 0 rest
    else gather (pending ++ [t]) (depth + t.count '(' - t.count ')') rest

/-- The groups of clean lines that make up one logical line each. -/
def groups (lines : List Text) : List (List Text) := gather [] 0 (lines.map clean)

/-- A group as one line. -/
def joined (group : List Text) : Text := join [' '] group

/-- The logical lines of a selection set. -/
def ofLines (lines : List Text) : List Text := (groups lines).map joined

/-! ## Logical lines hold no more braces than the lines they come from -/

theorem trim_sublist (t : Text) : (trim t).Sublist t := by
  have h : (trimEnd (trimStart t)).Sublist (trimStart t) := by
    unfold trimEnd
    have := (List.dropWhile_sublist isBlank (l := (trimStart t).reverse)).reverse
    rwa [List.reverse_reverse] at this
  exact h.trans (List.dropWhile_sublist _)

theorem count_clean_le (c : Char) (line : Text) : (clean line).count c ≤ line.count c :=
  ((trim_sublist _).trans (Comment.cutFrom_isPrefix _ _).sublist).count_le c

/-- Joining puts blanks between the lines of a group and changes nothing else. -/
theorem filter_joined {p : Char → Bool} (hp : p ' ' = false) (group : List Text) :
    (joined group).filter p = group.flatten.filter p := by
  unfold joined
  fun_induction join [' '] group with
  | case1 => rfl
  | case2 t => rw [List.flatten_singleton]
  | case3 t u ts ih =>
    have hblank : [' '].filter p = [] := List.filter_cons_of_neg (Bool.eq_false_iff.1 hp)
    rw [List.filter_append, List.filter_append, ih, hblank, List.append_nil, ← List.filter_append]
    rfl

theorem count_joined {c : Char} (hc : c ≠ ' ') (group : List Text) :
    (joined group).count c = group.flatten.count c := by
  have hfilter := filter_joined (p := (· == c)) (beq_false_of_ne hc.symm) group
  rw [List.count_eq_countP, List.count_eq_countP, List.countP_eq_length_filter,
    List.countP_eq_length_filter, hfilter]

theorem count_joined_brace (group : List Text) :
    (joined group).count '{' = Block.braces group := count_joined (by decide) group

theorem braces_append (xs ys : List Text) :
    Block.braces (xs ++ ys) = Block.braces xs + Block.braces ys := by
  simp [Block.braces]

theorem braces_joined_gather (pending : List Text) (depth : Nat) (lines : List Text) :
    Block.braces ((gather pending depth lines).map joined)
      = Block.braces pending + Block.braces lines := by
  induction lines generalizing pending depth with
  | nil =>
    unfold gather
    split
    · rename_i h; simp [h]
    · simp [count_joined_brace]
  | cons t rest ih =>
    unfold gather
    split
    · rename_i h; simp [ih, h.1, h.2]
    · split
      · simp only [List.map_cons, Block.braces_cons, ih, count_joined_brace, braces_append,
          Block.braces_nil]
        omega
      · simp only [ih, braces_append, Block.braces_cons, Block.braces_nil]
        omega

theorem braces_clean_le (lines : List Text) :
    Block.braces (lines.map clean) ≤ Block.braces lines := by
  induction lines with
  | nil => exact Nat.le_refl _
  | cons t ts ih =>
    have := count_clean_le '{' t
    simp only [List.map_cons, Block.braces_cons]
    omega

/-- Cutting comments and joining lines adds no opening brace. -/
theorem braces_ofLines_le (lines : List Text) :
    Block.braces (ofLines lines) ≤ Block.braces lines := by
  unfold ofLines groups
  rw [braces_joined_gather]
  simpa using braces_clean_le lines

end LogicalLine

end GqlScan
