import GqlScan.Text.Basic

/-!
# Blocks

A block starts after an opening brace and ends at the brace that balances it, which may stand on
a later line. Braces are counted character by character; what follows the closing brace on its
line is dropped. A block that is never closed takes everything.

Main statement: `count_braces_take_le`, that a block holds no more opening braces than the text
it was taken from.
-/

namespace GqlScan

open Text

/-- The lines of a block, the number of lines it took besides its first, and whether it was
closed. -/
structure Block where
  body : List Text
  consumed : Nat
  closed : Bool
  deriving DecidableEq, Repr

namespace Block

/-- What becomes of an open block along a line: it closes after a part of the line, or stays open
with a number of inner blocks. -/
inductive Run where
  | closes (before : Text)
  | stays (inner : Nat)
  deriving DecidableEq, Repr

/-- The run of a line with a further character in front. -/
def Run.cons (c : Char) : Run → Run
  | .closes before => .closes (c :: before)
  | .stays inner => .stays inner

/-- Follow the braces of a line inside a block in which `inner` further blocks are open. -/
def run (inner : Nat) : Text → Run
  | [] => .stays inner
  | c :: rest =>
    if c = '{' then (run (inner + 1) rest).cons c
    else if c = '}' then
      match inner with
      | 0 => .closes []
      | inner + 1 => (run inner rest).cons c
    else (run inner rest).cons c

/-- The block whose text goes on with `line` and then `rest`, `inner` further blocks being open. -/
def takeFrom (inner : Nat) (line : Text) (rest : List Text) : Block :=
  match run inner line, rest with
  | .closes before, _ => ⟨[before], 0, true⟩
  | .stays _, [] => ⟨[line], 0, false⟩
  | .stays inner', next :: later =>
    let block := takeFrom inner' next later
    ⟨line :: block.body, block.consumed + 1, block.closed⟩

/-- The block whose opening brace stands directly before `first`, with `rest` the lines after. -/
def take (first : Text) (rest : List Text) : Block := takeFrom 0 first rest

/-! ## What a block contains -/

/-- The number of opening braces in some lines. -/
def braces (lines : List Text) : Nat := lines.flatten.count '{'

@[simp] theorem braces_nil : braces [] = 0 := rfl

@[simp] theorem braces_cons (t : Text) (ts : List Text) :
    braces (t :: ts) = t.count '{' + braces ts := by simp [braces]

theorem braces_drop_le (n : Nat) (lines : List Text) : braces (lines.drop n) ≤ braces lines := by
  induction n generalizing lines with
  | zero => simp
  | succ n ih =>
    cases lines with
    | nil => simp
    | cons t ts =>
      rw [List.drop_succ_cons, braces_cons]
      exact Nat.le_trans (ih ts) (Nat.le_add_left _ _)

theorem Run.cons_eq_closes {c : Char} {r : Run} {t : Text} (h : r.cons c = .closes t) :
    ∃ u, r = .closes u ∧ t = c :: u := by
  cases r with
  | closes u => cases h; exact ⟨u, rfl, rfl⟩
  | stays _ => cases h

/-- The part of a line before the closing brace is a part of the line. -/
theorem closes_isPrefix {inner : Nat} {line t : Text} (h : run inner line = .closes t) :
    t <+: line := by
  induction line generalizing inner t with
  | nil => cases h
  | cons c rest ih =>
    unfold run at h
    split at h
    · obtain ⟨u, hu, rfl⟩ := Run.cons_eq_closes h
      exact (List.cons_prefix_cons).2 ⟨rfl, ih hu⟩
    · split at h
      · split at h
        · cases h; exact List.nil_prefix
        · obtain ⟨u, hu, rfl⟩ := Run.cons_eq_closes h
          exact (List.cons_prefix_cons).2 ⟨rfl, ih hu⟩
      · obtain ⟨u, hu, rfl⟩ := Run.cons_eq_closes h
        exact (List.cons_prefix_cons).2 ⟨rfl, ih hu⟩

theorem braces_takeFrom_le (inner : Nat) (line : Text) (rest : List Text) :
    braces (takeFrom inner line rest).body ≤ line.count '{' + braces rest := by
  induction rest generalizing inner line with
  | nil =>
    unfold takeFrom
    split
    · rename_i t h
      have := (closes_isPrefix h).sublist.count_le '{'
      simpa using this
    · simp
    · rename_i h; cases h
  | cons next later ih =>
    unfold takeFrom
    split
    · rename_i t h
      have := (closes_isPrefix h).sublist.count_le '{'
      simp only [braces_cons, braces_nil]
      omega
    · rename_i h; cases h
    · rename_i inner' a b _ hr
      cases hr
      have := ih inner' next
      simp only [braces_cons]
      omega

/-- A block holds no more opening braces than the text it was taken from. -/
theorem count_braces_take_le (first : Text) (rest : List Text) :
    braces (take first rest).body ≤ first.count '{' + braces rest :=
  braces_takeFrom_le 0 first rest

end Block

end GqlScan
