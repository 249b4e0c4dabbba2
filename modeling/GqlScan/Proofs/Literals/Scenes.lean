import GqlScan.Proofs.LineDepth
import GqlScan.Proofs.Literals.Arguments

/-!
# Scenes for contents

The scenes in which a scan finds what a content holds, each with the place of its literal among the
arguments of a field or a directive, and what is known of the line with the literal whatever its
content is.

Main statements: `Opens.isArgument`, for the places, and `run_line` and `clean_line` for
the line with the literal.
-/

namespace GqlScan

open Text Comment

namespace Literal

open LogicalLine

/-- A content that says nothing. -/
def neutral : Text := ['v']

namespace Scene

variable {w : Text}

/-! ## The scenes -/

/-- A field with a list of two literals side by side, of which the second has the place. -/
def neighbours : Scene := ⟨'Q', "a(x: [\"k\"".toList, "])".toList, [['}']]⟩

/-- A field with a literal for its argument. -/
def single (name : Char) : Scene := ⟨name, "a(x: ".toList, [')'], [['}']]⟩

/-- A field with a literal for its argument, and a field below. -/
def closing : Scene := ⟨'Q', "a(x: ".toList, [')'], [['b'], ['}']]⟩

/-- A fragment with a literal for the argument of its directive, and a field behind its block. -/
def fragment : Scene :=
  ⟨'Q', "... @d(x: ".toList, ") \x7b".toList, [['b'], ['}'], ['c'], ['}']]⟩

/-- A fragment with an argument below the literal that stands on a line of its own. -/
def spanning : Scene := ⟨'Q', "...F @d(x: ".toList, ", y:".toList, [['b'], [')'], ['}']]⟩

/-- The front of a line in which a literal ends the arguments and opens a block. -/
def blockFront : Text := "a(x: \")\x7b\", z: ".toList

/-- A field below a literal behind one that opens a block. -/
def inBlock : Scene := ⟨'Q', blockFront, [')'], [['b'], ['}']]⟩

/-- A field in a block that is opened on the line of a literal behind one that opens a block. -/
def aboveBlock : Scene := ⟨'Q', blockFront, ") \x7b".toList, [['b'], ['}'], ['}']]⟩

theorem sound_neighbours : neighbours.Sound := by decide

theorem sound_single (name : Char) (h : name = 'Q' ∨ name = 'R') : (single name).Sound := by
  rcases h with rfl | rfl <;> decide

theorem sound_closing : closing.Sound := by decide

theorem sound_fragment : fragment.Sound := by decide

theorem sound_spanning : spanning.Sound := by decide

theorem sound_inBlock : inBlock.Sound := by decide

theorem sound_aboveBlock : aboveBlock.Sound := by decide

/-- The fields of a scene. -/
def fields? (x : Scene) (w : Text) : Option (List Field) :=
  (Document.operation? (x.slot.fill w)).map Operation.fields

/-- The texts of a scene in which its literal is an argument. -/
def Opens (x : Scene) (selection arguments : Text) : Prop :=
  WholeLines x.slot.above ∧ Unbroken x.front
    ∧ (trailing? x.front = none ∧ Quotation.unquoted.past x.front = .unquoted)
    ∧ bare (x.slot.above ++ x.front)
      = x.head.dropLast ++ '{' :: (selection ++ '(' :: arguments)
    ∧ (Header.find? x.head.dropLast ≠ none ∧ '{' ∉ x.head.dropLast)
    ∧ Block.run 0 selection = .stays 0 ∧ ')' ∉ arguments
    ∧ (∀ l ∈ lineTexts (x.slot.fill neutral), Quotation.unquoted.past (cut l) = .unquoted)
    ∧ ∀ l ∈ lineTexts (x.slot.fill neutral), delimiterCount l = 0

instance (x : Scene) (selection arguments : Text) : Decidable (x.Opens selection arguments) := by
  unfold Opens
  infer_instance

theorem Opens.isArgument {x : Scene} {selection arguments : Text}
    (h : x.Opens selection arguments) : x.slot.IsArgument neutral := by
  obtain ⟨hwhole, hunbroken, houtside, hbare, hheader, hrun, hclose, hclosed, hcount⟩ := h
  exact ⟨hwhole, hunbroken, houtside, ⟨_, _, _, hbare, hheader, ⟨0, hrun⟩, hclose⟩, hclosed, hcount⟩

theorem opens_neighbours : neighbours.Opens "\na".toList "x: [".toList := by decide

theorem opens_single (name : Char) (h : name = 'Q' ∨ name = 'R') :
    (single name).Opens "\na".toList "x: ".toList := by
  rcases h with rfl | rfl <;> decide

theorem opens_closing : closing.Opens "\na".toList "x: ".toList := by decide

theorem opens_fragment : fragment.Opens "\n... @d".toList "x: ".toList := by decide

theorem opens_spanning : spanning.Opens "\n...F @d".toList "x: ".toList := by decide

theorem opens_inBlock : inBlock.Opens "\na".toList "x: , z: ".toList := by decide

theorem opens_aboveBlock : aboveBlock.Opens "\na".toList "x: , z: ".toList := by decide

/-! ## The line with the literal -/

/-- In a literal a number sign starts no comment. -/
theorem trailingFrom?_content (hw : IsContent w) (t : Text) :
    trailingFrom? .quoted (w ++ t) = trailingFrom? .quoted t := by
  obtain ⟨hquote, hslash, -⟩ := hw
  induction w with
  | nil => rfl
  | cons c w ih =>
    have hc : Quotation.quoted.next c = .quoted := by
      have hcq : c ≠ '"' := fun e => hquote (e ▸ List.mem_cons_self)
      have hcs : c ≠ '\\' := fun e => hslash (e ▸ List.mem_cons_self)
      rw [Quotation.next, if_neg hcs, if_neg hcq]
    rw [List.cons_append, trailingFrom?, if_neg (by simp), hc]
    exact ih (fun hm => hquote (List.mem_cons_of_mem c hm))
      fun hm => hslash (List.mem_cons_of_mem c hm)

/-- Neither a literal nor what is around it has a trailing comment. -/
theorem clean_line {x : Scene} (hx : x.Sound) (hw : IsContent w) (hne : w ≠ [])
    (hfront : trailing? x.front = none ∧ Quotation.unquoted.past x.front = .unquoted)
    (hback : trailing? x.back = none) : clean (x.line w) = x.line w := by
  obtain ⟨hlive, -⟩ := hx.isLive_line hw hne
  refine clean_eq_self hlive.stops hlive.solid ?_
  unfold line trailing?
  rw [quoted_append, trailingFrom?_append_of_none hfront.1, hfront.2]
  change trailingFrom? .quoted (w ++ '"' :: x.back) = none
  rw [trailingFrom?_content hw]
  exact hback

/-- A block runs along a literal as it runs along what the literal holds and what is behind it. -/
theorem run_around {front : Text} {k j : Nat} (hfront : Block.run k front = .stays j)
    (w back : Text) : Block.run k (front ++ (quoted w ++ back))
      = (Block.run j (w ++ '"' :: back)).behind (front ++ ['"']) := by
  have hquote : Block.run j ['"'] = .stays j := rfl
  have happ : Block.run k (front ++ ['"']) = .stays j := by
    rw [Block.run_append_of_stays hfront, hquote]
    rfl
  rw [quoted_append, List.append_cons]
  exact Block.run_append_of_stays happ _

/-- A literal without braces leaves a block to what is around it. -/
theorem run_around_of_no_braces {front back : Text} {k j i : Nat}
    (hfront : Block.run k front = .stays j) (hopening : '{' ∉ w) (hclosing : '}' ∉ w)
    (hback : Block.run j ('"' :: back) = .stays i) :
    Block.run k (front ++ (quoted w ++ back)) = .stays i := by
  rw [run_around hfront, Block.run_append_of_stays (Block.run_of_no_braces hopening hclosing j),
    hback]
  rfl

theorem run_line (x : Scene) {k j : Nat} (hfront : Block.run k x.front = .stays j) (w : Text) :
    Block.run k (x.line w) = (Block.run j (w ++ '"' :: x.back)).behind (x.front ++ ['"']) :=
  run_around hfront w x.back

theorem count_line (x : Scene) {c : Char} (hc : c ≠ '"') (w : Text) :
    (x.line w).count c = x.front.count c + w.count c + x.back.count c := by
  unfold line
  rw [quoted_append, List.count_append, List.count_cons_of_ne hc.symm, List.count_append,
    List.count_cons_of_ne hc.symm]
  omega

end Scene

end Literal

end GqlScan
