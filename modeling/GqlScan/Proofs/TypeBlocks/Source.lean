import GqlScan.Proofs.Canonical.LineReading
import GqlScan.Schema

/-!
# Documents made of type blocks

A block is a header, an opening brace, fields and a closing brace. Its layout is free: blanks, line
breaks among them, may stand around the block, in front of either brace and in front of each field.
Only two fields next to each other need a blank between them, and a header starts a line.

Names, types and gaps carry what makes them writable, so that `Block.print` takes any block.
-/

namespace GqlScan.TypeBlocks

open Text Canonical

/-- Blanks, among which there may be line breaks. -/
abbrev Gap := { t : Text // Blanks t }

/-- The text of a type reference: opening brackets, then a letter or an underscore, then letters of
types. -/
def IsReference (t : Text) : Prop :=
  ((t.dropWhile (· == '[')).head?.any fun c => c.isAlpha || c == '_') = true
    ∧ ∀ c ∈ t, isTypeChar c = true

instance (t : Text) : Decidable (IsReference t) :=
  decidable_of_iff
    (((t.dropWhile (· == '[')).head?.any fun c => c.isAlpha || c == '_') = true
      ∧ t.all isTypeChar = true)
    (and_congr_right' List.all_eq_true)

/-- A type reference that can be written. -/
abbrev Reference := { t : Text // IsReference t }

/-- A field with the blanks in front of it. -/
structure Member where
  gap : Gap
  name : Name
  type : Reference

namespace Member

/-- A field as it is written. -/
def text (m : Member) : Text := m.name.1 ++ ([':', ' '] ++ m.type.1)

def print (m : Member) : Text := m.gap.1 ++ m.text

def field (m : Member) : Field := ⟨m.name.1, m.type.1, []⟩

end Member

/-- A type with its layout. -/
structure Block where
  indent : Gap
  name : Name
  isTable : Bool
  opening : Gap
  members : List Member
  parted : ∀ m ∈ members.tail, m.gap.1 ≠ []
  closing : Gap
  trailing : Gap

namespace Block

/-- The mark of a table, nothing when the type is none. -/
def mark (b : Block) : Text := if b.isTable then ' ' :: Schema.tableDirective else []

def header (b : Block) : Text := Schema.typeKeyword ++ ' ' :: (b.name.1 ++ b.mark)

/-- A block as it is written, up to its closing brace. -/
def front (b : Block) : Text :=
  b.indent.1 ++ (b.header ++ (b.opening.1 ++ ('{' :: b.members.flatMap Member.print)))

def print (b : Block) : Text := b.front ++ (b.closing.1 ++ ('}' :: b.trailing.1))

/-- The type that a block describes. -/
def definition (b : Block) : TypeDefinition := ⟨b.name.1, b.members.map Member.field, b.isTable⟩

/-- A block whose closing brace stands alone on its line. -/
def ClosesAlone (b : Block) : Prop := ¬ Unbroken b.closing.1

instance (b : Block) : Decidable b.ClosesAlone := inferInstanceAs (Decidable (¬ _))

end Block

/-- Blocks one after the other, each from the start of a line. -/
def source (blocks : List Block) : Text := joinLines (blocks.map Block.print)

/-! ## The characters of a block -/

/-- The signs in a block apart from its gaps. -/
def signs : List Char := [' ', ':', '{', '}', '@']

/-- A text of blanks and of what a block is written with. -/
def Printed (t : Text) : Prop := ∀ c ∈ t, isBlank c = true ∨ isTypeChar c = true ∨ c ∈ signs

namespace Printed

variable {t u : Text}

theorem append (ht : Printed t) (hu : Printed u) : Printed (t ++ u) := by
  intro c hc
  rcases List.mem_append.1 hc with h | h
  · exact ht c h
  · exact hu c h

theorem cons {c : Char} (hc : c ∈ signs) (ht : Printed t) : Printed (c :: t) := by
  intro d hd
  rcases List.mem_cons.1 hd with rfl | h
  · exact Or.inr (Or.inr hc)
  · exact ht d h

theorem of_blanks (ht : Blanks t) : Printed t := fun c hc => Or.inl (ht c hc)

theorem of_written (ht : Written signs t) : Printed t := fun c hc => Or.inr (ht c hc)

/-- Blocks hold neither a number sign nor a double quote. -/
theorem no_sign (ht : Printed t) : '#' ∉ t ∧ '"' ∉ t := by
  have hnot : ∀ c, isBlank c = false → isTypeChar c = false → c ∉ signs → c ∉ t := by
    intro c hblank htype hsign hmem
    rcases ht c hmem with h | h | h
    · rw [hblank] at h
      cases h
    · rw [htype] at h
      cases h
    · exact hsign h
  exact ⟨hnot '#' (by decide) (by decide) (by decide), hnot '"' (by decide) (by decide) (by decide)⟩

end Printed

theorem unbroken_signs : Unbroken signs := by decide

namespace Reference

variable (r : Reference)

theorem ne_nil : r.1 ≠ [] := by
  intro h
  have hstarts := r.2.1
  rw [h] at hstarts
  cases hstarts

theorem stops : Stops isBlank r.1 :=
  fun c hc => isBlank_eq_false_of_isTypeChar (r.2.2 c (List.mem_of_head? hc))

theorem solid : Solid r.1 :=
  fun c hc => isBlank_eq_false_of_isTypeChar (r.2.2 c (List.mem_of_getLast? hc))

end Reference

namespace Member

variable (m : Member)

theorem written : Written signs m.text := by
  have htype : Written signs m.type.1 := fun c hc => Or.inl (m.type.2.2 c hc)
  exact (m.name.written signs).append ((Written.of_subset (by decide)).append htype)

end Member

namespace Block

variable (b : Block)

theorem written_mark : Written signs b.mark := by
  unfold mark
  split
  · intro c hc
    have hmark : ∀ c ∈ ' ' :: Schema.tableDirective, (isTypeChar c || signs.contains c) = true :=
      List.all_eq_true.1 (by decide)
    rcases Bool.or_eq_true _ _ ▸ hmark c hc with h | h
    · exact Or.inl h
    · exact Or.inr (List.contains_iff_mem.1 h)
  · exact fun c hc => absurd hc List.not_mem_nil

theorem written_header : Written signs b.header := by
  have hkeyword : Written signs Schema.typeKeyword := fun c hc =>
    Or.inl ((List.all_eq_true.1 (by decide) : ∀ c ∈ Schema.typeKeyword, isTypeChar c = true) c hc)
  have hblank : Written signs [' '] := Written.of_subset (by decide)
  exact hkeyword.append (hblank.append ((b.name.written signs).append b.written_mark))

theorem printed : Printed b.print := by
  have hmembers : Printed (b.members.flatMap Member.print) := by
    intro c hc
    obtain ⟨m, -, hm⟩ := List.mem_flatMap.1 hc
    exact (Printed.of_blanks m.gap.2).append (.of_written m.written) c hm
  have hfront : Printed b.front :=
    (Printed.of_blanks b.indent.2).append ((Printed.of_written b.written_header).append
      ((Printed.of_blanks b.opening.2).append (.cons (by decide) hmembers)))
  exact hfront.append ((Printed.of_blanks b.closing.2).append
    (.cons (by decide) (.of_blanks b.trailing.2)))

end Block

theorem printed_source (blocks : List Block) : Printed (source blocks) := by
  unfold source joinLines
  induction blocks with
  | nil => exact fun c hc => absurd hc List.not_mem_nil
  | cons b blocks ih =>
    cases blocks with
    | nil => exact b.printed
    | cons next rest =>
      have hfeed : Printed ['\n'] := .of_blanks (by decide)
      exact (b.printed.append hfeed).append ih

end GqlScan.TypeBlocks
