import GqlScan.Proofs.Literals.Misread

/-!
# The influence of string literals

The contents of the string literals in a selection set have no influence on its fields as long as
they are harmless. Any other content is misread somewhere, for blocks, arguments and headers are
searched without regard to literals.

Main statements: `sameFields_iff`, for any content in the place of a harmless one, and
`not_sameFields_closing`, a document whose selection set ends inside a literal.
-/

namespace GqlScan.Literal

open Text Document

variable {u w : Text}

theorem sameFields_fill (hu : Harmless u) (hw : Harmless w) (s : Slot) :
    SameFields (s.fill u) (s.fill w) :=
  (s.exchanged_fill u w).sameFields hu hw

theorem harmless_neutral : Harmless neutral := by decide

/-- What takes the place of a harmless content in arguments without influence is harmless. -/
theorem harmless_of_sameFields (hu : Harmless u) (hw : IsContent w)
    (hsame : ∀ s : Slot, s.IsArgument u → SameFields (s.fill u) (s.fill w)) : Harmless w := by
  by_contra h
  obtain ⟨x, hargument, htells⟩ := Scene.exists_of_not_harmless hw h
  -- the scene tells the content from one that says nothing, which the harmless one is no other than
  have hneutral := sameFields_fill harmless_neutral hu x.slot
  exact htells (hneutral.trans (hsame x.slot (hargument.exchange harmless_neutral hu)))

/-- **A content in the place of a harmless one has no influence on the fields, at any depth, if and
only if it is harmless, too**, whether the literal may stand anywhere in a document or only in the
arguments of its selection set, where every literal is closed on its line and no line holds a block
delimiter. -/
theorem sameFields_iff (hu : Harmless u) (hw : IsContent w) :
    ((∀ s : Slot, SameFields (s.fill u) (s.fill w)) ↔ Harmless w)
      ∧ ((∀ s : Slot, s.IsArgument u → SameFields (s.fill u) (s.fill w)) ↔ Harmless w) := by
  have hsame : Harmless w → ∀ s : Slot, SameFields (s.fill u) (s.fill w) :=
    fun hw s => sameFields_fill hu hw s
  refine ⟨⟨fun hall => ?_, hsame⟩, ⟨harmless_of_sameFields hu hw, fun hw s _ => hsame hw s⟩⟩
  exact harmless_of_sameFields hu hw fun s _ => hall s

/-- A content that ends the arguments it stands in and opens those of a directive. -/
def directiveContent : Text := ") @d(".toList

theorem harmless_directiveContent : Harmless directiveContent where
  quote := by decide
  backslash := by decide
  unbroken := by decide
  ne_nil := by decide
  header := by decide
  opening := by decide
  closing := by decide
  sign := by decide
  balanced := by decide
  reopens := by
    intro _
    have hrest : after ')' directiveContent ++ ['"', ')'] = " @d(\")".toList := by decide
    rw [hrest, LineShape.skipDirectives_of_name (s := "d(\")".toList) (by decide) rfl]
    exact LineShape.skipDirectives_of_head (by decide)

theorem sameFields_directiveContent :
    (Harmless neutral ∧ IsContent directiveContent ∧ Harmless directiveContent)
      ∧ ∀ s : Slot, SameFields (s.fill neutral) (s.fill directiveContent) := by
  have hharmless := harmless_directiveContent
  exact ⟨⟨harmless_neutral, hharmless.toIsContent, hharmless⟩,
    (sameFields_iff harmless_neutral hharmless.toIsContent).1.2 hharmless⟩

/-- Not every content in an argument leaves the fields as they are: a brace in a literal ends the
selection set, and the field below it is lost. -/
theorem not_sameFields_closing :
    ¬ ∀ (s : Slot) (u w : Text), IsContent u → IsContent w → s.IsArgument u →
        SameFields (s.fill u) (s.fill w) := by
  intro hall
  have hsame := hall Scene.closing.slot neutral ['}'] (by decide) (by decide)
    Scene.opens_closing.isArgument
  exact Scene.tells_closing hsame

end GqlScan.Literal
