import GqlScan.Proofs.TrailingComments.Misread

/-!
# Which trailing comments influence a scan

A trailing comment is not cut before a document is scanned, so it is harmless only when it is plain.
With plain comments alone a document is scanned as it is without them, operation and nested types,
provided that the selection set opens outside string literals; and there is no other comment of
which this can be said.

Main statement: `indifferent_iff`.
-/

namespace GqlScan.Document

open Text Comment LogicalLine

/-- A document with plain comments alone is scanned as it is without them. -/
theorem indifferent_of_plain {content : Text} (hplain : ∀ w ∈ trailing content, Plain w)
    (hopen : OpensOutside (liveText (withoutTrailing content))) : Indifferent content := by
  have hlive : ∀ l ∈ liveText content, PlainLine l := by
    intro l hl
    have hline := isLive_of_mem_liveText hl
    exact ⟨hline.stops, hline.solid, fun w hw => hplain w (List.mem_filterMap.2 ⟨l, hl, hw⟩)⟩
  rw [liveText_withoutTrailing] at hopen
  rw [indifferent_iff_ofLive?]
  exact ofLive?_map_clean hlive hopen

/-- A document without trailing comments loses nothing. -/
theorem indifferent_of_trailing_eq_nil {content : Text} (h : trailing content = []) :
    Indifferent content := by
  have hclean : (liveText content).map clean = liveText content := by
    rw [List.map_congr_left fun l hl => ?_, List.map_id']
    have hline := isLive_of_mem_liveText hl
    exact clean_eq_self hline.stops hline.solid (List.filterMap_eq_nil_iff.1 h l hl)
  rw [indifferent_iff_ofLive?, hclean]

/--
**The harmless comments are the plain ones.**

Take the documents whose trailing comments all satisfy `W`. Those that open their selection set
outside string literals are all scanned alike with and without the comments exactly when every
comment in `W` is plain. If they may open it inside a literal as well, then no comment is harmless:
all are scanned alike only when `W` leaves no comment at all.
-/
theorem indifferent_iff (W : Text → Prop) :
    ((∀ content, (∀ w ∈ trailing content, W w) →
        OpensOutside (liveText (withoutTrailing content)) → Indifferent content)
      ↔ ∀ w, CanTrail w → W w → Plain w)
    ∧ ((∀ content, (∀ w ∈ trailing content, W w) → Indifferent content)
      ↔ ∀ w, CanTrail w → ¬ W w) := by
  refine ⟨⟨?_, ?_⟩, ?_, ?_⟩
  · intro hall w hw hW
    by_contra hplain
    obtain ⟨content, htrailing, hopen, hdiffers⟩ := exists_of_not_plain hw hplain
    refine hdiffers (hall content ?_ hopen)
    rw [htrailing]
    intro v hv
    rw [List.mem_singleton.1 hv]
    exact hW
  · intro hplain content hW hopen
    exact indifferent_of_plain
      (fun w hw => hplain w (canTrail_of_mem_trailing hw) (hW w hw)) hopen
  · intro hall w hw hW
    obtain ⟨content, htrailing, hdiffers⟩ := exists_in_literal hw
    refine hdiffers (hall content ?_)
    rw [htrailing]
    intro v hv
    rw [List.mem_singleton.1 hv]
    exact hW
  · intro hnone content hW
    apply indifferent_of_trailing_eq_nil
    rw [List.eq_nil_iff_forall_not_mem]
    exact fun w hw => hnone w (canTrail_of_mem_trailing hw) (hW w hw)

/-- A document with a plain comment. -/
def remarkedSource : Text := "query Q \x7b\n  id # the key\n\x7d\n".toList

theorem indifferent_remarkedSource :
    trailing remarkedSource = [" the key".toList] ∧ Indifferent remarkedSource := by
  have htrailing : trailing remarkedSource = [" the key".toList] := by decide +kernel
  have hplain : ∀ w ∈ trailing remarkedSource, Plain w := by
    intro w hw
    rw [htrailing] at hw
    rw [List.mem_singleton.1 hw]
    exact ⟨by decide +kernel, by decide +kernel, by decide +kernel, by decide +kernel⟩
  refine ⟨htrailing, ?_⟩
  exact (indifferent_iff Plain).1.2 (fun w _ hw => hw) remarkedSource hplain (by decide +kernel)

/-- A document with a closing brace in a comment. -/
def closedSource : Text := "query Q \x7b\n  id # \x7d\n  title\n\x7d\n".toList

/-- Not every document is scanned alike with and without its trailing comments. -/
theorem not_indifferent_closedSource : ¬ ∀ content, Indifferent content := by
  intro hall
  have hsame := indifferent_iff_operation.1 (hall closedSource)
  have hfields : (operation? (withoutTrailing closedSource)).map Operation.fields
      ≠ (operation? closedSource).map Operation.fields := by decide +kernel
  exact hfields (congrArg (Option.map Operation.fields) hsame)

end GqlScan.Document
