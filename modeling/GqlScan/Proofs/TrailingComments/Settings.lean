import GqlScan.Proofs.Registration
import GqlScan.Proofs.TrailingComments.Plain

/-!
# Documents with a place for a comment

A setting is a document in which one line has a place for a trailing comment. Whatever comment is
put there, it is the only one, and without it the live lines are the same. So a comment that changes
what the lines say to a scanner makes a difference to the scan.

Main statement: `Sound.not_indifferent`.
-/

namespace GqlScan

open Text Comment LogicalLine

/-- A document and the same document without its trailing comments are scanned alike. -/
def Document.Indifferent (content : Text) : Prop :=
  scan .empty (withoutTrailing content) = scan .empty content

/-- The nested types follow the operation, so only the operations need to be compared. -/
theorem Document.indifferent_iff_operation {content : Text} :
    Indifferent content ↔ operation? (withoutTrailing content) = operation? content := by
  unfold Indifferent
  rw [scan_eq, scan_eq]
  constructor
  · exact congrArg Prod.fst
  · intro h
    rw [h]

/-- A document is indifferent when its live lines and their clean forms say the same. -/
theorem Document.indifferent_iff_ofLive? {content : Text} :
    Indifferent content ↔ ofLive? ((liveText content).map clean) = ofLive? (liveText content) := by
  rw [indifferent_iff_operation, operation?_eq_ofLive?, operation?_eq_ofLive?,
    liveText_withoutTrailing]

/-! ## Settings -/

/-- Live lines that a document can consist of, with a place for a trailing comment on one. -/
structure Setting where
  above : List Text
  line : Text
  below : List Text

namespace Setting

/-- The live lines with a comment in its place. -/
def withComment (s : Setting) (w : Text) : List Text :=
  s.above ++ (s.line ++ '#' :: w) :: s.below

/-- The live lines without a comment. -/
def bare (s : Setting) : List Text := s.above ++ trim s.line :: s.below

/-- The lines around the place of the comment. -/
def others (s : Setting) : List Text := s.above ++ s.below

/-- What makes the lines of a setting live and clean, but for the comment. -/
structure Sound (s : Setting) : Prop where
  others_unbroken : ∀ l ∈ s.others, Unbroken l
  others_trimmed : ∀ l ∈ s.others, trim l = l ∧ l ≠ []
  others_signs : ∀ l ∈ s.others, '#' ∉ l ∧ '"' ∉ l
  line_unbroken : Unbroken s.line
  line_trimmed : trimStart s.line = s.line ∧ s.line ≠ []
  line_sign : isLineComment s.line = false
  line_open : trailing? s.line = none ∧ Quotation.unquoted.past s.line = .unquoted
  line_delimiters : delimiterCount s.line = 0

instance (s : Setting) : Decidable s.Sound :=
  decidable_of_iff
    ((∀ l ∈ s.others, Unbroken l ∧ (trim l = l ∧ l ≠ []) ∧ '#' ∉ l ∧ '"' ∉ l)
      ∧ Unbroken s.line ∧ (trimStart s.line = s.line ∧ s.line ≠ []) ∧ isLineComment s.line = false
      ∧ (trailing? s.line = none ∧ Quotation.unquoted.past s.line = .unquoted)
      ∧ delimiterCount s.line = 0)
    ⟨fun ⟨h, h1, h2, h3, h4, h5⟩ =>
      ⟨fun l hl => (h l hl).1, fun l hl => (h l hl).2.1, fun l hl => (h l hl).2.2, h1, h2, h3, h4,
        h5⟩,
    fun ⟨h1, h2, h3, h4, h5, h6, h7, h8⟩ =>
      ⟨fun l hl => ⟨h1 l hl, h2 l hl, h3 l hl⟩, h4, h5, h6, h7, h8⟩⟩

variable {s : Setting} {w : Text}

theorem Sound.isLive_other (hs : s.Sound) {l : Text} (hl : l ∈ s.others) : IsLive l := by
  obtain ⟨htrim, -⟩ := hs.others_trimmed l hl
  obtain ⟨hsign, hquote⟩ := hs.others_signs l hl
  refine ⟨hs.others_unbroken l hl, ?_, ?_, ?_, delimiterCount_eq_zero hquote⟩
  · rw [← htrim]
    exact stops_trim l
  · rw [← htrim]
    exact solid_trim l
  · unfold isLineComment
    rw [beq_eq_false_iff_ne]
    exact fun h => hsign (List.mem_of_head? h)

theorem Sound.clean_other (hs : s.Sound) {l : Text} (hl : l ∈ s.others) : clean l = l := by
  rw [clean_of_trailing?_eq_none (trailing?_of_no_sign (hs.others_signs l hl).1)]
  exact (hs.others_trimmed l hl).1

theorem Sound.isLive_line (hs : s.Sound) (hw : CanTrail w) : IsLive (s.line ++ '#' :: w) := by
  obtain ⟨hstart, hne⟩ := hs.line_trimmed
  have hstops : Stops isBlank s.line := by
    rw [← hstart]
    exact stops_trimStart _
  have hsolid : Solid ('#' :: w) := by
    by_cases hempty : w = []
    · rw [hempty]
      intro c hc
      cases hc
      decide
    · exact hw.solid.append hempty ['#']
  refine ⟨?_, hstops.append hne _, hsolid.append (List.cons_ne_nil _ _) _, ?_, ?_⟩
  · intro c hc
    rcases List.mem_append.1 hc with h | h
    · exact hs.line_unbroken c h
    · rcases List.mem_cons.1 h with rfl | h
      · decide
      · exact hw.unbroken c h
  · unfold isLineComment
    rw [List.head?_append_of_ne_nil _ hne]
    exact hs.line_sign
  · rw [delimiterCount_append_cons (by decide), hs.line_delimiters, hw.delimiters]

theorem liveText_joinLines {ls : List Text} (hne : ls ≠ []) (h : ∀ l ∈ ls, IsLive l ∧ l ≠ []) :
    liveText (joinLines ls) = ls := by
  have hlines := lineTexts_joinLines hne (fun l hl => ⟨(h l hl).1.unbroken, (h l hl).2⟩) false
  rw [if_neg (by decide), List.append_nil] at hlines
  have htrim : ∀ l ∈ ls, trim l = l := fun l hl =>
    trim_of_stops_of_solid (h l hl).1.stops (h l hl).1.solid
  have hlive : ∀ l ∈ ls, isLineComment (trim l) = false ∧ delimiterCount (trim l) = 0 := by
    intro l hl
    rw [htrim l hl]
    exact ⟨(h l hl).1.sign, (h l hl).1.delimiters⟩
  unfold liveText
  rw [hlines, liveTexts_of_live hlive, List.map_congr_left htrim, List.map_id']

/-- The document of a setting with a comment. -/
def document (s : Setting) (w : Text) : Text := joinLines (s.withComment w)

theorem mem_withComment {l : Text} (hl : l ∈ s.withComment w) :
    l ∈ s.others ∨ l = s.line ++ '#' :: w := by
  rcases List.mem_append.1 hl with h | h
  · exact Or.inl (List.mem_append_left _ h)
  · rcases List.mem_cons.1 h with h | h
    · exact Or.inr h
    · exact Or.inl (List.mem_append_right _ h)

theorem Sound.liveText_document (hs : s.Sound) (hw : CanTrail w) :
    liveText (s.document w) = s.withComment w := by
  refine liveText_joinLines ?_ fun l hl => ?_
  · exact List.append_ne_nil_of_right_ne_nil _ (List.cons_ne_nil _ _)
  · rcases mem_withComment hl with h | rfl
    · exact ⟨hs.isLive_other h, (hs.others_trimmed l h).2⟩
    · exact ⟨hs.isLive_line hw, List.append_ne_nil_of_left_ne_nil hs.line_trimmed.2 _⟩

/-- The comment is the only one in the document. -/
theorem Sound.trailing_document (hs : s.Sound) (hw : CanTrail w) :
    trailing (s.document w) = [w] := by
  have hother : ∀ ls : List Text, (∀ l ∈ ls, l ∈ s.others) → ls.filterMap trailing? = [] := by
    intro ls hls
    rw [List.filterMap_eq_nil_iff]
    exact fun l hl => trailing?_of_no_sign (hs.others_signs l (hls l hl)).1
  unfold trailing
  rw [hs.liveText_document hw]
  unfold withComment
  rw [List.filterMap_append, List.filterMap_cons,
    trailing?_append_sign hs.line_open.1 hs.line_open.2,
    hother _ fun l hl => List.mem_append_left _ hl, hother _ fun l hl => List.mem_append_right _ hl]
  rfl

theorem Sound.clean_line (hs : s.Sound) : clean (s.line ++ '#' :: w) = trim s.line := by
  unfold clean
  rw [cut_append_sign hs.line_open.1 hs.line_open.2]

theorem Sound.map_clean_withComment (hs : s.Sound) (w : Text) :
    (s.withComment w).map clean = s.bare := by
  have hother : ∀ ls : List Text, (∀ l ∈ ls, l ∈ s.others) → ls.map clean = ls := by
    intro ls hls
    rw [List.map_congr_left fun l hl => hs.clean_other (hls l hl), List.map_id']
  unfold withComment bare
  rw [List.map_append, List.map_cons, hs.clean_line, hother _ fun l hl => List.mem_append_left _ hl,
    hother _ fun l hl => List.mem_append_right _ hl]

/-- The document without the comment has the bare live lines. -/
theorem Sound.liveText_withoutTrailing (hs : s.Sound) (hw : CanTrail w) :
    liveText (withoutTrailing (s.document w)) = s.bare := by
  rw [Comment.liveText_withoutTrailing, hs.liveText_document hw, hs.map_clean_withComment]

/-- A comment makes a difference to the scan when it makes one to the live lines. -/
theorem Sound.not_indifferent (hs : s.Sound) (hw : CanTrail w)
    (h : Document.ofLive? (s.withComment w) ≠ Document.ofLive? s.bare) :
    ¬ Document.Indifferent (s.document w) := by
  rw [Document.indifferent_iff_ofLive?, hs.liveText_document hw, hs.map_clean_withComment]
  exact fun hsame => h hsame.symm

end Setting

end GqlScan
