import GqlScan.Proofs.Canonical.Source
import GqlScan.Proofs.CleanText
import GqlScan.Proofs.Lines
import GqlScan.Proofs.LiveText

/-!
# How the lines of a canonical document are read

The lines of a canonical document are made of letters of types and a few signs. None of these is a
line boundary, a comment sign or a double quote, so each line is cut out as it was written, is live,
and is its own trimmed form. Only the head line holds a header and variables.

Main statement: `liveText_print`, that the live text of a printed source is its lines.
-/

namespace GqlScan.Canonical

open Text

/-! ## The characters of a line -/

/-- A text of letters of types and of some further characters. -/
def Written (extra : List Char) (t : Text) : Prop := ∀ c ∈ t, isTypeChar c = true ∨ c ∈ extra

/-- The signs in the lines of a forest. -/
def forestSigns : List Char := [' ', ':', '{', '}']

/-- The signs in the parameters of a head line. -/
def signatureSigns : List Char := [' ', ':', '$', '(', ')', ',']

/-- The signs in the lines of a source. -/
def signs : List Char := forestSigns ++ signatureSigns

namespace Written

variable {extra : List Char} {t u : Text}

theorem append (ht : Written extra t) (hu : Written extra u) : Written extra (t ++ u) := by
  intro c hc
  rcases List.mem_append.1 hc with h | h
  · exact ht c h
  · exact hu c h

theorem of_subset (h : t ⊆ extra) : Written extra t := fun _ hc => Or.inr (h hc)

theorem mono {more : List Char} (ht : Written extra t) (h : extra ⊆ more) :
    Written more t := by
  intro c hc
  rcases ht c hc with hl | hs
  · exact Or.inl hl
  · exact Or.inr (h hs)

theorem not_mem {c : Char} (ht : Written extra t) (hl : isTypeChar c = false) (hs : c ∉ extra) :
    c ∉ t := by
  intro hc
  rcases ht c hc with h | h
  · rw [hl] at h
    cases h
  · exact hs h

end Written

theorem isBlank_of_isLineBreak {c : Char} (h : isLineBreak c = true) : isBlank c = true := by
  unfold isLineBreak at h
  unfold isBlank
  simp only [Bool.or_eq_true, Bool.and_eq_true, decide_eq_true_eq, beq_iff_eq] at h ⊢
  omega

theorem Written.unbroken {extra : List Char} {t : Text} (hextra : Unbroken extra)
    (ht : Written extra t) : Unbroken t := by
  intro c hc
  rcases ht c hc with h | h
  · cases hb : isLineBreak c with
    | false => rfl
    | true =>
      have := isBlank_of_isLineBreak hb
      rw [isBlank_eq_false_of_isTypeChar h] at this
      cases this
  · exact hextra c h

namespace Name

variable (n : Name)

theorem letters {c : Char} (hc : c ∈ n.1) : isNameChar c = true := n.2.2 c hc

theorem written (extra : List Char) : Written extra n.1 :=
  fun _ hc => Or.inl (isTypeChar_of_isNameChar (n.letters hc))

theorem stops : Stops isBlank n.1 :=
  fun _ hc => isBlank_eq_false_of_isNameChar (n.letters (List.mem_of_head? hc))

theorem solid : Solid n.1 :=
  fun _ hc => isBlank_eq_false_of_isNameChar (n.letters (List.mem_of_getLast? hc))

end Name

namespace TypeName

variable (t : TypeName)

theorem letters {c : Char} (hc : c ∈ t.1) : isTypeChar c = true := t.2.2 c hc

theorem written (extra : List Char) : Written extra t.1 := fun _ hc => Or.inl (t.letters hc)

theorem solid : Solid t.1 :=
  fun _ hc => isBlank_eq_false_of_isTypeChar (t.letters (List.mem_of_getLast? hc))

end TypeName

/-! ## The lines of a document -/

/-- A line that is its own trimmed form and holds nothing but letters of types and some further
characters. -/
structure Legible (extra : List Char) (l : Text) : Prop where
  written : Written extra l
  stops : Stops isBlank l
  solid : Solid l
  ne_nil : l ≠ []

namespace Legible

variable {extra more : List Char} {l : Text}

theorem mono (h : Legible extra l) (hsub : extra ⊆ more) : Legible more l :=
  ⟨h.written.mono hsub, h.stops, h.solid, h.ne_nil⟩

theorem trim_eq (h : Legible extra l) : trim l = l := trim_of_stops_of_solid h.stops h.solid

end Legible

namespace Forest

/-- What holds of the three kinds of lines holds of all lines of a block. -/
theorem forall_mem_block {P : Text → Prop}
    (hleaf : ∀ (name : Name) (type? : Option TypeName), P (leafLine name type?))
    (hopen : ∀ name : Name, P (openLine name)) (hclose : P closeLine) (F : Forest) :
    ∀ l ∈ F.lines ++ [closeLine], P l := by
  induction F with
  | nil =>
    intro l hl
    rw [List.mem_singleton.1 hl]
    exact hclose
  | leaf name type? rest ih =>
    intro l hl
    rcases List.mem_cons.1 hl with rfl | hl
    · exact hleaf name type?
    · exact ih l hl
  | node name children rest ihc ihr =>
    -- the line that closes the children is the one that ends their block
    have happ : (node name children rest).lines ++ [closeLine]
        = openLine name :: ((children.lines ++ [closeLine]) ++ (rest.lines ++ [closeLine])) := by
      rw [lines, List.cons_append, List.append_assoc, List.append_assoc]
      rfl
    intro l hl
    rw [happ] at hl
    rcases List.mem_cons.1 hl with rfl | hl
    · exact hopen name
    · rcases List.mem_append.1 hl with hl | hl
      · exact ihc l hl
      · exact ihr l hl

theorem written_leafLine (name : Name) (type? : Option TypeName) :
    Written [':', ' '] (leafLine name type?) := by
  cases type? with
  | none => exact name.written _
  | some type =>
    have hcolon : Written [':', ' '] [':', ' '] := .of_subset (List.Subset.refl _)
    exact ((name.written _).append hcolon).append (type.written _)

theorem legible_leafLine (name : Name) (type? : Option TypeName) :
    Legible forestSigns (leafLine name type?) := by
  have hwritten : Written forestSigns (leafLine name type?) :=
    (written_leafLine name type?).mono (by decide)
  cases type? with
  | none => exact ⟨hwritten, name.stops, name.solid, name.2.1⟩
  | some type =>
    refine ⟨hwritten, ?_, ?_, ?_⟩
    · rw [leafLine, List.append_assoc]
      exact name.stops.append name.2.1 _
    · exact type.solid.append type.2.1 _
    · exact List.append_ne_nil_of_right_ne_nil _ type.2.1

theorem solid_brace : Solid [' ', '{'] := by
  intro c hc
  cases hc
  decide

theorem legible_openLine (name : Name) : Legible forestSigns (openLine name) := by
  have hbrace : Written forestSigns [' ', '{'] := .of_subset (by decide)
  refine ⟨(name.written _).append hbrace, name.stops.append name.2.1 _, ?_, ?_⟩
  · exact solid_brace.append (List.cons_ne_nil _ _) _
  · exact List.append_ne_nil_of_left_ne_nil name.2.1 _

theorem legible_closeLine : Legible forestSigns closeLine := by
  have hbrace : isBlank '}' = false := by decide
  refine ⟨.of_subset (by decide), .cons hbrace [], ?_, List.cons_ne_nil _ _⟩
  intro c hc
  cases hc
  exact hbrace

theorem legible_block (F : Forest) : ∀ l ∈ F.lines ++ [closeLine], Legible forestSigns l :=
  F.forall_mem_block legible_leafLine legible_openLine legible_closeLine

theorem legible_lines (F : Forest) {l : Text} (hl : l ∈ F.lines) : Legible forestSigns l :=
  F.legible_block l (List.mem_append_left _ hl)

end Forest

namespace Source

theorem written_join {ts : List Text} (h : ∀ t ∈ ts, Written signatureSigns t) :
    Written signatureSigns (join [',', ' '] ts) := by
  have hcomma : Written signatureSigns [',', ' '] := .of_subset (by decide)
  fun_induction join [',', ' '] ts with
  | case1 => exact fun c hc => by cases hc
  | case2 t => exact h t List.mem_cons_self
  | case3 t u ts ih =>
    refine ((h t List.mem_cons_self).append hcomma).append ?_
    exact ih fun v hv => h v (List.mem_cons_of_mem t hv)

theorem written_parameter (p : Parameter) : Written signatureSigns p.print := by
  have hdollar : Written signatureSigns ['$'] := .of_subset (by decide)
  have hcolon : Written signatureSigns [':', ' '] := .of_subset (by decide)
  exact hdollar.append (((p.name.written _).append hcolon).append (p.type.written _))

theorem written_signature (parameters : List Parameter) :
    Written signatureSigns (signature parameters) := by
  unfold signature
  split
  · exact fun c hc => by cases hc
  · have hopen : Written signatureSigns ['('] := .of_subset (by decide)
    have hclose : Written signatureSigns [')'] := .of_subset (by decide)
    refine (hopen.append (written_join ?_)).append hclose
    intro t ht
    obtain ⟨p, -, rfl⟩ := List.mem_map.1 ht
    exact written_parameter p

variable (s : Source)

theorem legible_headLine : Legible signs s.headLine := by
  have hspace : Written signs [' '] := .of_subset (by decide)
  have hbrace : Written signs [' ', '{'] := .of_subset (by decide)
  have hkey := s.kind.keyword_letters
  have hne : s.kind.keyword ≠ [] := by cases s.kind <;> decide
  have hkeyWritten : Written signs s.kind.keyword :=
    fun c hc => Or.inl (isTypeChar_of_isNameChar (hkey c hc))
  have hkeyStops : Stops isBlank s.kind.keyword :=
    fun c hc => isBlank_eq_false_of_isNameChar (hkey c (List.mem_of_head? hc))
  have hsignature : Written signs (signature s.parameters) :=
    (written_signature _).mono fun c hc => List.mem_append_right _ hc
  refine ⟨?_, ?_, Forest.solid_brace.append (List.cons_ne_nil _ _) _, ?_⟩
  · exact (((hkeyWritten.append hspace).append (s.name.written _)).append hsignature).append hbrace
  · unfold headLine
    rw [List.append_assoc, List.append_assoc, List.append_assoc]
    exact hkeyStops.append hne _
  · exact List.append_ne_nil_of_right_ne_nil _ (List.cons_ne_nil _ _)

theorem legible_lines : ∀ l ∈ s.lines, Legible signs l := by
  intro l hl
  rcases List.mem_cons.1 hl with rfl | hl
  · exact s.legible_headLine
  · exact (s.forest.legible_block l hl).mono fun c hc => List.mem_append_left _ hc

/-! ## The live text -/

theorem blanks_replicate (k : Nat) : Blanks (List.replicate k ' ') := by
  intro c hc
  rw [List.eq_of_mem_replicate hc]
  decide

/-- **The live text of a printed source is its lines.** -/
theorem liveText_print (indent : Nat → Nat) (lastFeed : Bool) :
    Comment.liveText (s.print indent lastFeed) = s.lines := by
  have hindented : ∀ l ∈ s.lines.mapIdx fun i line => List.replicate (indent i) ' ' ++ line,
      Written signs l ∧ l ≠ [] := by
    intro l hl
    obtain ⟨i, hi, rfl⟩ := List.mem_mapIdx.1 hl
    have hline := s.legible_lines _ (List.getElem_mem hi)
    have hblanks : Written signs (List.replicate (indent i) ' ') := by
      refine .of_subset ?_
      intro c hc
      rw [List.eq_of_mem_replicate hc]
      decide
    exact ⟨hblanks.append hline.written, List.append_ne_nil_of_right_ne_nil _ hline.ne_nil⟩
  unfold Comment.liveText print
  have hunbroken : Unbroken signs := by decide
  rw [lineTexts_joinLines ?_
    (fun l hl => ⟨(hindented l hl).1.unbroken hunbroken, (hindented l hl).2⟩)]
  · rw [Comment.liveTexts_eq_map_trim]
    · -- trimming takes the indentation away, which differs from line to line
      refine List.ext_getElem (by rw [List.length_map, List.length_mapIdx]) ?_
      intro i _ hi
      rw [List.getElem_map, List.getElem_mapIdx,
        trim_blanks_append (blanks_replicate (indent i))]
      exact (s.legible_lines _ (List.getElem_mem hi)).trim_eq
    · intro l hl
      have hwritten := (hindented l hl).1
      exact ⟨hwritten.not_mem (by decide) (by decide), hwritten.not_mem (by decide) (by decide)⟩
  · rw [Ne, List.mapIdx_eq_nil_iff]
    exact List.cons_ne_nil _ _

end Source

end GqlScan.Canonical
