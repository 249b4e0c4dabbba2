import GqlScan.Proofs.Isolation
import GqlScan.Proofs.Spelling

/-!
# Where the header of an operation is found

A header can occur anywhere in a line, also inside a longer word, and occurrences can overlap. The
search decides for the one that starts first and reads its name as far as it goes; it comes up empty
only when the line has no occurrence at all.

The header of an operation is looked for three times: among the live lines of the document, by the
scope of the operation, and in the first line of that scope, where the fields are to start. All three
find the same, for the scope begins with the line of the first search. So the third is never without
a line or without a header.

Main statement: `step_operation_led`.
-/

namespace GqlScan

open Text Canonical

/-! ## Occurrences in a line -/

namespace Header

/-- A header occurs in a line behind some text: its keyword, blanks, and letters of its name, with
some text behind it. -/
def Occurs (line front : Text) (h : Header) (rest : Text) : Prop :=
  ∃ gap, line = front ++ (h.kind.keyword ++ (gap ++ (h.name ++ rest)))
    ∧ gap ≠ [] ∧ Blanks gap ∧ IsName h.name

/-- A line with an occurrence of a header. -/
def Carries (line : Text) : Prop := ∃ front h rest, Occurs line front h rest

/-- The header that occurs leftmost in a line, with its name as far as it goes. -/
structure Leftmost (line front : Text) (h : Header) (rest : Text) : Prop where
  occurs : Occurs line front h rest
  longest : Stops isNameChar rest
  first : ∀ front' h' rest', Occurs line front' h' rest' → front.length ≤ front'.length

theorem Occurs.cons {line front rest : Text} {h : Header} (ho : Occurs line front h rest)
    (c : Char) : Occurs (c :: line) (c :: front) h rest := by
  obtain ⟨gap, rfl, hgap⟩ := ho
  exact ⟨gap, rfl, hgap⟩

theorem Occurs.of_cons {c d : Char} {line front rest : Text} {h : Header}
    (ho : Occurs (c :: line) (d :: front) h rest) : Occurs line front h rest := by
  obtain ⟨gap, happ, hgap⟩ := ho
  exact ⟨gap, (List.cons.inj happ).2, hgap⟩

theorem not_carries_nil : ¬ Carries [] := by
  rintro ⟨front, h, rest, gap, happ, hne, -⟩
  have hlength := congrArg List.length happ
  have hgap := List.length_pos_of_ne_nil hne
  simp only [List.length_nil, List.length_append] at hlength
  omega

theorem front?_eq_some_iff {t rest : Text} {h : Header} :
    front? t = some (h, rest) ↔ Occurs t [] h rest ∧ Stops isNameChar rest := by
  constructor
  · intro hf
    obtain ⟨⟨kind, more⟩, hk, hf⟩ := Option.bind_eq_some_iff.1 hf
    dsimp only at hf
    split at hf
    · rename_i hblank
      obtain ⟨⟨name, rest'⟩, hn, hf⟩ := Option.bind_eq_some_iff.1 hf
      cases hf
      obtain ⟨gap, rfl, hne, hblanks, hname, hrest⟩ := name?_behind_blanks_iff.1 ⟨hblank, hn⟩
      exact ⟨⟨gap, (OperationKind.eq_keyword_append hk).symm, hne, hblanks, hname⟩, hrest⟩
    · cases hf
  · rintro ⟨⟨gap, rfl, hne, hblanks, hname⟩, hrest⟩
    obtain ⟨hblank, hn⟩ := name?_behind_blanks_iff.2 ⟨gap, rfl, hne, hblanks, hname, hrest⟩
    unfold front?
    rw [List.nil_append, OperationKind.ofFront?_keyword]
    simp only [Option.bind_eq_bind, Option.bind_some]
    rw [if_pos hblank, hn]
    rfl

/-- Where a header occurs, one is read: the same with its name as far as it goes. -/
theorem exists_front?_of_occurs {t rest : Text} {h : Header} (ho : Occurs t [] h rest) :
    ∃ found, front? t = some found := by
  obtain ⟨gap, rfl, hne, hblanks, hname⟩ := ho
  have hlonger : IsName (h.name ++ rest.takeWhile isNameChar) := by
    refine ⟨List.append_ne_nil_of_left_ne_nil hname.1 _, fun c hc => ?_⟩
    rcases List.mem_append.1 hc with hc | hc
    · exact hname.2 c hc
    · exact List.mem_takeWhile_imp hc
  refine ⟨(⟨h.kind, h.name ++ rest.takeWhile isNameChar⟩, rest.dropWhile isNameChar),
    front?_eq_some_iff.2 ⟨⟨gap, ?_, hne, hblanks, hlonger⟩, stops_dropWhile _ rest⟩⟩
  rw [List.append_assoc h.name, List.takeWhile_append_dropWhile]

theorem leftmost_of_locate? {line : Text} {found : Header × Text}
    (hl : locate? line = some found) : ∃ front, Leftmost line front found.1 found.2 := by
  induction line with
  | nil => cases hl
  | cons c line ih =>
    rw [locate?] at hl
    cases hf : front? (c :: line) with
    | some read =>
      rw [hf] at hl
      cases hl
      obtain ⟨hoccurs, hlongest⟩ := front?_eq_some_iff.1 hf
      exact ⟨[], hoccurs, hlongest, fun _ _ _ _ => Nat.zero_le _⟩
    | none =>
      -- nothing occurs at the front, so what occurs leftmost behind it does so in the whole line
      rw [hf] at hl
      obtain ⟨front, hleft⟩ := ih hl
      refine ⟨c :: front, hleft.occurs.cons c, hleft.longest, fun front' h' rest' ho => ?_⟩
      cases front' with
      | nil =>
        obtain ⟨read, hread⟩ := exists_front?_of_occurs ho
        rw [hread] at hf
        cases hf
      | cons d front' => exact Nat.succ_le_succ (hleft.first front' h' rest' ho.of_cons)

theorem exists_locate?_of_occurs {line front rest : Text} {h : Header}
    (ho : Occurs line front h rest) : ∃ found, locate? line = some found := by
  induction line generalizing front with
  | nil => exact absurd ⟨front, h, rest, ho⟩ not_carries_nil
  | cons c line ih =>
    rw [locate?]
    cases hf : front? (c :: line) with
    | some read => exact ⟨read, rfl⟩
    | none =>
      cases front with
      | nil =>
        obtain ⟨read, hread⟩ := exists_front?_of_occurs ho
        rw [hread] at hf
        cases hf
      | cons d front => exact ih ho.of_cons

/-- **The search comes up empty exactly when no header occurs.** -/
theorem find?_eq_none_iff {line : Text} : find? line = none ↔ ¬ Carries line := by
  unfold find?
  rw [Option.map_eq_none_iff]
  constructor
  · rintro hnone ⟨front, h, rest, ho⟩
    obtain ⟨found, hfound⟩ := exists_locate?_of_occurs ho
    rw [hfound] at hnone
    cases hnone
  · intro hnone
    cases hl : locate? line with
    | none => rfl
    | some found =>
      obtain ⟨front, hleft⟩ := leftmost_of_locate? hl
      exact absurd ⟨front, found.1, found.2, hleft.occurs⟩ hnone

end Header

/-! ## The line that leads an operation -/

namespace Document

open Comment

/-- The scope of an operation begins with the first line that carries a header with its name. -/
theorem linesOf_eq_cons {content : Text} {before later : List NumberedLine} {line : NumberedLine}
    {header : Header} (hlive : liveLines content = before ++ line :: later)
    (hbefore : ∀ l ∈ before, Header.find? l.text = none)
    (hline : Header.find? line.text = some header) :
    ∃ more, Scope.linesOf content header.name = line.text :: more := by
  have hfront : ∀ t ∈ before.map NumberedLine.text, Header.find? t = none := by
    rw [List.forall_mem_map]
    exact hbefore
  have hnothing : Scope.governed header.name false (before.map NumberedLine.text) = [] := by
    refine Scope.governed_of_other_names fun t ht found hfound => ?_
    rw [hfront t ht] at hfound
    cases hfound
  have hopens : Scope.opens header.name false line.text = true := by
    unfold Scope.opens
    rw [hline]
    exact beq_self_eq_true _
  refine ⟨Scope.governed header.name true (later.map NumberedLine.text), ?_⟩
  rw [Scope.linesOf_eq_governed, ← map_text_liveLines, hlive, List.map_append, List.map_cons,
    Scope.governed_append, hnothing, Scope.opensAfter_of_no_header _ _ hfront,
    Scope.governed_cons, if_pos hopens, List.nil_append]

/-- An operation is led by a line of a document. -/
structure LedBy (content : Text) (o : Operation) (line : NumberedLine) : Prop where
  /-- it is the first live line with a header -/
  first : ∃ before later, liveLines content = before ++ line :: later
    ∧ ∀ l ∈ before, ¬ Header.Carries l.text
  /-- its leftmost header is that of the operation, and what the scope of the operation begins with;
  the search in that scope finds this header and takes it out -/
  header : ∃ front rest more, Header.Leftmost line.text front ⟨o.kind, o.name⟩ rest
    ∧ Scope.linesOf content o.name = line.text :: more
    ∧ Header.locate? line.text = some (⟨o.kind, o.name⟩, rest)
    ∧ withoutHeader (Scope.linesOf content o.name) = rest :: more

theorem operation?_eq_none_iff {content : Text} :
    operation? content = none ↔ ∀ line ∈ liveLines content, ¬ Header.Carries line.text := by
  unfold operation? header?
  rw [Option.map_eq_none_iff, List.findSome?_eq_none_iff]
  simp only [Header.find?_eq_none_iff]

theorem exists_ledBy {content : Text} {o : Operation} (h : operation? content = some o) :
    ∃ line, LedBy content o line := by
  obtain ⟨header, hheader, rfl⟩ := Option.map_eq_some_iff.1 h
  obtain ⟨before, line, later, hlive, hline, hbefore⟩ := List.findSome?_eq_some_iff.1 hheader
  obtain ⟨more, hscope⟩ := linesOf_eq_cons hlive hbefore hline
  obtain ⟨⟨found, rest⟩, hlocate, rfl⟩ := Option.map_eq_some_iff.1 hline
  obtain ⟨front, hleft⟩ := Header.leftmost_of_locate? hlocate
  refine ⟨line, ⟨before, later, hlive, fun l hl => ?_⟩, front, rest, more, hleft, hscope, hlocate,
    ?_⟩
  · exact Header.find?_eq_none_iff.1 (hbefore l hl)
  · change withoutHeader (Scope.linesOf content found.name) = rest :: more
    rw [hscope, withoutHeader, Header.after, hlocate]

end Document

namespace Parser

/--
**A parser finds the first header of a document, and finds it again.**

It answers that there is no operation exactly when no live line carries a header. Otherwise kind and
name of the operation are those of the leftmost header, its name read as far as it goes, on the
first live line that carries one. The lines of the operation begin with that line, so the search for
the place where its fields start has a line to look at and finds this header in it.
-/
theorem step_operation_led (types : NestedTypes) (content : Text) :
    ((step types (.operation content)).2 = .operation none
      ↔ ∀ line ∈ Comment.liveLines content, ¬ Header.Carries line.text)
    ∧ ∀ o, (step types (.operation content)).2 = .operation (some o) →
      ∃ line, Document.LedBy content o line := by
  rw [step_operation]
  constructor
  · rw [Answer.operation.injEq, Document.operation?_eq_none_iff]
  · intro o ho
    exact Document.exists_ledBy (Answer.operation.inj ho)

/-- A document in which the first live line holds two keywords, the first of them inside a word and
in front of the second. -/
def overlapSource : Text := "# query Old\nsubquery mutation Add \x7b\nid\n\x7d\n".toList

/-- The operation of `overlapSource`, which has the second keyword for its name. -/
def overlapQuery : Operation where
  kind := .query
  name := OperationKind.mutation.keyword
  fields := [⟨['i', 'd'], Field.scalarType, []⟩]

theorem step_operation_led_overlap :
    (step .empty (.operation overlapSource)).2 = .operation (some overlapQuery)
      ∧ ∃ line, Document.LedBy overlapSource overlapQuery line := by
  have hfound : Document.operation? overlapSource = some overlapQuery := by decide +kernel
  have hanswer : (step .empty (.operation overlapSource)).2
      = .operation (some overlapQuery) := by rw [step_operation, hfound]
  exact ⟨hanswer, (step_operation_led .empty overlapSource).2 overlapQuery hanswer⟩

end Parser

end GqlScan
