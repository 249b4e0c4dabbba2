import GqlScan.Proofs.LiveText
import GqlScan.Proofs.Registration

/-!
# The first operation among other text

What stands in front of an operation and what comes after it does not reach the parser's answer,
as long as each part is made of whole lines and leaves no block comment open. The live lines of the
parts are then those of the whole. The lines in front carry no header, so the scope is still closed
when the operation begins; the first line behind carries another name, so the scope closes there,
and no later line opens it again. Unclosed selection sets, stray braces and variables on either side
do not matter, for the scope is decided by headers alone.

Main statement: `step_operation_between`.
-/

namespace GqlScan

open Text

/-! ## Live lines -/

namespace Comment

/-- A condition on the live lines of a document, said of its live text. -/
theorem forall_mem_liveText {content : Text} {p : Text → Prop} :
    (∀ line ∈ liveText content, p line) ↔ ∀ line ∈ liveLines content, p line.text := by
  rw [← map_text_liveLines]
  exact List.forall_mem_map

end Comment

/-! ## Scopes -/

namespace Scope

/-- Whether the scope of `target` is open behind some live lines. -/
def opensAfter (target : Text) (inside : Bool) (lines : List Text) : Bool :=
  lines.foldl (opens target) inside

theorem opensAfter_cons (target : Text) (inside : Bool) (line : Text) (rest : List Text) :
    opensAfter target inside (line :: rest)
      = opensAfter target (opens target inside line) rest := rfl

theorem governed_append (target : Text) (inside : Bool) (xs ys : List Text) :
    governed target inside (xs ++ ys)
      = governed target inside xs ++ governed target (opensAfter target inside xs) ys := by
  induction xs generalizing inside with
  | nil => rfl
  | cons x xs ih =>
    rw [List.cons_append, governed_cons, governed_cons, opensAfter_cons]
    cases opens target inside x with
    | true => rw [if_pos rfl, if_pos rfl, ih, List.cons_append]
    | false => rw [if_neg Bool.false_ne_true, if_neg Bool.false_ne_true, ih]

theorem opens_of_no_header (target : Text) (inside : Bool) {line : Text}
    (h : Header.find? line = none) : opens target inside line = inside := by
  unfold opens
  rw [h]

/-- Without a header the scope stays as it is. -/
theorem opensAfter_of_no_header (target : Text) (inside : Bool) {lines : List Text}
    (h : ∀ l ∈ lines, Header.find? l = none) : opensAfter target inside lines = inside := by
  induction lines with
  | nil => rfl
  | cons l lines ih =>
    rw [opensAfter_cons, opens_of_no_header target inside (h l List.mem_cons_self),
      ih fun m hm => h m (List.mem_cons_of_mem l hm)]

/-- A closed scope takes nothing from lines none of which has the name of its operation. -/
theorem governed_of_other_names {target : Text} {lines : List Text}
    (h : ∀ l ∈ lines, ∀ header ∈ Header.find? l, header.name ≠ target) :
    governed target false lines = [] := by
  induction lines with
  | nil => rfl
  | cons l lines ih =>
    have hclosed : opens target false l = false := by
      unfold opens
      cases hl : Header.find? l with
      | none => rfl
      | some header => exact beq_false_of_ne (h l List.mem_cons_self header hl)
    rw [governed_cons, hclosed, if_neg Bool.false_ne_true,
      ih fun m hm => h m (List.mem_cons_of_mem l hm)]

/-- A scope that is open closes at a header with another name. -/
theorem governed_of_other_header {target : Text} (inside : Bool) {first : Text} {rest : List Text}
    (hfirst : (Header.find? first).isSome)
    (h : ∀ l ∈ first :: rest, ∀ header ∈ Header.find? l, header.name ≠ target) :
    governed target inside (first :: rest) = [] := by
  obtain ⟨header, hheader⟩ := Option.isSome_iff_exists.1 hfirst
  have hclosed : opens target inside first = false := by
    unfold opens
    rw [hheader]
    exact beq_false_of_ne (h first List.mem_cons_self header hheader)
  rw [governed_cons, hclosed, if_neg Bool.false_ne_true,
    governed_of_other_names fun l hl => h l (List.mem_cons_of_mem first hl)]

end Scope

/-! ## Documents -/

namespace Document

theorem find?_eq_none_of_header?_eq_none {content : Text} (h : header? content = none) :
    ∀ line ∈ Comment.liveText content, Header.find? line = none := by
  rw [header?_eq] at h
  exact List.findSome?_eq_none_iff.1 h

/-- What can follow an operation on whole lines: nothing, or a text whose first live line carries a
header, and in which no live line carries the name of the operation. -/
structure Follows (name later : Text) : Prop where
  start : later = [] ∨ ∃ line ∈ (Comment.liveLines later).head?, (Header.find? line.text).isSome
  others : ∀ line ∈ Comment.liveLines later, ∀ header ∈ Header.find? line.text,
    header.name ≠ name

/-- Whatever the state of the scope, nothing that follows an operation belongs to it. -/
theorem Follows.governed_eq_nil {name later : Text} (h : Follows name later) (inside : Bool) :
    Scope.governed name inside (Comment.liveText later) = [] := by
  have hothers : ∀ line ∈ Comment.liveText later, ∀ header ∈ Header.find? line,
      header.name ≠ name :=
    Comment.forall_mem_liveText.2 h.others
  rcases h.start with rfl | ⟨line, hline, hheader⟩
  · rfl
  · obtain ⟨more, hmore⟩ : ∃ more, Comment.liveLines later = line :: more :=
      List.head?_eq_some_iff.1 hline
    have hlive : Comment.liveText later
        = line.text :: more.map Comment.NumberedLine.text := by
      rw [← Comment.map_text_liveLines, hmore, List.map_cons]
    rw [hlive] at hothers ⊢
    exact Scope.governed_of_other_header inside hheader hothers

/-- The operation of a document between lines without header and lines of other operations. -/
theorem operation?_between {before document later : Text} {header : Header}
    (hbefore : Comment.SelfContained before) (hnone : header? before = none)
    (hdocument : Comment.SelfContained document) (hheader : header? document = some header)
    (hlater : Follows header.name later) :
    operation? (before ++ document ++ later) = operation? document := by
  have hfront := find?_eq_none_of_header?_eq_none hnone
  have hlive : Comment.liveText (before ++ document ++ later)
      = Comment.liveText before ++ (Comment.liveText document ++ Comment.liveText later) := by
    rw [List.append_assoc, hbefore.liveText_append, hdocument.liveText_append]
  have hfind : (Comment.liveText document).findSome? Header.find? = some header := by
    rw [← header?_eq, hheader]
  have hfindAll : (Comment.liveText before
      ++ (Comment.liveText document ++ Comment.liveText later)).findSome? Header.find?
        = some header := by
    rw [List.findSome?_append, List.findSome?_eq_none_iff.2 hfront, Option.none_or,
      List.findSome?_append, hfind, Option.some_or]
  -- the scope is closed in front, runs through the document, and takes nothing behind it
  have hscope : Scope.governed header.name false (Comment.liveText before
      ++ (Comment.liveText document ++ Comment.liveText later))
        = Scope.governed header.name false (Comment.liveText document) := by
    have hnothing : Scope.governed header.name false (Comment.liveText before) = [] := by
      refine Scope.governed_of_other_names fun l hl found hfound => ?_
      rw [hfront l hl] at hfound
      cases hfound
    rw [Scope.governed_append, hnothing, Scope.opensAfter_of_no_header _ _ hfront,
      Scope.governed_append, hlater.governed_eq_nil, List.nil_append, List.append_nil]
  rw [operation?_eq_ofLive?, operation?_eq_ofLive?, hlive]
  unfold ofLive?
  rw [hfindAll, hfind, Option.map_some, Option.map_some, hscope]

end Document

namespace Parser

/--
**A parser answers a call for the first operation of a document without regard to what surrounds
it.**

In front there may be whole lines without a header, behind there may be anything that begins with a
header and nowhere carries the name of the operation again. The answer, with all fields, selections
and variables, and the nested types afterwards are those for the operation on its own.
-/
theorem step_operation_between (types : NestedTypes) {before document later : Text}
    {header : Header} (hbefore : Comment.SelfContained before)
    (hnone : Document.header? before = none) (hdocument : Comment.SelfContained document)
    (hheader : Document.header? document = some header)
    (hlater : Document.Follows header.name later) :
    step types (.operation (before ++ document ++ later)) = step types (.operation document) := by
  rw [step_operation, step_operation,
    Document.operation?_between hbefore hnone hdocument hheader hlater]

/-- Whole lines with variables and braces, and a block comment with a header inside. -/
def preamble : Text :=
  "scalar Date # $day: Date \x7b\n\"\"\"\nquery Old \x7b\n\"\"\"\n\x7d\n".toList

/-- An operation with a selection that is not closed. -/
def openQuery : Text :=
  "query Q($id: ID) \x7b\n  movie \x7b\n    title\n  \x7d\n  actor \x7b\n".toList

/-- A mutation with a brace and a variable too many. -/
def mutation : Text := "# next\nmutation R \x7b\n  add($x: Int)\n\x7d\n\x7d\n$y: Int".toList

theorem step_operation_openQuery :
    Comment.SelfContained preamble ∧ Document.header? preamble = none
      ∧ Comment.SelfContained openQuery
      ∧ Document.header? openQuery = some ⟨.query, ['Q']⟩
      ∧ Document.Follows ['Q'] mutation
      ∧ step .empty (.operation (preamble ++ openQuery ++ mutation))
        = step .empty (.operation openQuery) := by
  have hpreamble : Comment.SelfContained preamble := ⟨by decide +kernel, by decide +kernel⟩
  have hnone : Document.header? preamble = none := by decide +kernel
  have hquery : Comment.SelfContained openQuery := ⟨by decide +kernel, by decide +kernel⟩
  have hheader : Document.header? openQuery = some ⟨.query, ['Q']⟩ := by decide +kernel
  have hlines : Comment.liveLines mutation
      = [⟨2, "mutation R \x7b".toList⟩, ⟨3, "add($x: Int)".toList⟩, ⟨4, ['\x7d']⟩,
        ⟨5, ['\x7d']⟩, ⟨6, "$y: Int".toList⟩] := by decide +kernel
  have hfollows : Document.Follows ['Q'] mutation := by
    refine ⟨Or.inr ⟨⟨2, "mutation R \x7b".toList⟩, ?_, by decide +kernel⟩, ?_⟩
    · rw [hlines]
      rfl
    · rw [hlines]
      decide +kernel
  exact ⟨hpreamble, hnone, hquery, hheader, hfollows,
    step_operation_between .empty hpreamble hnone hquery hheader hfollows⟩

end Parser

end GqlScan
