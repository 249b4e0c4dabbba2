import Mathlib.Data.List.TakeWhile
import GqlScan.Proofs.Lines
import GqlScan.Proofs.Outlines.Unfolding
import GqlScan.Proofs.Spelling

/-!
# Outlines and the fields an operation owns

An outline looks up what stands under a field by the type of the field. What the field owns are its
selections. The two agree when every field finds, under its type, selections like its own, and the
outline then lists the fields of the operation through their selections, each once and under its
owner. Otherwise it shows something else or does not end: indentation, names and types can be read
off the lines again, so no other tree gives the same lines.

Main statement: `ofOperation_eq_own_iff`.
-/

namespace GqlScan

open Text

/-! ## Field trees -/

namespace Field

mutual

/-- The lines of a field and, below it, of its selections. -/
def listing (depth : Nat) : Field → List Text
  | ⟨name, type, selections⟩ =>
    Outline.fieldLine (4 + 2 * depth) ⟨name, type, selections⟩
      :: listingAll (depth + 1) selections

/-- The lines of some fields, each followed by those of its selections. -/
def listingAll (depth : Nat) : List Field → List Text
  | [] => []
  | f :: fs => listing depth f ++ listingAll depth fs

end

theorem listingAll_nil (depth : Nat) : listingAll depth [] = [] := by rw [listingAll]

theorem listingAll_cons (depth : Nat) (f : Field) (fs : List Field) :
    listingAll depth (f :: fs)
      = Outline.fieldLine (4 + 2 * depth) f
        :: (listingAll (depth + 1) f.selections ++ listingAll depth fs) := by
  cases f
  rw [listingAll, listing, List.cons_append]

mutual

theorem forest_induction_selections {motive : List Field → Prop} (nil : motive [])
    (cons : ∀ f fs, motive f.selections → motive fs → motive (f :: fs)) :
    (f : Field) → motive f.selections
  | ⟨_, _, selections⟩ => forest_induction nil cons selections

/-- Induction on fields along their selections. -/
theorem forest_induction {motive : List Field → Prop} (nil : motive [])
    (cons : ∀ f fs, motive f.selections → motive fs → motive (f :: fs)) :
    (fs : List Field) → motive fs
  | [] => nil
  | f :: fs =>
    cons f fs (forest_induction_selections nil cons f) (forest_induction nil cons fs)

end

theorem Within.of_mem_selections {f g : Field} {fs : List Field} (h : g.Within fs)
    (hf : f ∈ g.selections) : f.Within fs := by
  induction h with
  | among hg => exact .under hg (.among hf)
  | under hg _ ih => exact .under hg ih

theorem within_cons {f g : Field} {fs : List Field} :
    f.Within (g :: fs) ↔ f = g ∨ f.Within g.selections ∨ f.Within fs := by
  constructor
  · intro h
    cases h with
    | among hf =>
      rcases List.mem_cons.1 hf with rfl | hf
      · exact Or.inl rfl
      · exact Or.inr (Or.inr (.among hf))
    | under hx hw =>
      rcases List.mem_cons.1 hx with rfl | hx
      · exact Or.inr (Or.inl hw)
      · exact Or.inr (Or.inr (.under hx hw))
  · rintro (rfl | h | h)
    · exact .among List.mem_cons_self
    · exact .under List.mem_cons_self h
    · exact h.mono fun x hx => List.mem_cons_of_mem g hx

end Field

namespace Document

theorem like_nil {fs : List Field} : Like fs [] ↔ fs = [] := List.map_eq_nil_iff

theorem like_cons {f g : Field} {fs gs : List Field} :
    Like (f :: fs) (g :: gs) ↔ f.key = g.key ∧ Like fs gs := by
  unfold Like
  rw [List.map_cons, List.map_cons, List.cons.injEq]

end Document

/-! ## Reading lines -/

namespace Outline

/-- The number of spaces at the front of a line. -/
def indentOf (line : Text) : Nat := (line.takeWhile (· == ' ')).length

section

variable {f g : Field} {indent depth : Nat}

theorem fieldLine_eq (indent : Nat) (f : Field) :
    fieldLine indent f = List.replicate indent ' ' ++ (f.name ++ ':' :: ' ' :: f.type) := by
  unfold fieldLine
  rw [List.append_assoc, List.append_assoc]
  rfl

theorem fieldLine_congr (h : f.key = g.key) : fieldLine indent f = fieldLine indent g := by
  obtain ⟨hname, htype⟩ := Prod.mk.inj h
  rw [fieldLine_eq, fieldLine_eq, hname, htype]

/-- The indentation ends where the name starts. -/
theorem indentOf_fieldLine (h : f.Spelled) : indentOf (fieldLine indent f) = indent := by
  have hstop : (f.name ++ ':' :: ' ' :: f.type).takeWhile (· == ' ') = [] := by
    obtain ⟨hne, hletters⟩ := h.name
    cases hname : f.name with
    | nil => exact absurd hname hne
    | cons c rest =>
      have hc := hletters c (hname ▸ List.mem_cons_self)
      have hspace : (c == ' ') = false := by
        rw [beq_eq_false_iff_ne]
        rintro rfl
        exact absurd hc (by decide)
      rw [List.cons_append, List.takeWhile_cons, hspace]
      rfl
  have hspaces : ∀ c ∈ List.replicate indent ' ', (c == ' ') = true := by
    intro c hc
    rw [List.eq_of_mem_replicate hc]
    rfl
  unfold indentOf
  rw [fieldLine_eq, List.takeWhile_append_of_pos hspaces, hstop, List.append_nil,
    List.length_replicate]

/-- A name goes as far as the colon. -/
theorem takeWhile_name_append (h : f.Spelled) :
    (f.name ++ ':' :: ' ' :: f.type).takeWhile isNameChar = f.name := by
  have hcolon : Stops isNameChar (':' :: ' ' :: f.type) := .cons (by decide) _
  rw [takeWhile_append_of_stops hcolon, List.takeWhile_eq_self_iff.2 h.name.2]

/-- Name and type can be read off a line. -/
theorem key_eq_of_fieldLine_eq (hf : f.Spelled) (hg : g.Spelled)
    (h : fieldLine indent f = fieldLine indent g) : f.key = g.key := by
  rw [fieldLine_eq, fieldLine_eq] at h
  have hline := List.append_cancel_left h
  have hname : f.name = g.name := by
    rw [← takeWhile_name_append hf, hline, takeWhile_name_append hg]
  have htype : f.type = g.type := by
    rw [hname] at hline
    have := List.append_cancel_left hline
    injection this with _ this
    injection this
  unfold Field.key
  rw [hname, htype]

theorem feed_not_mem_fieldLine (h : f.Spelled) : '\n' ∉ fieldLine indent f := by
  rw [fieldLine_eq]
  intro hmem
  rcases List.mem_append.1 hmem with hmem | hmem
  · exact absurd (List.eq_of_mem_replicate hmem) (by decide)
  rcases List.mem_append.1 hmem with hmem | hmem
  · exact absurd (h.name.2 _ hmem) (by decide)
  rcases List.mem_cons.1 hmem with hmem | hmem
  · exact absurd hmem (by decide)
  rcases List.mem_cons.1 hmem with hmem | hmem
  · exact absurd hmem (by decide)
  · exact absurd (h.type.2 _ hmem) (by decide)

end

/-! ## Lines at a depth -/

/-- Lines that belong to fields at a depth: none is indented less, and the first one, if there is
any, not more. -/
structure StandAt (depth : Nat) (lines : List Text) : Prop where
  le : ∀ l ∈ lines, 4 + 2 * depth ≤ indentOf l
  first : ∀ l ∈ lines.head?, indentOf l = 4 + 2 * depth
  feeds : ∀ l ∈ lines, '\n' ∉ l

theorem StandAt.nil (depth : Nat) : StandAt depth [] where
  le := fun l hl => by cases hl
  first := fun l hl => by cases hl
  feeds := fun l hl => by cases hl

theorem StandAt.cons {depth : Nat} {f : Field} {under lines : List Text} (hf : f.Spelled)
    (hunder : StandAt (depth + 1) under) (hlines : StandAt depth lines) :
    StandAt depth (fieldLine (4 + 2 * depth) f :: (under ++ lines)) := by
  refine ⟨fun l hl => ?_, fun l hl => ?_, fun l hl => ?_⟩
  · rcases List.mem_cons.1 hl with rfl | hl
    · exact Nat.le_of_eq (indentOf_fieldLine hf).symm
    rcases List.mem_append.1 hl with hl | hl
    · have := hunder.le l hl
      omega
    · exact hlines.le l hl
  · cases hl
    exact indentOf_fieldLine hf
  · rcases List.mem_cons.1 hl with rfl | hl
    · exact feed_not_mem_fieldLine hf
    rcases List.mem_append.1 hl with hl | hl
    · exact hunder.feeds l hl
    · exact hlines.feeds l hl

/-- The lines that are indented more are the ones that stand further down. -/
theorem StandAt.takeWhile_append {depth : Nat} {under lines : List Text}
    (hunder : StandAt (depth + 1) under) (hlines : StandAt depth lines) :
    (under ++ lines).takeWhile (fun l => decide (4 + 2 * depth < indentOf l)) = under := by
  have hdeeper : ∀ l ∈ under, decide (4 + 2 * depth < indentOf l) = true := by
    intro l hl
    have := hunder.le l hl
    exact decide_eq_true (by omega)
  rw [List.takeWhile_append_of_pos hdeeper]
  cases lines with
  | nil => exact List.append_nil under
  | cons l lines =>
    have hfirst : ¬ 4 + 2 * depth < indentOf l := by
      rw [hlines.first l rfl]
      exact Nat.lt_irrefl _
    rw [List.takeWhile_cons, decide_eq_false hfirst, if_neg Bool.false_ne_true, List.append_nil]

theorem StandAt.append_inj {depth : Nat} {under under' lines lines' : List Text}
    (hunder : StandAt (depth + 1) under) (hunder' : StandAt (depth + 1) under')
    (hlines : StandAt depth lines) (hlines' : StandAt depth lines')
    (h : under ++ lines = under' ++ lines') : under = under' ∧ lines = lines' := by
  have heq : under = under' := by
    rw [← hunder.takeWhile_append hlines, h, hunder'.takeWhile_append hlines']
  rw [heq] at h
  exact ⟨heq, List.append_cancel_left h⟩

theorem standAt_listingAll {fs : List Field} (h : ∀ f : Field, f.Within fs → f.Spelled)
    (depth : Nat) : StandAt depth (Field.listingAll depth fs) := by
  induction fs using Field.forest_induction generalizing depth with
  | nil =>
    rw [Field.listingAll_nil]
    exact .nil depth
  | cons f fs ihSelections ih =>
    rw [Field.listingAll_cons]
    refine .cons (h f (Field.within_cons.2 (Or.inl rfl))) (ihSelections ?_ (depth + 1)) (ih ?_ depth)
    · exact fun g hg => h g (Field.within_cons.2 (Or.inr (Or.inl hg)))
    · exact fun g hg => h g (Field.within_cons.2 (Or.inr (Or.inr hg)))

section

variable {types : NestedTypes}

/-- All registered fields are spelled as such. -/
def Spelled (types : NestedTypes) : Prop :=
  ∀ t fields, types.get? t = some fields → ∀ f ∈ fields, f.Spelled

theorem Spelled.below (h : Spelled types) {f g : Field} (hg : g ∈ below types f) : g.Spelled :=
  h _ _ (get?_of_mem_below hg) g hg

theorem standAt_of_unfolds {depth : Nat} {fields : List Field} {lines : List Text}
    (htypes : Spelled types) (hfields : ∀ f ∈ fields, f.Spelled)
    (h : Unfolds types depth fields lines) : StandAt depth lines := by
  induction h with
  | nil => exact .nil _
  | @cons depth f fs under lines _ _ ihUnder ihLines =>
    exact .cons (hfields f List.mem_cons_self) (ihUnder fun g hg => htypes.below hg)
      (ihLines fun g hg => hfields g (List.mem_cons_of_mem f hg))

/-! ## Own selections and registered ones -/

/-- Fields like the ones an operation owns unfold into the lines of what it owns, when all of these
find selections like their own. -/
theorem unfolds_listingAll {fs gs : List Field} (hlike : Document.Like gs fs)
    (h : ∀ f : Field, f.Within fs → Document.Like (below types f) f.selections) (depth : Nat) :
    Unfolds types depth gs (Field.listingAll depth fs) := by
  induction fs using Field.forest_induction generalizing gs depth with
  | nil =>
    rw [Document.like_nil.1 hlike, Field.listingAll_nil]
    exact .nil
  | cons f fs ihSelections ih =>
    cases gs with
    | nil => cases hlike
    | cons g gs =>
      obtain ⟨hkey, hrest⟩ := Document.like_cons.1 hlike
      have hbelow : below types g = below types f := below_congr (Prod.mk.inj hkey).2
      rw [Field.listingAll_cons, ← fieldLine_congr hkey]
      refine .cons ?_ (ih hrest (fun x hx => h x ?_) depth)
      · rw [hbelow]
        refine ihSelections (h f (Field.within_cons.2 (Or.inl rfl))) (fun x hx => h x ?_) (depth + 1)
        exact Field.within_cons.2 (Or.inr (Or.inl hx))
      · exact Field.within_cons.2 (Or.inr (Or.inr hx))

/-- Fields that unfold into the lines of what an operation owns are like what it owns, and all of
that finds selections like its own. -/
theorem like_of_unfolds_listingAll {fs gs : List Field} {depth : Nat} (htypes : Spelled types)
    (hfs : ∀ f : Field, f.Within fs → f.Spelled) (hgs : ∀ g ∈ gs, g.Spelled)
    (h : Unfolds types depth gs (Field.listingAll depth fs)) :
    Document.Like gs fs
      ∧ ∀ f : Field, f.Within fs → Document.Like (below types f) f.selections := by
  induction fs using Field.forest_induction generalizing gs depth with
  | nil =>
    rw [Field.listingAll_nil] at h
    cases h
    refine ⟨rfl, fun f hf => ?_⟩
    cases hf with
    | among hf => cases hf
    | under hf _ => cases hf
  | cons f fs ihSelections ih =>
    have hf : f.Spelled := hfs f (Field.within_cons.2 (Or.inl rfl))
    have hselections : ∀ x : Field, x.Within f.selections → x.Spelled :=
      fun x hx => hfs x (Field.within_cons.2 (Or.inr (Or.inl hx)))
    have hrest : ∀ x : Field, x.Within fs → x.Spelled :=
      fun x hx => hfs x (Field.within_cons.2 (Or.inr (Or.inr hx)))
    rw [Field.listingAll_cons] at h
    generalize hall : fieldLine (4 + 2 * depth) f :: (Field.listingAll (depth + 1) f.selections
      ++ Field.listingAll depth fs) = all at h
    cases h with
    | nil => cases hall
    | @cons _ g gs under lines hunder hlines =>
      have hg : g.Spelled := hgs g List.mem_cons_self
      have hgs' : ∀ x ∈ gs, x.Spelled := fun x hx => hgs x (List.mem_cons_of_mem g hx)
      injection hall with hline happend
      have hkey : g.key = f.key := (key_eq_of_fieldLine_eq hf hg hline).symm
      -- the lines further down end where the indentation goes back
      obtain ⟨hsame, hsame'⟩ := (standAt_listingAll hselections (depth + 1)).append_inj
        (standAt_of_unfolds htypes (fun x hx => htypes.below hx) hunder)
        (standAt_listingAll hrest depth) (standAt_of_unfolds htypes hgs' hlines) happend
      rw [← hsame] at hunder
      rw [← hsame'] at hlines
      obtain ⟨hlikeBelow, hfinds⟩ := ihSelections hselections (fun x hx => htypes.below hx) hunder
      obtain ⟨hlike, hfinds'⟩ := ih hrest hgs' hlines
      refine ⟨Document.like_cons.2 ⟨hkey, hlike⟩, fun x hx => ?_⟩
      rcases Field.within_cons.1 hx with rfl | hx | hx
      · rw [← below_congr (Prod.mk.inj hkey).2]
        exact hlikeBelow
      · exact hfinds x hx
      · exact hfinds' x hx

end

/-! ## Joined lines -/

/-- A line goes as far as the next line feed. -/
theorem takeWhile_line_append {line : Text} (h : '\n' ∉ line) (lines : List Text) :
    (line ++ lines.flatMap (List.cons '\n')).takeWhile (· != '\n') = line := by
  have hstops : Stops (· != '\n') (lines.flatMap (List.cons '\n')) := by
    cases lines with
    | nil => exact .nil _
    | cons next lines => exact .cons (by decide) _
  rw [takeWhile_append_of_stops hstops, List.takeWhile_eq_self_iff]
  exact fun c hc => bne_iff_ne.2 fun e => h (e ▸ hc)

theorem flatMap_feed_inj {xs ys : List Text} (hxs : ∀ l ∈ xs, '\n' ∉ l) (hys : ∀ l ∈ ys, '\n' ∉ l)
    (h : xs.flatMap (List.cons '\n') = ys.flatMap (List.cons '\n')) : xs = ys := by
  induction xs generalizing ys with
  | nil =>
    cases ys with
    | nil => rfl
    | cons y ys => cases h
  | cons x xs ih =>
    cases ys with
    | nil => cases h
    | cons y ys =>
      rw [List.flatMap_cons, List.flatMap_cons, List.cons_append, List.cons_append] at h
      injection h with _ h
      have hx := hxs x List.mem_cons_self
      have hy := hys y List.mem_cons_self
      have hline : x = y := by rw [← takeWhile_line_append hx xs, h, takeWhile_line_append hy ys]
      rw [hline] at h
      rw [hline, ih (fun l hl => hxs l (List.mem_cons_of_mem x hl))
        (fun l hl => hys l (List.mem_cons_of_mem y hl)) (List.append_cancel_left h)]

/-- The lines of the fields can be read off an outline. -/
theorem eq_of_joinLines_headLines_eq {o : Operation} {xs ys : List Text}
    (hxs : ∀ l ∈ xs, '\n' ∉ l) (hys : ∀ l ∈ ys, '\n' ∉ l)
    (h : joinLines (headLines o ++ xs) = joinLines (headLines o ++ ys)) : xs = ys := by
  have hhead : ∃ line lines, headLines o = line :: lines := ⟨_, _, rfl⟩
  obtain ⟨line, lines, hhead⟩ := hhead
  rw [hhead, List.cons_append, List.cons_append, joinLines_cons, joinLines_cons,
    List.flatMap_append, List.flatMap_append] at h
  exact flatMap_feed_inj hxs hys (List.append_cancel_left (List.append_cancel_left h))

end Outline

/-! ## The outline of a document -/

namespace Document

section

variable {content : Text} {o : Operation} {types : NestedTypes}

theorem operation?_of_scan (h : scan .empty content = (some o, types)) :
    operation? content = some o := by
  rw [scan_eq] at h
  exact (Prod.mk.inj h).1

theorem types_of_scan (h : scan .empty content = (some o, types)) :
    types = NestedTypes.empty.registerAll (Field.shapesAll o.fields) := by
  rw [← nestedTypes_eq (operation?_of_scan h), nestedTypes, h]

/-- A type name is registered with the selections of a nested field of that type, and only when
there is one. -/
theorem get?_of_scan (h : scan .empty content = (some o, types)) (t : Text) :
    (∃ g : Field, g.NestedIn o.fields ∧ g.type = t ∧ types.get? t = some g.selections)
    ∨ (∀ g : Field, g.NestedIn o.fields → g.type ≠ t) ∧ types.get? t = none := by
  by_cases ht : ∃ f ∈ Field.nestedAll o.fields, f.type = t
  · obtain ⟨xs, g, ys, he, rfl, hys⟩ := Field.exists_last_of_type ht
    have hmem : g ∈ Field.nestedAll o.fields := by
      rw [he]
      exact List.mem_append_right xs List.mem_cons_self
    have hnested : nestedTypes content = types := by rw [nestedTypes, h]
    refine Or.inl ⟨g, Field.mem_nestedAll_iff.1 hmem, rfl, ?_⟩
    rw [← hnested]
    exact get?_nestedTypes_of_last (operation?_of_scan h) he hys
  · have hnone : ∀ f ∈ Field.nestedAll o.fields, f.type ≠ t := fun f hf he => ht ⟨f, hf, he⟩
    refine Or.inr ⟨fun g hg => hnone g (Field.mem_nestedAll_iff.2 hg), ?_⟩
    rw [types_of_scan h, NestedTypes.get?_registerAll_of_ne]
    · rfl
    · intro s hs
      obtain ⟨f, hf, rfl⟩ := List.mem_map.1 hs
      exact hnone f hf

/-- What stands under a field in the outline: the selections of a nested field of the same type, or
nothing if there is none. -/
theorem below_of_scan (h : scan .empty content = (some o, types)) (f : Field) :
    (∃ g : Field, g.NestedIn o.fields ∧ g.type = f.type ∧ Outline.below types f = g.selections)
    ∨ (∀ g : Field, g.NestedIn o.fields → g.type ≠ f.type) ∧ Outline.below types f = [] := by
  unfold Outline.below
  rcases get?_of_scan h f.type with ⟨g, hg, ht, hget⟩ | ⟨hnone, hget⟩
  · refine Or.inl ⟨g, hg, ht, ?_⟩
    rw [hget]
    rfl
  · refine Or.inr ⟨hnone, ?_⟩
    rw [hget]
    rfl

theorem spelled_types_of_scan (h : scan .empty content = (some o, types)) :
    Outline.Spelled types := by
  intro t fields hget f hf
  rcases get?_of_scan h t with ⟨g, hg, -, hfound⟩ | ⟨-, hnone⟩
  · rw [hget] at hfound
    cases hfound
    exact spelled_of_within (operation?_of_scan h) (hg.1.of_mem_selections hf)
  · rw [hget] at hnone
    cases hnone

/-- The fields of an operation find selections like their own exactly when there are no others to
find under their types. -/
theorem finds_own_iff (h : scan .empty content = (some o, types)) :
    (∀ f : Field, f.Within o.fields → Like (Outline.below types f) f.selections)
    ↔ ∀ f g : Field, f.Within o.fields → g.NestedIn o.fields → f.type = g.type →
        Like f.selections g.selections := by
  constructor
  · intro hfinds f g hf hg ht
    have hbelow := hfinds f hf
    rw [Outline.below_congr ht] at hbelow
    exact hbelow.symm.trans (hfinds g hg.1)
  · intro hlike f hf
    rcases below_of_scan h f with ⟨g, hg, ht, hbelow⟩ | ⟨hnone, hbelow⟩
    · rw [hbelow]
      exact (hlike f g hf hg ht.symm).symm
    · -- a field with selections would itself be nested and have its own type
      have hempty : f.selections = [] := by
        by_contra hne
        exact hnone f ⟨hf, hne⟩ rfl
      rw [hbelow, hempty]
      rfl

/--
**When an outline shows the fields an operation owns.**

Take any document with an operation. Its outline is given, and consists of the lines at the head and
one line for each field of the operation at any depth, in the order in which the selections list
them and indented by their depth, if, and only if, any field with the type of a nested field has
selections like it.
-/
theorem ofOperation_eq_own_iff (h : scan .empty content = (some o, types)) :
    Outline.ofOperation types o
        = .ok (joinLines (Outline.headLines o ++ Field.listingAll 0 o.fields))
      ↔ ∀ f g : Field, f.Within o.fields → g.NestedIn o.fields → f.type = g.type →
          Like f.selections g.selections := by
  have htypes := spelled_types_of_scan h
  have hspelled : ∀ f : Field, f.Within o.fields → f.Spelled :=
    fun f hf => spelled_of_within (operation?_of_scan h) hf
  have hfields : ∀ f ∈ o.fields, f.Spelled := fun f hf => hspelled f (.among hf)
  rw [← finds_own_iff h]
  constructor
  · intro hgiven
    have hends : ¬ Outline.Endless types o.fields := by
      intro hendless
      rw [Outline.ofOperation_of_endless hendless] at hgiven
      cases hgiven
    obtain ⟨lines, hlines⟩ := Outline.exists_unfolds hends
    rw [hlines.ofOperation] at hgiven
    injection hgiven with hjoined
    have hsame : lines = Field.listingAll 0 o.fields :=
      Outline.eq_of_joinLines_headLines_eq (Outline.standAt_of_unfolds htypes hfields hlines).feeds
        (Outline.standAt_listingAll hspelled 0).feeds hjoined
    rw [hsame] at hlines
    exact (Outline.like_of_unfolds_listingAll htypes hspelled hfields hlines).2
  · intro hfinds
    exact (Outline.unfolds_listingAll rfl hfinds 0).ofOperation

end

/-- A document whose nested selection has a type that no other field has. -/
def ownSource : Text :=
  "query Q \x7b\n  user \x7b\n    id\n  \x7d\n  owner: User\n\x7d\n".toList

/-- The operation of `ownSource`. -/
def ownOperation : Operation where
  kind := .query
  name := "Q".toList
  fields :=
    [⟨"user".toList, "QUser".toList, [⟨"id".toList, Field.scalarType, []⟩]⟩,
      ⟨"owner".toList, "User".toList, []⟩]

theorem ofOperation_ownSource :
    scan .empty ownSource
        = (some ownOperation,
          NestedTypes.empty.register "QUser".toList [⟨"id".toList, Field.scalarType, []⟩])
      ∧ ∀ f g : Field, f.Within ownOperation.fields → g.NestedIn ownOperation.fields →
          f.type = g.type → Like f.selections g.selections := by
  have hoperation : operation? ownSource = some ownOperation := by decide +kernel
  have hscan : scan .empty ownSource
      = (some ownOperation,
        NestedTypes.empty.register "QUser".toList [⟨"id".toList, Field.scalarType, []⟩]) := by
    rw [scan_eq, hoperation]
    rfl
  exact ⟨hscan, (ofOperation_eq_own_iff hscan).1 (by decide +kernel)⟩

/-- A document in which a field is given, as its type, the name made up for the selection it stands
in. -/
def recurrentSource : Text :=
  "query Q \x7b\n  user \x7b\n    self: QUser\n  \x7d\n\x7d\n".toList

/-- The operation of `recurrentSource`. -/
def recurrentOperation : Operation where
  kind := .query
  name := "Q".toList
  fields := [⟨"user".toList, "QUser".toList, [⟨"self".toList, "QUser".toList, []⟩]⟩]

/-- Not every operation has an outline that shows the fields it owns, or any outline. -/
theorem not_own_recurrentSource :
    ¬ ∀ (content : Text) (o : Operation) (types : NestedTypes),
      scan .empty content = (some o, types) →
        Outline.ofOperation types o
          = .ok (joinLines (Outline.headLines o ++ Field.listingAll 0 o.fields)) := by
  intro hall
  have hoperation : operation? recurrentSource = some recurrentOperation := by decide +kernel
  have hgiven := hall recurrentSource recurrentOperation _
    (by rw [scan_eq, hoperation])
  have hendless : Outline.ofOperation (register .empty (some recurrentOperation)) recurrentOperation
      = .error .endless := by decide +kernel
  rw [hendless] at hgiven
  cases hgiven

end Document

end GqlScan
