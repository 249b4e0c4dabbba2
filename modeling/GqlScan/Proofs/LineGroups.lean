import GqlScan.Proofs.Nesting

/-!
# Which lines are joined

Clean lines fall into groups in one way only. Empty lines between two groups are left out. A group
starts at a line that is not empty and goes on, over empty lines too, as long as more parentheses
have been opened than closed since its start; closing parentheses that are too many at its end do not
count for the next one. Only the last group can run out of lines, and then it has them all.

So no line is lost: each one that is not empty is in one group, and the groups are in the order of
the lines.

Main statements: `exists_falls` and `Falls.unique`, a cut that is there and the only one, and
`ofLines_falls`.
-/

namespace GqlScan.LogicalLine

open Text

/-! ## Cutting lines into groups -/

/-- Lines that run out before a logical line is complete: the first is not empty, and a parenthesis
is open behind each of them. -/
structure IsOpenGroup (group : List Text) : Prop where
  starts : ∃ first rest, group = first :: rest ∧ first ≠ []
  holds : ∀ front last, group = front ++ last → front ≠ [] →
    front.flatten.count ')' < front.flatten.count '('

/-- Consecutive lines, and the number of the first of them. -/
structure Placed where
  start : Nat
  lines : List Text
  deriving DecidableEq, Repr

namespace Placed

/-- The number of the line behind them. -/
def stop (g : Placed) : Nat := g.start + g.lines.length

/-- The line of a number is one of them. -/
def Has (g : Placed) (i : Nat) : Prop := g.start ≤ i ∧ i < g.stop

end Placed

/-- Lines, numbered from `n` on, fall into these groups. -/
inductive Falls : Nat → List Text → List Placed → Prop
  | done (n : Nat) : Falls n [] []
  | drop {n : Nat} {rest : List Text} {cut : List Placed} :
      Falls (n + 1) rest cut → Falls n ([] :: rest) cut
  | group {n : Nat} {lines rest : List Text} {cut : List Placed} :
      IsGroup lines → Falls (n + lines.length) rest cut → Falls n (lines ++ rest) (⟨n, lines⟩ :: cut)
  | unclosed {n : Nat} {lines : List Text} : IsOpenGroup lines → Falls n lines [⟨n, lines⟩]

section

variable {lines rest : List Text} {n : Nat} {cut : List Placed}

/-! ## There is a cut -/

theorem Gathering.isOpenGroup {pending : List Text} {depth : Nat} (h : Gathering pending depth)
    (hne : pending ≠ []) : IsOpenGroup pending where
  starts := by
    obtain ⟨first, rest, rfl⟩ := List.exists_cons_of_ne_nil hne
    exact ⟨first, rest, rfl, fun e => h.starts (congrArg some e)⟩
  holds := h.holds

theorem Gathering.depth_eq_zero {depth : Nat} (h : Gathering [] depth) : depth = 0 :=
  (Nat.add_eq_zero_iff.1 h.counts.symm).1

/-- Gathering cuts lines into groups, the pending ones included. -/
theorem Gathering.exists_falls {pending : List Text} {depth : Nat} (h : Gathering pending depth)
    (n : Nat) (lines : List Text) :
    ∃ cut, Falls n (pending ++ lines) cut ∧ cut.map Placed.lines = gather pending depth lines := by
  induction lines generalizing pending depth n with
  | nil =>
    rw [gather, List.append_nil]
    by_cases hpending : pending = []
    · rw [if_pos hpending, hpending]
      exact ⟨[], .done n, rfl⟩
    · rw [if_neg hpending]
      exact ⟨[⟨n, pending⟩], .unclosed (h.isOpenGroup hpending), rfl⟩
  | cons t rest ih =>
    rw [gather]
    by_cases hempty : t = [] ∧ pending = []
    · obtain ⟨rfl, rfl⟩ := hempty
      obtain ⟨cut, hcut, hlines⟩ := ih Gathering.nil (n + 1)
      rw [if_pos ⟨rfl, rfl⟩, h.depth_eq_zero]
      exact ⟨cut, .drop hcut, hlines⟩
    · rw [if_neg hempty, List.append_cons]
      by_cases hclose : depth + t.count '(' ≤ t.count ')'
      · obtain ⟨cut, hcut, hlines⟩ := ih Gathering.nil (n + (pending ++ [t]).length)
        rw [if_pos hclose]
        exact ⟨⟨n, pending ++ [t]⟩ :: cut, .group (h.isGroup hempty hclose) hcut,
          congrArg (_ :: ·) hlines⟩
      · rw [if_neg hclose]
        exact ih (h.concat hempty hclose) n

theorem exists_falls (lines : List Text) :
    ∃ cut, Falls 0 lines cut ∧ cut.map Placed.lines = gather [] 0 lines :=
  Gathering.nil.exists_falls 0 lines

/-! ## There is no other -/

theorem IsGroup.ne_nil (h : IsGroup lines) : lines ≠ [] := by
  obtain ⟨first, rest, rfl, -⟩ := h.starts
  exact List.cons_ne_nil _ _

/-- No group goes on behind the end of another that starts with it. -/
theorem IsGroup.eq_nil_of_append (h : IsGroup lines) (happend : IsGroup (lines ++ rest)) :
    rest = [] := by
  by_contra hrest
  exact absurd (happend.holds lines rest rfl h.ne_nil hrest) (Nat.not_lt.2 h.settles)

theorem IsGroup.not_isOpenGroup_append (h : IsGroup lines) : ¬ IsOpenGroup (lines ++ rest) :=
  fun hopen => absurd (hopen.holds lines rest rfl h.ne_nil) (Nat.not_lt.2 h.settles)

/-- Lines have one group in front at most. -/
theorem IsGroup.eq_of_append_eq {lines' rest' : List Text} (h : IsGroup lines)
    (h' : IsGroup lines') (heq : lines ++ rest = lines' ++ rest') : lines = lines' := by
  obtain ⟨more, rfl, -⟩ | ⟨more, rfl, -⟩ := List.append_eq_append_iff.1 heq
  · rw [h.eq_nil_of_append h', List.append_nil]
  · rw [h'.eq_nil_of_append h, List.append_nil]

/-- An empty line does not start a group. -/
theorem ne_cons_nil_of_starts (h : ∃ first rest, lines = first :: rest ∧ first ≠ [])
    (rest : List Text) : lines ≠ [] :: rest := by
  obtain ⟨first, more, rfl, hfirst⟩ := h
  exact fun e => hfirst (List.cons.inj e).1

theorem IsGroup.append_ne_cons_nil (h : IsGroup lines) (rest rest' : List Text) :
    lines ++ rest ≠ [] :: rest' := by
  obtain ⟨first, more, rfl, hfirst⟩ := h.starts
  exact ne_cons_nil_of_starts ⟨first, more ++ rest, rfl, hfirst⟩ rest'

/-- **Lines fall into groups in one way only.** -/
theorem Falls.unique (h : Falls n lines cut) {other : List Placed} (hother : Falls n lines other) :
    other = cut := by
  induction h generalizing other with
  | done n =>
    generalize hlines : [] = lines at hother
    cases hother with
    | done => rfl
    | drop => cases hlines
    | group hgroup => exact absurd (List.append_eq_nil_iff.1 hlines.symm).1 hgroup.ne_nil
    | unclosed hopen =>
      obtain ⟨first, rest, rfl, -⟩ := hopen.starts
      cases hlines
  | @drop n rest cut _ ih =>
    generalize hlines : [] :: rest = lines at hother
    cases hother with
    | done => cases hlines
    | drop hrest =>
      cases hlines
      exact ih hrest
    | group hgroup => exact absurd hlines.symm (hgroup.append_ne_cons_nil _ _)
    | unclosed hopen => exact absurd hlines.symm (ne_cons_nil_of_starts hopen.starts _)
  | @group n front rest cut hfront _ ih =>
    generalize hlines : front ++ rest = lines at hother
    cases hother with
    | done => exact absurd (List.append_eq_nil_iff.1 hlines).1 hfront.ne_nil
    | drop => exact absurd hlines (hfront.append_ne_cons_nil _ _)
    | group hgroup hrest =>
      obtain rfl := hfront.eq_of_append_eq hgroup hlines
      obtain rfl := List.append_cancel_left hlines
      rw [ih hrest]
    | unclosed hopen => exact absurd (hlines ▸ hopen) hfront.not_isOpenGroup_append
  | @unclosed n lines hlast =>
    generalize hlines : lines = others at hother
    cases hother with
    | done =>
      obtain ⟨first, rest, rfl, -⟩ := hlast.starts
      cases hlines
    | drop => exact absurd hlines (ne_cons_nil_of_starts hlast.starts _)
    | group hgroup => exact absurd (hlines ▸ hlast) hgroup.not_isOpenGroup_append
    | unclosed =>
      cases hlines
      rfl

/-! ## Where the groups lie -/

/-- A group has the lines of its numbers. -/
theorem Falls.exists_lines (h : Falls n lines cut) :
    ∀ g ∈ cut, ∃ before after, lines = before ++ g.lines ++ after ∧ g.start = n + before.length := by
  induction h with
  | done => exact List.forall_mem_nil _
  | drop _ ih =>
    intro g hg
    obtain ⟨before, after, hrest, hstart⟩ := ih g hg
    refine ⟨[] :: before, after, by rw [hrest]; rfl, ?_⟩
    rw [hstart, List.length_cons]
    omega
  | @group n front rest cut _ _ ih =>
    refine List.forall_mem_cons.2 ⟨⟨[], rest, rfl, rfl⟩, fun g hg => ?_⟩
    obtain ⟨before, after, hrest, hstart⟩ := ih g hg
    refine ⟨front ++ before, after, by rw [hrest]; simp only [List.append_assoc], ?_⟩
    rw [hstart, List.length_append]
    omega
  | @unclosed n lines _ =>
    exact List.forall_mem_singleton.2 ⟨[], [], by rw [List.nil_append, List.append_nil], rfl⟩

theorem Falls.start_ge (h : Falls n lines cut) : ∀ g ∈ cut, n ≤ g.start := by
  intro g hg
  obtain ⟨before, -, -, hstart⟩ := h.exists_lines g hg
  omega

/-- Each group starts behind the end of the one before it. -/
theorem Falls.pairwise (h : Falls n lines cut) : cut.Pairwise (·.stop ≤ ·.start) := by
  induction h with
  | done => exact .nil
  | drop _ ih => exact ih
  | group _ hrest ih => exact .cons hrest.start_ge ih
  | unclosed => exact List.pairwise_singleton _ _

/-- Only empty lines are in no group. -/
theorem Falls.exists_has (h : Falls n lines cut) {i : Nat} {t : Text} (ht : lines[i]? = some t)
    (hne : t ≠ []) : ∃ g ∈ cut, g.Has (n + i) := by
  induction h generalizing i with
  | done => cases ht
  | @drop n rest cut _ ih =>
    cases i with
    | zero => exact absurd (Option.some.inj ht).symm hne
    | succ i =>
      obtain ⟨g, hg, hhas⟩ := ih ht
      rw [Nat.add_right_comm, Nat.add_assoc] at hhas
      exact ⟨g, hg, hhas⟩
  | @group n front rest cut _ _ ih =>
    by_cases hi : i < front.length
    · exact ⟨_, List.mem_cons_self, Nat.le_add_right n i, Nat.add_lt_add_left hi n⟩
    · have hi' : front.length ≤ i := Nat.not_lt.1 hi
      rw [List.getElem?_append_right hi'] at ht
      obtain ⟨g, hg, hhas⟩ := ih ht
      rw [Nat.add_assoc, Nat.add_sub_cancel' hi'] at hhas
      exact ⟨g, List.mem_cons_of_mem _ hg, hhas⟩
  | @unclosed n lines _ =>
    have hi : i < lines.length := (List.getElem?_eq_some_iff.1 ht).1
    exact ⟨_, List.mem_singleton_self _, Nat.le_add_right n i, Nat.add_lt_add_left hi n⟩

/-- No line is in two groups. -/
theorem eq_of_has (h : cut.Pairwise (·.stop ≤ ·.start)) {k l i : Nat} {g g' : Placed}
    (hk : cut[k]? = some g) (hl : cut[l]? = some g') (hg : g.Has i) (hg' : g'.Has i) : k = l := by
  -- the earlier of two groups would stop in front of the line that it has
  have hapart : ∀ {a b : Nat} {x y : Placed}, cut[a]? = some x → cut[b]? = some y → a < b →
      x.stop ≤ y.start := by
    intro a b x y ha hb hab
    obtain ⟨hlta, rfl⟩ := List.getElem?_eq_some_iff.1 ha
    obtain ⟨hltb, rfl⟩ := List.getElem?_eq_some_iff.1 hb
    exact List.pairwise_iff_getElem.1 h a b hlta hltb hab
  obtain hlt | heq | hgt := Nat.lt_trichotomy k l
  · exact absurd (Nat.lt_of_lt_of_le hg.2 (hapart hk hl hlt)) (Nat.not_lt.2 hg'.1)
  · exact heq
  · exact absurd (Nat.lt_of_lt_of_le hg'.2 (hapart hl hk hgt)) (Nat.not_lt.2 hg.1)

end

/--
**Logical lines lose no line.**

The clean lines fall into groups in exactly one way, and the logical lines are these groups, each
joined with single spaces. A group has the lines of its numbers, it starts behind the end of the group
before it, and every line that is not empty once it is clean is in one group and no other.
-/
theorem ofLines_falls (lines : List Text) :
    ∃ cut : List Placed,
      (∀ other, Falls 0 (lines.map clean) other ↔ other = cut)
        ∧ ofLines lines = cut.map (fun g => joined g.lines)
        ∧ (∀ g ∈ cut, ∃ before after,
            lines.map clean = before ++ g.lines ++ after ∧ g.start = before.length)
        ∧ cut.Pairwise (·.stop ≤ ·.start)
        ∧ ∀ (i : Nat) (t : Text), (lines.map clean)[i]? = some t → t ≠ [] →
            ∃! k : Nat, ∃ g : Placed, cut[k]? = some g ∧ g.Has i := by
  obtain ⟨cut, hcut, hlines⟩ := exists_falls (lines.map clean)
  refine ⟨cut, fun other => ⟨hcut.unique, fun e => e ▸ hcut⟩, ?_, fun g hg => ?_, hcut.pairwise,
    fun i t ht hne => ?_⟩
  · unfold ofLines groups
    rw [← hlines, List.map_map]
    rfl
  · obtain ⟨before, after, happend, hstart⟩ := hcut.exists_lines g hg
    exact ⟨before, after, happend, by rw [hstart, Nat.zero_add]⟩
  · obtain ⟨g, hg, hhas⟩ := hcut.exists_has ht hne
    rw [Nat.zero_add] at hhas
    obtain ⟨k, hk⟩ := List.mem_iff_getElem?.1 hg
    refine ⟨k, ⟨g, hk, hhas⟩, ?_⟩
    rintro l ⟨g', hl, hhas'⟩
    exact eq_of_has hcut.pairwise hl hk hhas' hhas

/-- Lines with an empty one inside a group and one between groups, surplus closing parentheses, and a
parenthesis that stays open. -/
def looseLines : List Text :=
  ["a(".toList, "".toList, "b)))".toList, " ".toList, "c(".toList, "# d".toList]

theorem ofLines_falls_looseLines :
    ofLines looseLines = ["a(  b)))".toList, "c( ".toList]
      ∧ ∃ cut, Falls 0 (looseLines.map clean) cut
        ∧ ∃! k : Nat, ∃ g : Placed, cut[k]? = some g ∧ g.Has 2 := by
  obtain ⟨cut, hcut, -, -, -, hone⟩ := ofLines_falls looseLines
  exact ⟨by decide, cut, (hcut cut).2 rfl, hone 2 "b)))".toList (by decide) (by decide)⟩

end GqlScan.LogicalLine
