import GqlScan.Proofs.Blocks
import GqlScan.Proofs.Registration

/-!
# The depth at which a field is found

A scan of a selection set keeps no count of braces. It goes from line to line, and where a line opens
a block it goes on behind the block. The depth of braces at the line of a field is therefore what
the scan has passed over without looking at the braces in it: the text in front of the brace that
opens a block, the text behind the one that closes it, and the lines without a block.

So the fields of a selection set all come from depth zero as long as the text that is passed over
opens as many braces as it closes. When it leaves one open, the fields of an inner selection set are
taken for fields of the outer one.

Main statements: `surplus_step`, for one step of the scan, and `depthAt_placed_iff`.
-/

namespace GqlScan

open Text

/-! ## Counting braces -/

namespace Block

/-- The number of opening braces less the number of closing ones. -/
def surplus (t : Text) : Int := (t.count '{' : Int) - t.count '}'

theorem surplus_nil : surplus [] = 0 := rfl

theorem surplus_append (t u : Text) : surplus (t ++ u) = surplus t + surplus u := by
  unfold surplus
  rw [List.count_append, List.count_append]
  omega

theorem surplus_cons (c : Char) (t : Text) :
    surplus (c :: t) = (if c = '{' then 1 else if c = '}' then -1 else 0) + surplus t := by
  unfold surplus
  rw [List.count_cons, List.count_cons]
  by_cases hopen : c = '{'
  · subst hopen
    simp
    omega
  · by_cases hclose : c = '}'
    · subst hclose
      simp
      omega
    · simp [hopen, hclose]

theorem surplus_eq_zero_iff {t : Text} : surplus t = 0 ↔ t.count '{' = t.count '}' := by
  unfold surplus
  omega

/-- The braces of a text never close more than was opened, and are all closed at its end. -/
structure Balanced (t : Text) : Prop where
  never_below : ∀ u, u <+: t → u.count '}' ≤ u.count '{'
  closed : t.count '}' = t.count '{'

/-- A line that does not close its block changes the number of open blocks by its surplus. -/
theorem surplus_of_stays {k j : Nat} {t : Text} (h : run k t = .stays j) :
    surplus t = (j : Int) - k := by
  fun_induction run k t with
  | case1 k =>
    cases h
    exact (Int.sub_self _).symm
  | case2 k rest ih =>
    have := ih (Run.cons_eq_stays h)
    rw [surplus_cons, if_pos rfl]
    omega
  | case3 rest hopen => cases h
  | case4 rest k hopen ih =>
    have := ih (Run.cons_eq_stays h)
    rw [surplus_cons, if_neg hopen, if_pos rfl]
    omega
  | case5 k c rest hopen hclose ih =>
    have := ih (Run.cons_eq_stays h)
    rw [surplus_cons, if_neg hopen, if_neg hclose]
    omega

/-- A text in which an open block stays as it was is balanced. -/
theorem balanced_of_stays {t : Text} (h : run 0 t = .stays 0) : Balanced t where
  never_below := by
    rintro u ⟨v, rfl⟩
    cases hu : run 0 u with
    | closes before =>
      rw [run_append_of_closes hu] at h
      cases h
    | stays j =>
      have := surplus_of_stays hu
      unfold surplus at this
      omega
  closed := by
    have := surplus_of_stays h
    unfold surplus at this
    omega

/-- A line that closes its block closes all blocks inside it before. -/
theorem exists_of_closes {k : Nat} {t before : Text} (h : run k t = .closes before) :
    ∃ behind, t = before ++ '}' :: behind ∧ surplus before = -(k : Int) := by
  fun_induction run k t generalizing before with
  | case1 k => cases h
  | case2 k rest ih =>
    obtain ⟨u, hu, rfl⟩ := Run.cons_eq_closes h
    obtain ⟨behind, rfl, hsurplus⟩ := ih hu
    refine ⟨behind, rfl, ?_⟩
    rw [surplus_cons, if_pos rfl]
    omega
  | case3 rest hopen =>
    cases h
    exact ⟨rest, rfl, rfl⟩
  | case4 rest k hopen ih =>
    obtain ⟨u, hu, rfl⟩ := Run.cons_eq_closes h
    obtain ⟨behind, rfl, hsurplus⟩ := ih hu
    refine ⟨behind, rfl, ?_⟩
    rw [surplus_cons, if_neg hopen, if_pos rfl]
    omega
  | case5 k c rest hopen hclose ih =>
    obtain ⟨u, hu, rfl⟩ := Run.cons_eq_closes h
    obtain ⟨behind, rfl, hsurplus⟩ := ih hu
    refine ⟨behind, rfl, ?_⟩
    rw [surplus_cons, if_neg hopen, if_neg hclose]
    omega

/-! ## The text behind a block -/

/-- The text behind the brace that closes a block, on the line where it stands. A block that is
never closed leaves none. -/
def tailFrom (inner : Nat) (line : Text) (rest : List Text) : Text :=
  match run inner line, rest with
  | .closes before, _ => line.drop (before.length + 1)
  | .stays _, [] => []
  | .stays inner', next :: later => tailFrom inner' next later

/-- The text behind a block whose opening brace stands directly before `first`. -/
def tail (first : Text) (rest : List Text) : Text := tailFrom 0 first rest

/-- A line that closes its block leaves the text behind the brace to count. -/
theorem surplus_of_closes {k : Nat} {line before : Text} (h : run k line = .closes before)
    (rest : List Text) : surplus line = surplus (tailFrom k line rest) - (k + 1) := by
  obtain ⟨behind, rfl, hbefore⟩ := exists_of_closes h
  have htail : tailFrom k (before ++ '}' :: behind) rest = behind := by
    rw [tailFrom.eq_def, h]
    exact List.drop_length_add_append 1
  rw [htail, surplus_append, surplus_cons, hbefore, if_neg (by decide), if_pos rfl]
  omega

theorem tailFrom_cons {k j : Nat} {line : Text} (h : run k line = .stays j) (next : Text)
    (later : List Text) : tailFrom k line (next :: later) = tailFrom j next later := by
  rw [tailFrom.eq_def, h]

/-- A block that is not closed takes all lines. -/
theorem consumed_of_not_closed {k : Nat} {line : Text} {rest : List Text}
    (h : (takeFrom k line rest).closed = false) : (takeFrom k line rest).consumed = rest.length := by
  induction rest generalizing k line with
  | nil =>
    cases hrun : run k line with
    | closes before => rw [takeFrom_closes hrun]; rfl
    | stays j => rw [takeFrom_nil hrun]; rfl
  | cons next later ih =>
    cases hrun : run k line with
    | closes before =>
      rw [takeFrom_closes hrun] at h
      cases h
    | stays j =>
      rw [takeFrom_cons hrun] at h ⊢
      exact congrArg (· + 1) (ih h)

/-- **A block that is closed closes all that was open**: of its lines only the text behind the
closing brace is left to count. -/
theorem surplus_of_closed {k : Nat} {line : Text} {rest : List Text}
    (h : (takeFrom k line rest).closed = true) :
    surplus line + surplus (rest.take (takeFrom k line rest).consumed).flatten
      = surplus (tailFrom k line rest) - (k + 1) := by
  -- the lines of the block, `k` being the number of blocks that are open inside it
  induction rest generalizing k line with
  | nil =>
    cases hrun : run k line with
    | closes before =>
      rw [takeFrom_closes hrun, List.take_zero, List.flatten_nil, surplus_nil, Int.add_zero]
      exact surplus_of_closes hrun []
    | stays j =>
      rw [takeFrom_nil hrun] at h
      cases h
  | cons next later ih =>
    cases hrun : run k line with
    | closes before =>
      rw [takeFrom_closes hrun, List.take_zero, List.flatten_nil, surplus_nil, Int.add_zero]
      exact surplus_of_closes hrun (next :: later)
    | stays j =>
      rw [takeFrom_cons hrun] at h ⊢
      have hlater := ih h
      have hline := surplus_of_stays hrun
      rw [tailFrom_cons hrun]
      change _ + surplus (List.take ((takeFrom j next later).consumed + 1) (next :: later)).flatten
        = _
      rw [List.take_succ_cons, List.flatten_cons, surplus_append]
      omega

end Block

/-! ## A scan with places -/

namespace Selection

open Block

/-- The number of lines that a scan takes together with a line in front of them. -/
def stride (line : Text) (rest : List Text) : Nat :=
  match LineShape.opening? line with
  | some o => (Block.take o.after rest).consumed
  | none =>
    match leaf? line with
    | some _ => 0
    | none =>
      if line.count '}' < line.count '{' then (Block.take (Text.after '{' line) rest).consumed
      else 0

section

variable {line : Text} {rest : List Text}

theorem stride_opening {o : LineShape.Opening} (ho : LineShape.opening? line = some o) :
    stride line rest = (Block.take o.after rest).consumed := by
  unfold stride
  rw [ho]

theorem stride_leaf {found : Text × Text} (ho : LineShape.opening? line = none)
    (hl : leaf? line = some found) : stride line rest = 0 := by
  unfold stride
  rw [ho, hl]

theorem stride_skip (ho : LineShape.opening? line = none) (hl : leaf? line = none)
    (hb : line.count '}' < line.count '{') :
    stride line rest = (Block.take (Text.after '{' line) rest).consumed := by
  unfold stride
  rw [ho, hl]
  exact if_pos hb

theorem stride_unrecognised (ho : LineShape.opening? line = none) (hl : leaf? line = none)
    (hb : ¬ line.count '}' < line.count '{') : stride line rest = 0 := by
  unfold stride
  rw [ho, hl]
  exact if_neg hb

end

/-- The text that a scan passes over at a line: what stands before and behind the block that the
line opens, and the line itself if it opens none. -/
def passedAt (line : Text) (rest : List Text) : Text :=
  match LineShape.opening? line with
  | some o => line.take (line.length - (o.after.length + 1)) ++ Block.tail o.after rest
  | none =>
    match leaf? line with
    | some _ => line
    | none =>
      if line.count '}' < line.count '{' then
        Text.before '{' line ++ Block.tail (Text.after '{' line) rest
      else line

/-- The field that a line stands for. -/
def fieldAt? (owner line : Text) (rest : List Text) : Option Field :=
  match LineShape.opening? line with
  | some o =>
    let block := Block.take o.after rest
    some (nestedField owner o.name
      (if 0 < block.consumed then fields (Field.shapeName owner o.name) block.body else []))
  | none => (leaf? line).map fun (name, type) => ⟨name, type, []⟩

/-- A place in a selection set: the number of lines before it, and the text that was passed over in
them. -/
structure Place where
  line : Nat
  passed : Text
  deriving DecidableEq, Repr

/-- The place behind a line. -/
def Place.behind (here : Place) (line : Text) (rest : List Text) : Place :=
  ⟨here.line + 1 + stride line rest, here.passed ++ passedAt line rest⟩

/-- Scan logical lines and keep the place at which each field was found. -/
def placedFrom (owner : Text) (taken : List Text) (here : Place) : List Text → List (Place × Field)
  | [] => []
  | line :: rest =>
    match fieldAt? owner line rest with
    | none => placedFrom owner taken (here.behind line rest) (rest.drop (stride line rest))
    | some f =>
      if f.name ∈ taken then
        placedFrom owner taken (here.behind line rest) (rest.drop (stride line rest))
      else
        (here, f) ::
          placedFrom owner (f.name :: taken) (here.behind line rest) (rest.drop (stride line rest))
termination_by lines => lines.length
decreasing_by
  · exact length_drop_lt_cons _ line rest
  · exact length_drop_lt_cons _ line rest
  · exact length_drop_lt_cons _ line rest

/-- The fields of a selection set that belongs to `owner`, each with its place. -/
def placed (owner : Text) (lines : List Text) : List (Place × Field) :=
  placedFrom owner [] ⟨0, []⟩ (LogicalLine.ofLines lines)

/-- The number of blocks that are open in front of a line. -/
def depthAt (lines : List Text) (i : Nat) : Int := surplus (lines.take i).flatten

section

variable {owner line : Text} {taken rest : List Text}

/-- The pure fields go on behind a line that stands for no field. -/
theorem fieldsFrom_of_none (h : fieldAt? owner line rest = none) :
    fieldsFrom owner taken (line :: rest)
      = fieldsFrom owner taken (rest.drop (stride line rest)) := by
  unfold fieldAt? at h
  cases ho : LineShape.opening? line with
  | some o => rw [ho] at h; cases h
  | none =>
    rw [ho] at h
    have hl : leaf? line = none := Option.map_eq_none_iff.1 h
    by_cases hb : line.count '}' < line.count '{'
    · rw [fieldsFrom_skip ho hl hb, stride_skip ho hl hb]
    · rw [fieldsFrom_unrecognised ho hl hb, stride_unrecognised ho hl hb, List.drop_zero]

/-- The pure fields at a line that stands for a field. -/
theorem fieldsFrom_of_some {f : Field} (h : fieldAt? owner line rest = some f) :
    fieldsFrom owner taken (line :: rest)
      = if f.name ∈ taken then fieldsFrom owner taken (rest.drop (stride line rest))
        else f :: fieldsFrom owner (f.name :: taken) (rest.drop (stride line rest)) := by
  unfold fieldAt? at h
  cases ho : LineShape.opening? line with
  | some o =>
    rw [ho] at h
    cases h
    rw [fieldsFrom_opening ho, stride_opening ho]
    simp only [name_nestedField]
  | none =>
    rw [ho] at h
    obtain ⟨⟨name, type⟩, hl, rfl⟩ := Option.map_eq_some_iff.1 h
    rw [fieldsFrom_leaf ho hl, stride_leaf ho hl, List.drop_zero]

end

/-- The places leave the fields as they are. -/
theorem map_snd_placedFrom (owner : Text) (taken : List Text) (here : Place) (lines : List Text) :
    (placedFrom owner taken here lines).map Prod.snd = fieldsFrom owner taken lines := by
  fun_induction placedFrom owner taken here lines with
  | case1 taken here => rw [fieldsFrom_nil, List.map_nil]
  | case2 taken here line rest hf ih => rw [ih, fieldsFrom_of_none hf]
  | case3 taken here line rest f hf hm ih => rw [ih, fieldsFrom_of_some hf, if_pos hm]
  | case4 taken here line rest f hf hm ih =>
    rw [List.map_cons, ih, fieldsFrom_of_some hf, if_neg hm]

/-- The lines from the opening brace of a block to the end of the line that closes it count as the
text behind the block, as long as there is a line after them. -/
theorem surplus_block {first : Text} {rest : List Text}
    (h : rest.drop (Block.take first rest).consumed ≠ []) :
    1 + surplus first + surplus (rest.take (Block.take first rest).consumed).flatten
      = surplus (Block.tail first rest) := by
  cases hc : (Block.take first rest).closed with
  | false =>
    have hall : (Block.take first rest).consumed = rest.length := consumed_of_not_closed hc
    rw [hall, List.drop_length] at h
    exact absurd rfl h
  | true =>
    have hblock := surplus_of_closed hc
    unfold Block.tail Block.take at *
    omega

/-- **What one step of a scan passes over counts for all of its lines**: the blocks close what they
open. -/
theorem surplus_step {line : Text} {rest : List Text} (h : rest.drop (stride line rest) ≠ []) :
    surplus line + surplus (rest.take (stride line rest)).flatten = surplus (passedAt line rest) := by
  unfold stride passedAt at *
  cases ho : LineShape.opening? line with
  | some o =>
    rw [ho] at h
    have hblock := surplus_block h
    obtain ⟨front, hfront⟩ := LineShape.opening?_suffix ho
    have htake : line.take (line.length - (o.after.length + 1)) = front := by
      rw [← hfront, List.length_append, List.length_cons, Nat.add_sub_cancel]
      exact List.take_left
    dsimp only
    rw [htake, ← hfront, surplus_append, surplus_append, surplus_cons, if_pos rfl, ← hblock]
    omega
  | none =>
    rw [ho] at h
    cases hl : leaf? line with
    | some leaf =>
      dsimp only
      rw [List.take_zero, List.flatten_nil, surplus_nil, Int.add_zero]
    | none =>
      rw [hl] at h
      dsimp only at h ⊢
      by_cases hb : line.count '}' < line.count '{'
      · rw [if_pos hb] at h ⊢
        have hblock := surplus_block h
        have hmem : '{' ∈ line := List.count_pos_iff.1 (Nat.zero_lt_of_lt hb)
        have hline : surplus line
            = surplus (Text.before '{' line) + (1 + surplus (Text.after '{' line)) := by
          rw [← before_append_after hmem, surplus_append, surplus_cons, if_pos rfl]
          rw [before_append_after hmem]
        rw [if_pos hb, hline, surplus_append, ← hblock]
        omega
      · rw [if_neg hb, if_neg hb, List.take_zero, List.flatten_nil, surplus_nil, Int.add_zero]

/-- What holds of a place while some lines are left of the ones that are scanned: they start there,
and what was passed over before has the depth of that line. -/
structure Place.Fits (lines : List Text) (here : Place) (left : List Text) : Prop where
  ahead : lines.drop here.line = left
  counted : left ≠ [] → depthAt lines here.line = surplus here.passed

theorem depthAt_add (lines : List Text) (i k : Nat) :
    depthAt lines (i + k) = depthAt lines i + surplus ((lines.drop i).take k).flatten := by
  unfold depthAt
  rw [List.take_add, List.flatten_append, surplus_append]

/-- A step of a scan goes to a place that fits. -/
theorem Place.Fits.behind {lines rest : List Text} {line : Text} {here : Place}
    (h : here.Fits lines (line :: rest)) :
    (here.behind line rest).Fits lines (rest.drop (stride line rest)) where
  ahead := by
    change lines.drop (here.line + 1 + stride line rest) = _
    rw [← List.drop_drop, ← List.drop_drop, h.ahead, List.drop_one, List.tail_cons]
  counted := by
    intro hleft
    change depthAt lines (here.line + 1 + stride line rest)
      = surplus (here.passed ++ passedAt line rest)
    rw [Nat.add_assoc, depthAt_add, h.ahead, h.counted (List.cons_ne_nil _ _), Nat.add_comm 1,
      List.take_succ_cons, List.flatten_cons, surplus_append, surplus_append, surplus_step hleft]

/-- The field at a place is the one that the line there stands for, and the depth of that line is
what was passed over before it. -/
theorem found_of_mem_placedFrom {owner : Text} {taken lines left : List Text} {here : Place}
    (h : here.Fits lines left) {p : Place × Field} (hp : p ∈ placedFrom owner taken here left) :
    (∃ line rest, lines.drop p.1.line = line :: rest ∧ fieldAt? owner line rest = some p.2)
      ∧ depthAt lines p.1.line = surplus p.1.passed := by
  -- along the scan, with a place that fits the lines that are left
  fun_induction placedFrom owner taken here left with
  | case1 taken here => cases hp
  | case2 taken here line rest hf ih => exact ih h.behind hp
  | case3 taken here line rest f hf hm ih => exact ih h.behind hp
  | case4 taken here line rest f hf hm ih =>
    rcases List.mem_cons.1 hp with rfl | hp
    · exact ⟨⟨line, rest, h.ahead, hf⟩, h.counted (List.cons_ne_nil _ _)⟩
    · exact ih h.behind hp

/--
**A field is found at the depth of the text that was passed over before it.**

The fields of a scan, each with its place, are those that the lines at these places stand for. The
braces in front of such a line count as those of the text that the scan has passed over, so all
fields come from depth zero exactly when in front of each the text passed over opens as many braces
as it closes.
-/
theorem depthAt_placed_iff (types : NestedTypes) (owner : Text) (lines : List Text) :
    (placed owner lines).map Prod.snd = (scan types owner lines).1
      ∧ (∀ p ∈ placed owner lines,
          (∃ line rest, (LogicalLine.ofLines lines).drop p.1.line = line :: rest
              ∧ fieldAt? owner line rest = some p.2)
            ∧ depthAt (LogicalLine.ofLines lines) p.1.line = surplus p.1.passed)
      ∧ ((∀ p ∈ placed owner lines, depthAt (LogicalLine.ofLines lines) p.1.line = 0)
          ↔ ∀ p ∈ placed owner lines, p.1.passed.count '{' = p.1.passed.count '}') := by
  have hstart : Place.Fits (LogicalLine.ofLines lines) ⟨0, []⟩ (LogicalLine.ofLines lines) :=
    ⟨List.drop_zero, fun _ => rfl⟩
  have hfound : ∀ p ∈ placed owner lines, _ := fun p hp => found_of_mem_placedFrom hstart hp
  refine ⟨?_, hfound, ?_⟩
  · rw [scan_eq_fields, ← fieldsFrom_ofLines]
    exact map_snd_placedFrom owner [] _ _
  · refine forall₂_congr fun p hp => ?_
    rw [(hfound p hp).2]
    exact surplus_eq_zero_iff

example :
    (placed "Q".toList ["a \x7b".toList, "x".toList, "\x7d b \x7b".toList, "y".toList,
        "\x7d".toList]).map (fun p => (p.1.line, p.2.name, p.1.passed))
      = [(0, "a".toList, []), (3, "y".toList, "a  b \x7b".toList)] := by
  decide +kernel

/-- Two selections that no field shape matches, of which only the second goes past its line. -/
def leakingSelections : List Text :=
  ["... on A \x7b z \x7d ... on B \x7b".toList, "leak".toList, "\x7d".toList]

/-- Braces that are balanced do not keep the fields of an inner selection set in it. -/
theorem not_depthAt_placed_eq_zero :
    ¬ ∀ (owner : Text) (lines : List Text), Balanced (LogicalLine.ofLines lines).flatten →
        ∀ p ∈ placed owner lines, depthAt (LogicalLine.ofLines lines) p.1.line = 0 := by
  intro h
  have hbalanced : Balanced (LogicalLine.ofLines leakingSelections).flatten :=
    balanced_of_stays (by decide +kernel)
  have hleak : ∃ p ∈ placed "Q".toList leakingSelections,
      depthAt (LogicalLine.ofLines leakingSelections) p.1.line ≠ 0 := by
    decide +kernel
  obtain ⟨p, hp, hdepth⟩ := hleak
  exact hdepth (h _ _ hbalanced p hp)

end Selection

end GqlScan
