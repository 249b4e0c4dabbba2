import GqlScan.Proofs.LineDepth

/-!
# One selection set behind another

Lines one behind the other are scanned as the first ones and the second ones are, as long as nothing
that begins in the first reaches into the second: neither a group of lines that an open parenthesis
holds together, nor a block. What a scan takes together with a line never depends on the names that
are taken, so the only thing that crosses the boundary are these names, and the first field of a name
wins.

Main statements: `ofLines_append`, for logical lines, and `scan_append`.
-/

namespace GqlScan

open Text

/-! ## Logical lines -/

namespace LogicalLine

/-- The group that is being gathered behind some clean lines, empty when there is none. -/
def pendingBehind (pending : List Text) (depth : Nat) : List Text → List Text
  | [] => pending
  | t :: rest =>
    if t = [] ∧ pending = [] then pendingBehind [] depth rest
    else if depth + t.count '(' ≤ t.count ')' then pendingBehind [] 0 rest
    else pendingBehind (pending ++ [t]) (depth + t.count '(' - t.count ')') rest

/-- Lines behind which no parenthesis holds a group open. -/
def Settled (lines : List Text) : Prop := pendingBehind [] 0 (lines.map clean) = []

instance (lines : List Text) : Decidable (Settled lines) :=
  inferInstanceAs (Decidable (pendingBehind [] 0 (lines.map clean) = []))

/-- Behind settled lines gathering starts anew. -/
theorem gather_append {pending : List Text} {depth : Nat} {xs : List Text}
    (hstart : pending = [] ↔ depth = 0) (h : pendingBehind pending depth xs = [])
    (ys : List Text) :
    gather pending depth (xs ++ ys) = gather pending depth xs ++ gather [] 0 ys := by
  -- a group is there exactly as long as a parenthesis is open
  induction xs generalizing pending depth with
  | nil =>
    have hpending : pending = [] := h
    rw [hpending, hstart.1 hpending, List.nil_append, gather, if_pos rfl, List.nil_append]
  | cons t rest ih =>
    rw [pendingBehind] at h
    rw [List.cons_append, gather, gather]
    by_cases hempty : t = [] ∧ pending = []
    · rw [if_pos hempty] at h ⊢
      rw [if_pos hempty]
      exact ih (iff_of_true rfl (hstart.1 hempty.2)) h
    · rw [if_neg hempty] at h ⊢
      rw [if_neg hempty]
      by_cases hflush : depth + t.count '(' ≤ t.count ')'
      · rw [if_pos hflush] at h ⊢
        rw [if_pos hflush, ih (iff_of_true rfl rfl) h, List.cons_append]
      · rw [if_neg hflush] at h ⊢
        rw [if_neg hflush]
        exact ih (iff_of_false (by simp) (by omega)) h

/-- **The logical lines behind settled lines are those that the later lines have on their own.** -/
theorem ofLines_append {xs : List Text} (h : Settled xs) (ys : List Text) :
    ofLines (xs ++ ys) = ofLines xs ++ ofLines ys := by
  unfold ofLines groups
  rw [List.map_append, gather_append (iff_of_true rfl rfl) h, List.map_append]

end LogicalLine

/-! ## Blocks -/

namespace Block

/-- A block that is closed is the same whatever lines follow. -/
theorem takeFrom_append_of_closed {k : Nat} {line : Text} {rest : List Text}
    (h : (takeFrom k line rest).closed = true) (more : List Text) :
    takeFrom k line (rest ++ more) = takeFrom k line rest := by
  induction rest generalizing k line with
  | nil =>
    cases hrun : run k line with
    | closes before => rw [takeFrom_closes hrun, takeFrom_closes hrun]
    | stays j =>
      rw [takeFrom_nil hrun] at h
      cases h
  | cons next later ih =>
    cases hrun : run k line with
    | closes before => rw [takeFrom_closes hrun, takeFrom_closes hrun]
    | stays j =>
      rw [takeFrom_cons hrun] at h
      rw [List.cons_append, takeFrom_cons hrun, takeFrom_cons hrun, ih h]

/-- A block takes no more lines than there are. -/
theorem consumed_takeFrom_le (k : Nat) (line : Text) (rest : List Text) :
    (takeFrom k line rest).consumed ≤ rest.length := by
  induction rest generalizing k line with
  | nil =>
    cases hrun : run k line with
    | closes before =>
      rw [takeFrom_closes hrun]
      exact Nat.le_refl 0
    | stays j =>
      rw [takeFrom_nil hrun]
      exact Nat.le_refl 0
  | cons next later ih =>
    cases hrun : run k line with
    | closes before =>
      rw [takeFrom_closes hrun]
      exact Nat.zero_le _
    | stays j =>
      rw [takeFrom_cons hrun]
      exact Nat.succ_le_succ (ih j next)

end Block

/-! ## One step of a scan -/

namespace Selection

/-- The block that a scan takes at a line, if the line opens one. -/
def blockAt? (line : Text) (rest : List Text) : Option Block :=
  match LineShape.opening? line with
  | some o => some (Block.take o.after rest)
  | none =>
    match leaf? line with
    | some _ => none
    | none =>
      if line.count '}' < line.count '{' then some (Block.take (Text.after '{' line) rest)
      else none

/-- The blocks that a scan of logical lines takes, also those that it skips: a block whose line it
does not recognise, or whose name is taken. -/
def blocks : List Text → List Block
  | [] => []
  | line :: rest => (blockAt? line rest).toList ++ blocks (rest.drop (stride line rest))
termination_by lines => lines.length
decreasing_by exact length_drop_lt_cons _ line rest

/-- Lines in which every block is closed that a scan of them takes. -/
def ClosesBlocks (lines : List Text) : Prop :=
  ∀ b ∈ blocks (LogicalLine.ofLines lines), b.closed = true

instance (lines : List Text) : Decidable (ClosesBlocks lines) :=
  inferInstanceAs (Decidable (∀ b ∈ blocks (LogicalLine.ofLines lines), b.closed = true))

section

variable {line : Text} {rest : List Text}

theorem stride_le (line : Text) (rest : List Text) : stride line rest ≤ rest.length := by
  unfold stride
  split
  · exact Block.consumed_takeFrom_le 0 _ rest
  · split
    · exact Nat.zero_le _
    · split
      · exact Block.consumed_takeFrom_le 0 _ rest
      · exact Nat.zero_le _

/-- A step whose block is closed does not see the lines behind. -/
theorem step_append (owner : Text) (h : ∀ b ∈ blockAt? line rest, b.closed = true)
    (more : List Text) :
    stride line (rest ++ more) = stride line rest
      ∧ fieldAt? owner line (rest ++ more) = fieldAt? owner line rest := by
  unfold blockAt? at h
  unfold stride fieldAt?
  cases ho : LineShape.opening? line with
  | some o =>
    rw [ho] at h
    have htake : Block.take o.after (rest ++ more) = Block.take o.after rest :=
      Block.takeFrom_append_of_closed (h _ rfl) more
    dsimp only
    rw [htake]
    exact ⟨rfl, rfl⟩
  | none =>
    rw [ho] at h
    dsimp only at h ⊢
    refine ⟨?_, rfl⟩
    cases hl : leaf? line with
    | some leaf => rfl
    | none =>
      rw [hl] at h
      dsimp only at h ⊢
      by_cases hb : line.count '}' < line.count '{'
      · rw [if_pos hb] at h
        have htake : Block.take (Text.after '{' line) (rest ++ more)
            = Block.take (Text.after '{' line) rest :=
          Block.takeFrom_append_of_closed (h _ rfl) more
        rw [if_pos hb, if_pos hb, htake]
      · rw [if_neg hb, if_neg hb]

end

/-! ## Names that are taken -/

/-- With more names taken a scan goes the same way and leaves out the fields of these names. -/
theorem fieldsFrom_filter (owner : Text) {taken more seen : List Text}
    (h : ∀ name, name ∈ more ↔ name ∈ seen ∨ name ∈ taken) (lines : List Text) :
    fieldsFrom owner more lines
      = (fieldsFrom owner taken lines).filter fun f => f.name ∉ seen := by
  -- on the left a name that is seen is taken from the start, on the right from its first field on
  fun_induction blocks lines generalizing taken more with
  | case1 => rw [fieldsFrom_nil, fieldsFrom_nil, List.filter_nil]
  | case2 line rest ih =>
    cases hf : fieldAt? owner line rest with
    | none => rw [fieldsFrom_of_none hf, fieldsFrom_of_none hf, ih h]
    | some f =>
      rw [fieldsFrom_of_some hf, fieldsFrom_of_some hf]
      by_cases htaken : f.name ∈ taken
      · rw [if_pos ((h _).2 (.inr htaken)), if_pos htaken, ih h]
      · rw [if_neg htaken, List.filter_cons]
        by_cases hseen : f.name ∈ seen
        · have hmore : ∀ name, name ∈ more ↔ name ∈ seen ∨ name ∈ f.name :: taken := by
            intro name
            rw [h name, List.mem_cons]
            constructor
            · rintro (hn | hn)
              · exact .inl hn
              · exact .inr (.inr hn)
            · rintro (hn | rfl | hn)
              · exact .inl hn
              · exact .inl hseen
              · exact .inr hn
          rw [if_pos ((h _).2 (.inl hseen)), if_neg (by simpa using hseen), ih hmore]
        · have hnew : f.name ∉ more := fun hn => ((h _).1 hn).elim hseen htaken
          have hcons : ∀ name, name ∈ f.name :: more ↔ name ∈ seen ∨ name ∈ f.name :: taken := by
            intro name
            rw [List.mem_cons, List.mem_cons, h name]
            exact or_left_comm
          rw [if_neg hnew, if_pos (by simpa using hseen), ih hcons]

/-- Behind lines that close their blocks a scan goes on with the names of the fields it has found. -/
theorem fieldsFrom_append (owner : Text) {xs : List Text} (h : ∀ b ∈ blocks xs, b.closed = true)
    (taken ys : List Text) :
    fieldsFrom owner taken (xs ++ ys)
      = fieldsFrom owner taken xs
        ++ (fieldsFrom owner taken ys).filter
            fun f => f.name ∉ (fieldsFrom owner taken xs).map Field.name := by
  fun_induction blocks xs generalizing taken with
  | case1 =>
    rw [fieldsFrom_nil, List.nil_append, List.nil_append, List.filter_eq_self.2]
    intro f _
    exact decide_eq_true (List.not_mem_nil)
  | case2 line rest ih =>
    have hblock : ∀ b ∈ blockAt? line rest, b.closed = true := fun b hb =>
      h b (List.mem_append_left _ (Option.mem_toList.2 hb))
    have hlater : ∀ b ∈ blocks (rest.drop (stride line rest)), b.closed = true := fun b hb =>
      h b (List.mem_append_right _ hb)
    obtain ⟨hstride, hfield⟩ := step_append owner hblock ys
    have hdrop : (rest ++ ys).drop (stride line (rest ++ ys))
        = rest.drop (stride line rest) ++ ys := by
      rw [hstride, List.drop_append_of_le_length (stride_le line rest)]
    rw [List.cons_append]
    cases hf : fieldAt? owner line rest with
    | none =>
      rw [fieldsFrom_of_none (hfield.trans hf), fieldsFrom_of_none hf, hdrop, ih hlater]
    | some f =>
      rw [fieldsFrom_of_some (hfield.trans hf), fieldsFrom_of_some hf, hdrop]
      by_cases hm : f.name ∈ taken
      · rw [if_pos hm, if_pos hm, ih hlater]
      · have hcons : ∀ name, name ∈ f.name :: taken ↔ name ∈ [f.name] ∨ name ∈ taken := by
          intro name
          rw [List.mem_cons, List.mem_singleton]
        rw [if_neg hm, if_neg hm, ih hlater, fieldsFrom_filter owner hcons ys, List.filter_filter,
          List.cons_append, List.map_cons]
        congr 3
        funext g
        simp [not_or, Bool.and_comm]

/--
**A scan of lines one behind the other is a concatenation in which the first field of a name wins.**

The first lines must not leave a group of lines open, and a scan of them must find the end of every
block that it takes; of the blocks inside these blocks nothing is asked. Then the fields of all lines
are those of the first, followed in order by those of the second whose name none of the first has,
with their types and selections.
-/
theorem scan_append (types : NestedTypes) (owner : Text) {first : List Text}
    (hgroups : LogicalLine.Settled first) (hblocks : ClosesBlocks first) (second : List Text) :
    (scan types owner (first ++ second)).1
      = (scan types owner first).1
        ++ (scan types owner second).1.filter
            fun f => f.name ∉ (scan types owner first).1.map Field.name := by
  rw [scan_eq_fields, scan_eq_fields, scan_eq_fields]
  simp only
  rw [← fieldsFrom_ofLines, ← fieldsFrom_ofLines, ← fieldsFrom_ofLines,
    LogicalLine.ofLines_append hgroups, fieldsFrom_append owner hblocks]

/-- Lines with a selection, arguments over two lines and a block that is skipped. -/
def firstLines : List Text :=
  ["user(".toList, "id: 1) \x7b".toList, "name".toList, "\x7d".toList, "... on A \x7b".toList,
    "secret".toList, "\x7d".toList, "id".toList]

/-- Lines with a selection and a field whose names are taken by `firstLines`, and one more. -/
def secondLines : List Text :=
  ["user \x7b".toList, "age".toList, "\x7d".toList, "title".toList, "id: ID".toList]

theorem scan_append_firstLines :
    LogicalLine.Settled firstLines ∧ ClosesBlocks firstLines
      ∧ (scan .empty ['Q'] (firstLines ++ secondLines)).1
        = (scan .empty ['Q'] firstLines).1
          ++ (scan .empty ['Q'] secondLines).1.filter
              fun f => f.name ∉ (scan .empty ['Q'] firstLines).1.map Field.name := by
  have hgroups : LogicalLine.Settled firstLines := by decide +kernel
  have hblocks : ClosesBlocks firstLines := by decide +kernel
  exact ⟨hgroups, hblocks, scan_append .empty ['Q'] hgroups hblocks secondLines⟩

end Selection

end GqlScan
