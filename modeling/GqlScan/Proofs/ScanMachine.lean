import Mathlib.Logic.Hydra
import GqlScan.Proofs.OperationShape
import GqlScan.Proofs.Concatenation

/-!
# The scan as a machine

The scan of a selection set is a loop over its logical lines that starts another loop whenever it
meets a nested selection. Here it goes pass by pass: the loop that runs, the loops that wait for it,
and the nested types that are known. Nothing in a step of this machine says that it comes to an end,
and lines may leave braces, parentheses and quotes open as they like.

It ends because of what one step does (`Move`). A pass takes the loop further down its lines, never
past the last one, and a loop that is started has lines with fewer opening braces than the loop that
waits for it. So of the loops that are there one is replaced by smaller ones, and this cannot go on
forever.

Main statements: `Move.of_step`, for a single step; `wellFounded_step`, that every run ends;
`runs_scan`, that it ends in what the scan gives; and `operation_step_ends`, with documents.
-/

namespace GqlScan

open Text

namespace Selection

/-! ## The machine -/

/-- A loop over the logical lines of a selection set, between two passes. -/
structure Loop where
  owner : Text
  /-- the lines of the selection set as they were handed over -/
  lines : List Text
  /-- the number of logical lines that lie behind -/
  index : Nat
  taken : List Text
  found : List Field
  deriving DecidableEq, Repr

namespace Loop

/-- The loop that begins the scan of a selection set. -/
def start (owner : Text) (lines : List Text) : Loop := ⟨owner, lines, 0, [], []⟩

/-- The logical lines that a loop goes along. -/
def logical (l : Loop) : List Text := LogicalLine.ofLines l.lines

/-- The loop with a name taken. -/
def take (l : Loop) (name : Text) : Loop := { l with taken := name :: l.taken }

/-- The loop with a field found. -/
def add (l : Loop) (f : Field) : Loop := { l with found := l.found ++ [f] }

/-- The loop behind a line and the lines that are taken together with it. -/
def behind (l : Loop) (line : Text) : Loop :=
  { l with index := l.index + 1 + stride line (l.logical.drop (l.index + 1)) }

end Loop

/-- What a pass of a loop leads to. -/
inductive Pass where
  /-- the next pass of the loop -/
  | goesOn (loop : Loop)
  /-- the scan of a nested selection, for which the loop waits -/
  | calls (loop : Loop) (name : Text) (body : List Text)
  deriving DecidableEq, Repr

/-- The loop after a pass. -/
def Pass.loop : Pass → Loop
  | .goesOn l => l
  | .calls l _ _ => l

/-- Pass over a line. -/
def Loop.pass (l : Loop) (line : Text) : Pass :=
  match LineShape.opening? line with
  | some o =>
    let block := Block.take o.after (l.logical.drop (l.index + 1))
    if l.taken.contains o.name then .goesOn (l.behind line)
    else if 0 < block.consumed then .calls ((l.behind line).take o.name) o.name block.body
    else .goesOn (((l.behind line).take o.name).add (nestedField l.owner o.name []))
  | none =>
    match leaf? line with
    | some (name, type) =>
      if l.taken.contains name then .goesOn (l.behind line)
      else .goesOn (((l.behind line).take name).add ⟨name, type, []⟩)
    | none => .goesOn (l.behind line)

/-- A loop that waits for the scan of a nested selection. -/
structure Waiting where
  loop : Loop
  name : Text

/-- The name made up for the shape of the selection that is waited for. -/
def Waiting.shape (w : Waiting) : Text := Field.shapeName w.loop.owner w.name

/-- The loop that goes on when `inner` has been found in the selection. -/
def Waiting.resume (w : Waiting) (inner : List Field) : Loop :=
  w.loop.add (nestedField w.loop.owner w.name inner)

/-- A state of the machine. -/
inductive State where
  /-- a loop that runs, the loops that wait, innermost first, and the nested types -/
  | running (loop : Loop) (waiting : List Waiting) (types : NestedTypes)
  | done (found : List Field) (types : NestedTypes)

/-- The state in which the scan of a selection set begins. -/
def State.start (types : NestedTypes) (owner : Text) (lines : List Text) : State :=
  .running (.start owner lines) [] types

/-- The next state, if there is one. -/
def next? : State → Option State
  | .running l waiting types =>
    match l.logical[l.index]? with
    | some line =>
      match l.pass line with
      | .goesOn l' => some (.running l' waiting types)
      | .calls l' name body =>
        let w : Waiting := ⟨l', name⟩
        some (.running (.start w.shape body) (w :: waiting) types)
    | none =>
      match waiting with
      | w :: waiting => some (.running (w.resume l.found) waiting (types.adopt w.shape l.found))
      | [] => some (.done l.found types)
  | .done _ _ => none

/-- One step of the machine. -/
def Step (s s' : State) : Prop := next? s = some s'

/-- Some steps of the machine, one after another. -/
abbrev Runs : State → State → Prop := Relation.ReflTransGen Step

/-! ## What a step does -/

/-- A loop has made a pass: it goes along the same lines, is further down, and not past the end. -/
structure Loop.Advances (l l' : Loop) : Prop where
  lines : l'.lines = l.lines
  forward : l.index < l'.index
  within : l'.index ≤ l.logical.length

/-- What a step can do. -/
inductive Move : State → State → Prop where
  | goesOn {l l' : Loop} {waiting : List Waiting} {types : NestedTypes} :
      l.Advances l' → Move (.running l waiting types) (.running l' waiting types)
  | calls {l : Loop} {w : Waiting} {body : List Text} {waiting : List Waiting}
      {types : NestedTypes} :
      l.Advances w.loop → Block.braces body < Block.braces l.lines →
      Move (.running l waiting types) (.running (.start w.shape body) (w :: waiting) types)
  | returns {l : Loop} {w : Waiting} {waiting : List Waiting} {types : NestedTypes} :
      l.logical.length ≤ l.index →
      Move (.running l (w :: waiting) types)
        (.running (w.resume l.found) waiting (types.adopt w.shape l.found))
  | ends {l : Loop} {types : NestedTypes} :
      l.logical.length ≤ l.index → Move (.running l [] types) (.done l.found types)

section

variable {l : Loop} {line : Text}

theorem drop_index_eq_cons (h : l.logical[l.index]? = some line) :
    l.logical.drop l.index = line :: l.logical.drop (l.index + 1) := by
  obtain ⟨hlt, rfl⟩ := List.getElem?_eq_some_iff.1 h
  exact List.drop_eq_getElem_cons hlt

theorem advances_behind (h : l.logical[l.index]? = some line) : l.Advances (l.behind line) where
  lines := rfl
  forward := by
    change l.index < l.index + 1 + _
    omega
  within := by
    obtain ⟨hlt, -⟩ := List.getElem?_eq_some_iff.1 h
    have hstride := stride_le line (l.logical.drop (l.index + 1))
    rw [List.length_drop] at hstride
    change l.index + 1 + _ ≤ _
    omega

/-- Whatever a pass does with names and fields, it leads behind the line. -/
theorem advances_pass (h : l.logical[l.index]? = some line) : l.Advances (l.pass line).loop := by
  have hbehind := advances_behind h
  have htake : ∀ name, l.Advances ((l.behind line).take name) := fun _ =>
    ⟨hbehind.lines, hbehind.forward, hbehind.within⟩
  have hadd : ∀ name f, l.Advances (((l.behind line).take name).add f) := fun _ _ =>
    ⟨hbehind.lines, hbehind.forward, hbehind.within⟩
  unfold Loop.pass
  split
  · dsimp only
    split
    · exact hbehind
    · split
      · exact htake _
      · exact hadd _ _
  · split
    · split
      · exact hbehind
      · exact hadd _ _
    · exact hbehind

/-- A pass that starts another loop has met a line that opens a selection. -/
theorem exists_opening_of_calls {l' : Loop} {name : Text} {body : List Text}
    (h : l.pass line = .calls l' name body) :
    ∃ o, LineShape.opening? line = some o
      ∧ body = (Block.take o.after (l.logical.drop (l.index + 1))).body := by
  unfold Loop.pass at h
  split at h
  · rename_i o ho
    dsimp only at h
    split at h
    · cases h
    · split at h
      · cases h
        exact ⟨o, ho, rfl⟩
      · cases h
  · split at h
    · split at h <;> cases h
    · cases h

/-- **The lines of a nested selection hold fewer opening braces than the lines around it.** -/
theorem braces_body_lt_of_calls {l' : Loop} {name : Text} {body : List Text}
    (hline : l.logical[l.index]? = some line) (h : l.pass line = .calls l' name body) :
    Block.braces body < Block.braces l.lines := by
  obtain ⟨o, ho, rfl⟩ := exists_opening_of_calls h
  calc Block.braces (Block.take o.after (l.logical.drop (l.index + 1))).body
      ≤ o.after.count '{' + Block.braces (l.logical.drop (l.index + 1)) :=
        Block.count_braces_take_le _ _
    _ < line.count '{' + Block.braces (l.logical.drop (l.index + 1)) :=
        Nat.add_lt_add_right (LineShape.count_after_lt ho) _
    _ = Block.braces (l.logical.drop l.index) := by
        rw [drop_index_eq_cons hline, Block.braces_cons]
    _ ≤ Block.braces l.logical := Block.braces_drop_le _ _
    _ ≤ Block.braces l.lines := LogicalLine.braces_ofLines_le _

end

/-- **A step does one of four things.** -/
theorem Move.of_step {s s' : State} (h : Step s s') : Move s s' := by
  unfold Step at h
  cases s with
  | done found types => cases h
  | running l waiting types =>
    rw [next?.eq_def] at h
    dsimp only at h
    cases hline : l.logical[l.index]? with
    | some line =>
      rw [hline] at h
      have hadvances := advances_pass hline
      cases hpass : l.pass line with
      | goesOn l' =>
        rw [hpass] at hadvances
        simp only [hpass] at h
        cases h
        exact .goesOn hadvances
      | calls l' name body =>
        rw [hpass] at hadvances
        simp only [hpass] at h
        cases h
        exact .calls hadvances (braces_body_lt_of_calls hline hpass)
    | none =>
      rw [hline] at h
      have hend := List.getElem?_eq_none_iff.1 hline
      cases waiting with
      | cons w waiting =>
        cases h
        exact .returns hend
      | nil =>
        cases h
        exact .ends hend

/-! ## Every run ends -/

/-- What is left for a loop: the opening braces of its lines, and the lines ahead of it. -/
def Loop.left (l : Loop) : Nat × Nat := (Block.braces l.lines, l.logical.length - l.index)

/-- What is left for loops that wait. -/
def Waiting.left : List Waiting → Multiset (Nat × Nat)
  | [] => 0
  | w :: waiting => {w.loop.left} + left waiting

/-- What is left for all the loops of a state. -/
def State.left : State → Multiset (Nat × Nat)
  | .running l waiting _ => {l.left} + Waiting.left waiting
  | .done _ _ => 0

/-- Fewer braces, or as many and fewer lines ahead. -/
def Less : Nat × Nat → Nat × Nat → Prop := Prod.Lex (· < ·) (· < ·)

theorem wellFounded_less : WellFounded Less :=
  WellFounded.prod_lex Nat.lt_wfRel.wf Nat.lt_wfRel.wf

theorem Loop.Advances.less {l l' : Loop} (h : l.Advances l') : Less l'.left l.left := by
  have hlogical : l'.logical = l.logical := congrArg LogicalLine.ofLines h.lines
  have hforward := h.forward
  have hwithin := h.within
  unfold Loop.left
  rw [h.lines, hlogical]
  exact .right _ (by omega)

/-- **A step puts smaller loops in the place of one.** -/
theorem Move.cutExpand {s s' : State} (h : Move s s') :
    Relation.CutExpand Less s'.left s.left := by
  cases h with
  | goesOn hadvances => exact Relation.cutExpand_single_add hadvances.less _
  | @calls l w body waiting types hadvances hbraces =>
    -- the loop that is started and the loop that waits for it, both in the place of the one
    change Relation.CutExpand Less ({_} + ({w.loop.left} + _)) ({_} + _)
    rw [← add_assoc]
    exact (Relation.cutExpand_add_right _).2
      (Relation.cutExpand_double (.left _ _ hbraces) hadvances.less)
  | @returns l w waiting types hend =>
    have hgone := (Relation.cutExpand_add_right (r := Less)
      ({w.loop.left} + Waiting.left waiting)).2 (Relation.cutExpand_zero (x := l.left))
    rwa [zero_add] at hgone
  | ends hend => exact Relation.cutExpand_zero

/-- **No run goes on forever**, from whatever state it starts. -/
theorem wellFounded_step : WellFounded fun s' s => Step s s' :=
  Subrelation.wf (fun h => (Move.of_step h).cutExpand)
    (InvImage.wf State.left wellFounded_less.cutExpand)

/-! ## What a run gives -/

section

variable {l l' : Loop} {line : Text} {rest : List Text} {waiting : List Waiting}
  {types types' : NestedTypes}

theorem step_goesOn (hline : l.logical[l.index]? = some line) (hpass : l.pass line = .goesOn l') :
    Step (.running l waiting types) (.running l' waiting types) := by
  unfold Step next?
  simp only [hline, hpass]

theorem step_calls {name : Text} {body : List Text} (hline : l.logical[l.index]? = some line)
    (hpass : l.pass line = .calls l' name body) :
    Step (.running l waiting types)
      (.running (.start (Field.shapeName l'.owner name) body) (⟨l', name⟩ :: waiting) types) := by
  unfold Step next?
  simp only [hline, hpass]
  rfl

theorem step_returns {w : Waiting} (hend : l.logical[l.index]? = none) :
    Step (.running l (w :: waiting) types)
      (.running (w.resume l.found) waiting (types.adopt w.shape l.found)) := by
  unfold Step next?
  simp only [hend]

theorem step_ends (hend : l.logical[l.index]? = none) :
    Step (.running l [] types) (.done l.found types) := by
  unfold Step next?
  simp only [hend]

/-- The loop that runs gets to the end of its lines; the fields in front of it and the nested types
are then those of `result`. -/
def Gets (l : Loop) (waiting : List Waiting) (types : NestedTypes)
    (result : List Field × NestedTypes) : Prop :=
  ∃ l', l'.logical[l'.index]? = none ∧ l'.found = l.found ++ result.1
    ∧ Runs (.running l waiting types) (.running l' waiting result.2)

/-- What a loop gets when some steps come first, in which it has found `fs`. -/
theorem Gets.of_runs {fs : List Field} {result : List Field × NestedTypes}
    (h : Gets l' waiting types' result)
    (hruns : Runs (.running l waiting types) (.running l' waiting types'))
    (hfound : l'.found = l.found ++ fs) : Gets l waiting types (fs ++ result.1, result.2) := by
  obtain ⟨last, hend, hlast, hmore⟩ := h
  refine ⟨last, hend, ?_, hruns.trans hmore⟩
  rw [hlast, hfound, List.append_assoc]

/-- What a loop gets when it passes over a line and finds nothing. -/
theorem Gets.of_behind {result : List Field × NestedTypes}
    (h : Gets (l.behind line) waiting types result) (hline : l.logical[l.index]? = some line)
    (hpass : l.pass line = .goesOn (l.behind line)) : Gets l waiting types result :=
  h.of_runs (.single (step_goesOn hline hpass)) (List.append_nil _).symm

end

/-- A loop stands in front of logical lines in a selection set that belongs to `owner`. -/
structure Loop.Before (l : Loop) (owner : Text) (taken lines : List Text) : Prop where
  owner : l.owner = owner
  taken : l.taken = taken
  ahead : l.logical.drop l.index = lines

theorem before_start (owner : Text) (lines : List Text) :
    (Loop.start owner lines).Before owner [] (LogicalLine.ofLines lines) := ⟨rfl, rfl, rfl⟩

namespace Loop.Before

variable {l : Loop} {owner line : Text} {taken lines rest : List Text}

theorem take (h : l.Before owner taken lines) (name : Text) :
    (l.take name).Before owner (name :: taken) lines :=
  ⟨h.owner, congrArg _ h.taken, h.ahead⟩

theorem add (h : l.Before owner taken lines) (f : Field) : (l.add f).Before owner taken lines :=
  ⟨h.owner, h.taken, h.ahead⟩

theorem atEnd (h : l.Before owner taken []) : l.logical[l.index]? = none := by
  rw [← List.head?_drop, h.ahead]
  rfl

theorem line_eq (h : l.Before owner taken (line :: rest)) : l.logical[l.index]? = some line := by
  rw [← List.head?_drop, h.ahead]
  rfl

theorem rest_eq (h : l.Before owner taken (line :: rest)) :
    l.logical.drop (l.index + 1) = rest := by
  rw [← List.tail_drop, h.ahead]
  rfl

theorem behind (h : l.Before owner taken (line :: rest)) {n : Nat} (hn : stride line rest = n) :
    (l.behind line).Before owner taken (rest.drop n) where
  owner := h.owner
  taken := h.taken
  ahead := by
    change l.logical.drop (l.index + 1 + stride line (l.logical.drop (l.index + 1))) = _
    rw [← List.drop_drop, h.rest_eq, hn]

end Loop.Before

/-- A loop that starts another one goes on with the field of what that one gets. -/
theorem runs_calls {l l' : Loop} {owner line name : Text} {body : List Text} {types : NestedTypes}
    {inner : List Field × NestedTypes} (hline : l.logical[l.index]? = some line)
    (hpass : l.pass line = .calls l' name body) (howner : l'.owner = owner)
    (hinner : ∀ waiting, Gets (.start (Field.shapeName owner name) body) waiting types inner)
    (waiting : List Waiting) :
    Runs (.running l waiting types)
      (.running (l'.add (nestedField owner name inner.1)) waiting
        (inner.2.adopt (Field.shapeName owner name) inner.1)) := by
  subst howner
  obtain ⟨last, hend, hfound, hruns⟩ := hinner (⟨l', name⟩ :: waiting)
  have hfound' : last.found = inner.1 := hfound
  have hback : Step (.running last (⟨l', name⟩ :: waiting) inner.2)
      (.running (l'.add (nestedField l'.owner name last.found)) waiting
        (inner.2.adopt (Field.shapeName l'.owner name) last.found)) := step_returns hend
  rw [hfound'] at hback
  exact (Relation.ReflTransGen.head (step_calls hline hpass) hruns).tail hback

/-- **Every loop gets to the end of its lines, and finds there what the scan finds.** -/
theorem gets_scanLines (owner : Text) (taken : List Text) (types : NestedTypes)
    (lines : List Text) :
    ∀ l : Loop, l.Before owner taken lines → ∀ waiting,
      Gets l waiting types (scanLines owner taken types lines) := by
  -- a loop that is started stands in front of the lines of its own scan, and the loop that waits
  -- for it goes on behind the block
  fun_induction scanLines owner taken types lines with
  | case1 owner taken types =>
    intro l h waiting
    exact ⟨l, h.atEnd, (List.append_nil _).symm, .refl⟩
  | case2 owner taken types line rest o ho block hm ih =>
    intro l h waiting
    have hpass : l.pass line = .goesOn (l.behind line) := by
      unfold Loop.pass
      simp only [ho, h.taken, List.contains_iff_mem, if_pos hm]
    exact (ih _ (h.behind (stride_opening ho)) waiting).of_behind h.line_eq hpass
  | case3 owner taken types line rest o ho block hm shape inner later ihInner _ ihLater =>
    intro l h waiting
    have htaken := (h.behind (stride_opening ho)).take o.name
    have hruns : Runs (.running l waiting types)
        (.running (((l.behind line).take o.name).add (nestedField owner o.name inner.1)) waiting
          (inner.2.adopt shape inner.1)) := by
      by_cases hc : 0 < block.consumed
      · have hinner : inner = scanLines shape [] types (LogicalLine.ofLines block.body) :=
          dif_pos hc
        have hpass : l.pass line = .calls ((l.behind line).take o.name) o.name block.body := by
          unfold Loop.pass
          simp only [ho, h.taken, h.rest_eq, List.contains_iff_mem, if_neg hm]
          exact if_pos hc
        have hgets := ihInner _ (before_start shape block.body)
        rw [← hinner] at hgets
        exact runs_calls h.line_eq hpass htaken.owner hgets waiting
      · have hinner : inner = ([], types) := dif_neg hc
        have hpass : l.pass line
            = .goesOn (((l.behind line).take o.name).add (nestedField owner o.name [])) := by
          unfold Loop.pass
          simp only [ho, h.owner, h.taken, h.rest_eq, List.contains_iff_mem, if_neg hm]
          exact if_neg hc
        rw [hinner]
        exact .single (step_goesOn h.line_eq hpass)
    exact (ihLater _ (htaken.add _) waiting).of_runs hruns rfl
  | case4 owner taken types line rest ho name type hl hm ih =>
    intro l h waiting
    have hpass : l.pass line = .goesOn (l.behind line) := by
      unfold Loop.pass
      simp only [ho, hl, h.taken, List.contains_iff_mem, if_pos hm]
    exact (ih _ (h.behind (stride_leaf ho hl)) waiting).of_behind h.line_eq hpass
  | case5 owner taken types line rest ho name type hl hm later ih =>
    intro l h waiting
    have hpass : l.pass line = .goesOn (((l.behind line).take name).add ⟨name, type, []⟩) := by
      unfold Loop.pass
      simp only [ho, hl, h.taken, List.contains_iff_mem, if_neg hm]
    have hadded := ((h.behind (stride_leaf ho hl)).take name).add ⟨name, type, []⟩
    exact (ih _ hadded waiting).of_runs (.single (step_goesOn h.line_eq hpass)) rfl
  | case6 owner taken types line rest ho hl hb ih =>
    intro l h waiting
    have hpass : l.pass line = .goesOn (l.behind line) := by
      unfold Loop.pass
      simp only [ho, hl]
    exact (ih _ (h.behind (stride_skip ho hl hb)) waiting).of_behind h.line_eq hpass
  | case7 owner taken types line rest ho hl hb ih =>
    intro l h waiting
    have hpass : l.pass line = .goesOn (l.behind line) := by
      unfold Loop.pass
      simp only [ho, hl]
    exact (ih _ (h.behind (stride_unrecognised ho hl hb)) waiting).of_behind h.line_eq hpass

/-- **The machine ends in what the scan gives.** -/
theorem runs_scan (types : NestedTypes) (owner : Text) (lines : List Text) :
    Runs (.start types owner lines)
      (.done (scan types owner lines).1 (scan types owner lines).2) := by
  obtain ⟨last, hend, hfound, hruns⟩ :=
    gets_scanLines owner [] types _ _ (before_start owner lines) []
  have hlast : Step (.running last [] (scan types owner lines).2)
      (.done last.found (scan types owner lines).2) := step_ends hend
  rw [hfound] at hlast
  exact hruns.tail hlast

/-! ## How deep fields are nested -/

/-- **A field in some lines stands no deeper than these lines have opening braces**, the lines
themselves standing in a block. -/
theorem length_path_le {f : Field} {owner : Text} {lines path : List Text}
    (h : f.At path (fields owner lines)) : path.length ≤ Block.braces lines + 1 := by
  induction path generalizing owner lines with
  | nil => exact Nat.zero_le _
  | cons name inner ih =>
    rw [List.length_cons]
    rcases at_fields_cases h with ⟨item, -, -, hpath⟩ | ⟨name', body, inner', hmem, hpath, hat⟩
    · rw [(List.cons.inj hpath).2]
      exact Nat.succ_le_succ (Nat.zero_le _)
    · cases hpath
      exact Nat.succ_le_succ ((ih hat).trans (braces_body_lt hmem))

end Selection

/-! ## Documents -/

namespace Document

open Selection

theorem braces_withoutHeader_le (lines : List Text) :
    Block.braces (withoutHeader lines) ≤ Block.braces lines := by
  cases lines with
  | nil => exact Nat.le_refl _
  | cons first rest =>
    rw [withoutHeader, Block.braces_cons, Block.braces_cons]
    exact Nat.add_le_add_right ((Header.after_suffix first).sublist.count_le '{') _

/-- The selection set holds fewer opening braces than the lines it is taken from: its own stands in
front of it. -/
theorem braces_body_lt_of_selectionSet? {lines : List Text} {block : Block}
    (h : selectionSet? lines = some block) : Block.braces block.body < Block.braces lines := by
  fun_induction selectionSet? lines with
  | case1 => cases h
  | case2 line rest hmem =>
    cases h
    have hbody := Block.count_braces_take_le (Text.after '{' line) rest
    have hline : line.count '{' = (Text.before '{' line).count '{'
        + (1 + (Text.after '{' line).count '{') := by
      conv_lhs => rw [← before_append_after hmem]
      rw [List.count_append, List.count_cons_self, Nat.add_comm 1]
    rw [Block.braces_cons]
    omega
  | case3 line rest hmem ih =>
    have := ih h
    rw [Block.braces_cons]
    omega

/-- How the fields of an operation come about. -/
inductive Scans (types : NestedTypes) (name : Text) (lines : List Text) :
    List Field → NestedTypes → Prop where
  /-- there is no selection set, and nothing is scanned -/
  | nothing : selectionSet? (withoutHeader lines) = none → Scans types name lines [] types
  /-- a run of the machine over the selection set ends in them -/
  | run {block : Block} {found : List Field} {types' : NestedTypes} :
      selectionSet? (withoutHeader lines) = some block →
      Runs (.start types name block.body) (.done found types') →
      Scans types name lines found types'

theorem scans_scanFields (types : NestedTypes) (name : Text) (lines : List Text) :
    Scans types name lines (scanFields types name lines).1 (scanFields types name lines).2 := by
  unfold scanFields
  split
  · rename_i block hblock
    exact .run hblock (runs_scan types name block.body)
  · rename_i hnone
    exact .nothing hnone

/-- A scan that finds no operation leaves the nested types as they are. -/
theorem scan_of_none {types : NestedTypes} {content : Text} (h : (scan types content).1 = none) :
    (scan types content).2 = types := by
  unfold scan at h ⊢
  split
  · rename_i header hheader
    rw [hheader] at h
    cases h
  · rfl

theorem scans_of_scan {types : NestedTypes} {content : Text} {o : Operation}
    (h : (scan types content).1 = some o) :
    Scans types o.name (Scope.linesOf content o.name) o.fields (scan types content).2 := by
  unfold scan at h ⊢
  split
  · rename_i header hheader
    rw [hheader] at h
    cases h
    exact scans_scanFields types header.name _
  · rename_i hheader
    rw [hheader] at h
    cases h

/-- **No field of an operation stands deeper than the lines of its scope have opening braces.** -/
theorem length_path_le_of_fieldsOf {name : Text} {lines path : List Text} {f : Field}
    (h : f.At path (fieldsOf name lines)) : path.length ≤ Block.braces lines := by
  unfold fieldsOf at h
  split at h
  · rename_i block hblock
    calc path.length
        ≤ Block.braces block.body + 1 := length_path_le h
      _ ≤ Block.braces (withoutHeader lines) := braces_body_lt_of_selectionSet? hblock
      _ ≤ Block.braces lines := braces_withoutHeader_le lines
  · exact absurd h Field.not_at_nil

end Document

namespace Parser

open Selection

/--
**Scanning ends, whatever it is given.**

A step of a scan takes its loop further down its lines and never past the last one, starts a loop
for lines with fewer opening braces, or comes back from a loop that is at its end. No run goes on
forever, and the run over any lines ends in what the scan of these lines gives. So a parser that is
asked for the operation of a document answers, and the fields in the answer stand no deeper than the
lines of the operation have opening braces.
-/
theorem operation_step_ends :
    (∀ s s', Step s s' → Move s s')
    ∧ (WellFounded fun s' s => Step s s')
    ∧ (∀ types owner lines, Runs (.start types owner lines)
        (.done (scan types owner lines).1 (scan types owner lines).2))
    ∧ ∀ (types : NestedTypes) (content : Text), ∃ types' found,
        step types (.operation content) = (types', .operation found)
        ∧ (found = none → types' = types)
        ∧ ∀ o, found = some o →
          Document.Scans types o.name (Scope.linesOf content o.name) o.fields types'
          ∧ ∀ path f, Field.At f path o.fields →
            path.length ≤ Block.braces (Scope.linesOf content o.name) := by
  refine ⟨fun _ _ => Move.of_step, wellFounded_step, runs_scan, fun types content => ?_⟩
  refine ⟨(Document.scan types content).2, (Document.scan types content).1, rfl,
    Document.scan_of_none, fun o ho => ⟨Document.scans_of_scan ho, fun path f hat => ?_⟩⟩
  rw [Document.scan_eq] at ho
  obtain ⟨header, -, rfl⟩ := Option.map_eq_some_iff.1 ho
  exact Document.length_path_le_of_fieldsOf hat

/-- A document that leaves two blocks, an argument list and a string literal open. -/
def openSource : Text :=
  joinLines
    ["query Open \x7b".toList, "user \x7b".toList, "id".toList, "posts(tag: \"\x7b".toList]

/-- The loop over the selection set of `openSource`. -/
def openLoop : Loop :=
  .start "Open".toList
    [[], "user \x7b".toList, "id".toList, "posts(tag: \"\x7b".toList]

/-- The inner field of `openOperation`. -/
def openInner : Field := ⟨"id".toList, Field.scalarType, []⟩

/-- The outer field of `openOperation`. -/
def openOuter : Field := ⟨"user".toList, "OpenUser".toList, [openInner]⟩

/-- The operation of `openSource`. -/
def openOperation : Operation := ⟨.query, "Open".toList, [], [openOuter]⟩

/-- `openLoop` when it waits for the scan of the selection it has met. -/
def openWaiting : Waiting := ⟨{ openLoop with index := 3, taken := ["user".toList] }, "user".toList⟩

/-- The lines of that selection: all that are left, for its block is not closed. -/
def openBody : List Text := [[], "id".toList, "posts(tag: \"\x7b".toList]

theorem operation_step_ends_openSource :
    Move (.running openLoop [] .empty)
        (.running (.start openWaiting.shape openBody) [openWaiting] .empty)
      ∧ (step .empty (.operation openSource)).2 = .operation (some openOperation)
      ∧ [openOuter.name, openInner.name].length
        ≤ Block.braces (Scope.linesOf openSource openOperation.name) := by
  obtain ⟨hmove, -, -, hdocuments⟩ := operation_step_ends
  obtain ⟨types', found, hstep, -, hfound⟩ := hdocuments .empty openSource
  have hline : openLoop.logical[openLoop.index]? = some "user \x7b".toList := by decide +kernel
  have hpass : openLoop.pass "user \x7b".toList
      = .calls openWaiting.loop openWaiting.name openBody := by decide +kernel
  have hoperation : Document.operation? openSource = some openOperation := by decide +kernel
  have hanswer : (step .empty (.operation openSource)).2 = .operation (some openOperation) := by
    rw [step_operation, hoperation]
  have hsome : found = some openOperation := by
    rw [hstep] at hanswer
    exact Answer.operation.inj hanswer
  have hinner : openInner.At [openOuter.name, openInner.name] openOperation.fields :=
    .under List.mem_cons_self (.among List.mem_cons_self)
  exact ⟨hmove _ _ (step_calls hline hpass), hanswer, (hfound _ hsome).2 _ _ hinner⟩

end Parser

end GqlScan
