import GqlScan.Proofs.LiveText
import GqlScan.Schema

/-!
# The types of a document are read off the live text

The scan for types numbers the lines, but the numbers go into its notices and nowhere else: the
types depend on the trimmed live lines alone. They are a fold over these lines, of which the types
that are finished are only an output: no line looks at them.

Main statements: `definitions_eq_ofLive`, `foldl_read_append` for types that are finished when a
scan begins, and `foldl_read_within` for a type that is open when it begins.
-/

namespace GqlScan

open Text

namespace Schema

/-- What is known of the types between two lines: the finished ones and the one that is open. -/
def Progress.types (p : Progress) : List TypeDefinition × Option TypeDefinition :=
  (p.finished, p.current?)

/-- What is known of the types after a further live line. -/
def read (known : List TypeDefinition × Option TypeDefinition) (line : Text) :
    List TypeDefinition × Option TypeDefinition :=
  match header? line, known with
  | some definition, (finished, current?) => (finished ++ current?.toList, some definition)
  | none, (finished, none) => (finished, none)
  | none, (finished, some d) =>
    if closes line then (finished ++ [d], none)
    else (finished, some { d with fields := d.fields ++ fieldsIn line })

/-- The number of a line says nothing about the types. -/
theorem types_step (p : Progress) (line : Comment.NumberedLine) :
    (step p line).types = read p.types line.text := by
  unfold step read Progress.types
  cases header? line.text with
  | some definition => rfl
  | none =>
    cases hcurrent : p.current? with
    | none =>
      dsimp only
      rw [hcurrent]
    | some d =>
      dsimp only
      split
      · rfl
      · rfl

theorem types_foldl (p : Progress) (lines : List Comment.NumberedLine) :
    (lines.foldl step p).types = (lines.map Comment.NumberedLine.text).foldl read p.types := by
  induction lines generalizing p with
  | nil => rfl
  | cons line lines ih => rw [List.foldl_cons, ih, types_step, List.map_cons, List.foldl_cons]

/-- **The types of a document are those of its live text.** -/
theorem definitions_eq_read (content : Text) :
    definitions content
      = (((Comment.liveLines content).map Comment.NumberedLine.text).foldl read ([], none)).1 :=
  congrArg Prod.fst (types_foldl {} (Comment.liveLines content))

/-- The types in some live lines. -/
def ofLive (live : List Text) : List TypeDefinition := (live.foldl read ([], none)).1

theorem definitions_eq_ofLive (content : Text) :
    definitions content = ofLive (Comment.liveText content) := by
  rw [definitions_eq_read, Comment.map_text_liveLines]
  rfl

/-! ## Steps -/

theorem read_of_header {line : Text} {definition : TypeDefinition}
    (h : header? line = some definition) (known : List TypeDefinition × Option TypeDefinition) :
    read known line = (known.1 ++ known.2.toList, some definition) := by
  unfold read
  rw [h]

theorem read_between {line : Text} (h : header? line = none) (finished : List TypeDefinition) :
    read (finished, none) line = (finished, none) := by
  unfold read
  rw [h]

theorem read_within {line : Text} (h : header? line = none) (hc : closes line = false)
    (finished : List TypeDefinition) (d : TypeDefinition) :
    read (finished, some d) line
      = (finished, some { d with fields := d.fields ++ fieldsIn line }) := by
  unfold read
  rw [h]
  simp only [hc]
  rfl

theorem read_closing (finished : List TypeDefinition) (d : TypeDefinition) :
    read (finished, some d) ['}'] = (finished ++ [d], none) := rfl

/-- An empty line says nothing. -/
theorem read_nil (known : List TypeDefinition × Option TypeDefinition) : read known [] = known := by
  obtain ⟨finished, current?⟩ := known
  cases current? with
  | none => rfl
  | some d =>
    rw [read_within rfl rfl, fieldsIn, List.append_nil]

/-- The types that are finished stay in front of what a line adds to them. -/
theorem read_append (front : List TypeDefinition)
    (known : List TypeDefinition × Option TypeDefinition) (line : Text) :
    read (front ++ known.1, known.2) line
      = (front ++ (read known line).1, (read known line).2) := by
  obtain ⟨finished, current?⟩ := known
  cases hh : header? line with
  | some definition =>
    rw [read_of_header hh, read_of_header hh, List.append_assoc]
  | none =>
    cases current? with
    | none => rw [read_between hh, read_between hh]
    | some d =>
      cases hc : closes line with
      | true =>
        have hline : line = ['}'] := by
          unfold closes at hc
          exact beq_iff_eq.1 hc
        rw [hline, read_closing, read_closing, List.append_assoc]
      | false => rw [read_within hh hc, read_within hh hc]

theorem foldl_read_append (front : List TypeDefinition)
    (known : List TypeDefinition × Option TypeDefinition) (live : List Text) :
    live.foldl read (front ++ known.1, known.2)
      = (front ++ (live.foldl read known).1, (live.foldl read known).2) := by
  induction live generalizing known with
  | nil => rfl
  | cons line live ih => rw [List.foldl_cons, List.foldl_cons, read_append, ih]

/-! ## Lines behind an open type -/

/-- Whether a line leaves a type open that is open in front of it. -/
def staysOpen (line : Text) : Bool := (header? line).isNone && !closes line

/-- The types in live lines in front of which a type is open. It takes the fields of the lines up to
the first that closes a type or starts one, and is lost when no such line comes. -/
def ofLiveWithin (d : TypeDefinition) (live : List Text) : List TypeDefinition :=
  match live.dropWhile staysOpen with
  | [] => []
  | line :: later =>
    { d with fields := d.fields ++ (live.takeWhile staysOpen).flatMap fieldsIn }
      :: ofLive (line :: later)

theorem read_of_staysOpen {line : Text} (h : staysOpen line = true)
    (finished : List TypeDefinition) (d : TypeDefinition) :
    read (finished, some d) line
      = (finished, some { d with fields := d.fields ++ fieldsIn line }) := by
  obtain ⟨hheader, hcloses⟩ := Bool.and_eq_true_iff.1 h
  exact read_within (Option.isNone_iff_eq_none.1 hheader) (Bool.not_eq_true' _ ▸ hcloses)
    finished d

/-- A line that does not leave a type open finishes it, and says besides what it says on its own. -/
theorem read_of_not_staysOpen {line : Text} (h : staysOpen line = false) (d : TypeDefinition) :
    read ([], some d) line = ([d] ++ (read ([], none) line).1, (read ([], none) line).2) := by
  cases hheader : header? line with
  | some definition => rw [read_of_header hheader, read_of_header hheader]; rfl
  | none =>
    have hcloses : line = ['}'] := by
      unfold staysOpen at h
      rw [hheader, Option.isNone_none, Bool.true_and, Bool.not_eq_false'] at h
      exact beq_iff_eq.1 h
    rw [hcloses]
    rfl

theorem foldl_read_within (d : TypeDefinition) (live : List Text) :
    (live.foldl read ([], some d)).1 = ofLiveWithin d live := by
  induction live generalizing d with
  | nil => rfl
  | cons line live ih =>
    unfold ofLiveWithin
    rw [List.foldl_cons]
    cases h : staysOpen line with
    | true =>
      rw [read_of_staysOpen h, ih, List.dropWhile_cons_of_pos h, List.takeWhile_cons_of_pos h]
      unfold ofLiveWithin
      rw [List.flatMap_cons, ← List.append_assoc]
    | false =>
      have hneg : ¬ staysOpen line = true := Bool.eq_false_iff.1 h
      rw [read_of_not_staysOpen h, foldl_read_append, List.dropWhile_cons_of_neg hneg,
        List.takeWhile_cons_of_neg hneg, List.flatMap_nil, List.append_nil]
      rfl

/-- Live lines that start no type hold none. -/
theorem ofLive_eq_nil {live : List Text} (h : ∀ line ∈ live, header? line = none) :
    ofLive live = [] := by
  unfold ofLive
  induction live with
  | nil => rfl
  | cons line live ih =>
    rw [List.foldl_cons, read_between (h line List.mem_cons_self)]
    exact ih fun l hl => h l (List.mem_cons_of_mem line hl)

end Schema

end GqlScan
