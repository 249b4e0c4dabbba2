import Mathlib.Order.WellFounded
import GqlScan.Proofs.Enclosed

/-!
# Where a block ends

The depth of braces in a block is one at its start, one more behind each opening brace and one less
behind each closing one. A block ends at the first character behind which it is zero. That is a
closing brace, on whichever line it stands; the lines before it belong to the block whole and its own
line up to it. If there is no such character the block takes all lines and is not closed.

Main statements: `takeFrom_of_firstZero` and `takeFrom_of_never_zero`, inside any number of blocks,
and `take_balancing`.
-/

namespace GqlScan.Block

open Text

/-! ## Positions -/

/-- The place of a character in some lines: the number of its line and its column there. -/
structure Position where
  line : Nat
  column : Nat
  deriving DecidableEq, Repr

namespace Position

/-- Some lines have a character at a position. -/
def In (p : Position) (lines : List Text) : Prop := p.column < (lines.getD p.line []).length

/-- Characters are read line by line. -/
def Before (p q : Position) : Prop := p.line < q.line ∨ p.line = q.line ∧ p.column < q.column

/-- What has been read when a position is reached, without the character that stands there. -/
def front (p : Position) (lines : List Text) : List Text :=
  lines.take p.line ++ [(lines.getD p.line []).take p.column]

/-- What has been read behind a position. -/
def read (p : Position) (lines : List Text) : Text :=
  (lines.take p.line).flatten ++ (lines.getD p.line []).take (p.column + 1)

theorem read_succ (n c : Nat) (line : Text) (rest : List Text) :
    (⟨n + 1, c⟩ : Position).read (line :: rest) = line ++ (⟨n, c⟩ : Position).read rest := by
  unfold read
  rw [List.take_succ_cons, List.flatten_cons, List.append_assoc]
  rfl

theorem before_succ {m n c d : Nat} :
    (⟨m + 1, d⟩ : Position).Before ⟨n + 1, c⟩ ↔ (⟨m, d⟩ : Position).Before ⟨n, c⟩ := by
  unfold Before
  simp only
  omega

/-- Of some positions there is a first one. -/
theorem wellFounded_before : WellFounded Before := by
  refine Subrelation.wf (r := InvImage (Prod.Lex (· < ·) (· < ·)) fun p => (p.line, p.column)) ?_
    (InvImage.wf _ (WellFounded.prod_lex wellFounded_lt wellFounded_lt))
  rintro p q (hline | ⟨hline, hcolumn⟩)
  · exact .left _ _ hline
  · exact Prod.Lex.right' _ (Nat.le_of_eq hline) hcolumn

end Position

/-- The depth of braces behind a position of some lines that start inside `depth` blocks. -/
def depthBehind (depth : Int) (lines : List Text) (p : Position) : Int :=
  depth + surplus (p.read lines)

/-- The position behind which the depth is zero for the first time. -/
structure FirstZero (depth : Int) (lines : List Text) (p : Position) : Prop where
  within : p.In lines
  zero : depthBehind depth lines p = 0
  first : ∀ q : Position, q.In lines → q.Before p → depthBehind depth lines q ≠ 0

/-- Where the depth is zero anywhere, it is zero somewhere for the first time. -/
theorem exists_firstZero {depth : Int} {lines : List Text} {p : Position} (hp : p.In lines)
    (hzero : depthBehind depth lines p = 0) : ∃ q, FirstZero depth lines q := by
  obtain ⟨q, ⟨hq, hqzero⟩, hmin⟩ :=
    Position.wellFounded_before.has_min { q | q.In lines ∧ depthBehind depth lines q = 0 }
      ⟨p, hp, hzero⟩
  exact ⟨q, hq, hqzero, fun r hr hbefore hrzero => hmin r ⟨hr, hrzero⟩ hbefore⟩

/-! ## One line -/

section

variable {k : Nat} {line : Text}

/-- The part of a line in front of the brace that closes a block has closed all blocks inside. -/
theorem stays_zero_of_closes {before : Text} (h : run k line = .closes before) :
    run k before = .stays 0 := by
  obtain ⟨behind, hline, hsurplus⟩ := exists_of_closes h
  cases hb : run k before with
  | closes before' =>
    -- the block would be closed earlier
    rw [hline, run_append_of_closes hb] at h
    cases h
    obtain ⟨behind', hbefore, -⟩ := exists_of_closes hb
    have := congrArg List.length hbefore
    rw [List.length_append, List.length_cons] at this
    omega
  | stays j =>
    have := surplus_of_stays hb
    rw [show j = 0 by omega]

/-- A line along which the depth is never zero does not close its block. -/
theorem exists_stays_of_never_zero
    (h : ∀ c < line.length, (k : Int) + 1 + surplus (line.take (c + 1)) ≠ 0) :
    ∃ j, run k line = .stays j := by
  cases hrun : run k line with
  | stays j => exact ⟨j, rfl⟩
  | closes before =>
    obtain ⟨behind, rfl, hsurplus⟩ := exists_of_closes hrun
    have htake : (before ++ '}' :: behind).take (before.length + 1) = before ++ ['}'] :=
      List.take_length_add_append 1
    refine absurd ?_ (h before.length ?_)
    · rw [htake, surplus_append, hsurplus]
      change _ + 1 + (-(k : Int) + -1) = _
      omega
    · rw [List.length_append, List.length_cons]
      omega

/-- A line closes its block at the first column behind which the depth is zero. -/
theorem closes_of_first_zero {t : Text} {c : Nat} (hc : c < t.length)
    (hzero : (k : Int) + 1 + surplus (t.take (c + 1)) = 0)
    (hfirst : ∀ d < c, (k : Int) + 1 + surplus (t.take (d + 1)) ≠ 0) :
    run k t = .closes (t.take c) := by
  have hfront : ∀ d < (t.take c).length,
      (k : Int) + 1 + surplus ((t.take c).take (d + 1)) ≠ 0 := by
    intro d hd
    rw [List.length_take] at hd
    rw [List.take_take, Nat.min_eq_left (by omega)]
    exact hfirst d (by omega)
  obtain ⟨j, hj⟩ := exists_stays_of_never_zero hfront
  have hsplit := List.take_append_getElem hc
  have ht : t = t.take c ++ t[c] :: t.drop (c + 1) := by
    rw [← List.drop_eq_getElem_cons hc, List.take_append_drop]
  have hsurplus := surplus_of_stays hj
  rw [← hsplit, surplus_append, surplus_cons, surplus_nil] at hzero
  -- the depth falls to zero by one, so the character is a closing brace and the depth was one
  have hbrace : t[c] = '}' := by
    by_contra hne
    rw [if_neg hne] at hzero
    split at hzero <;> omega
  have hj0 : j = 0 := by
    rw [hbrace, if_neg (by decide), if_pos rfl] at hzero
    omega
  calc run k t = run k (t.take c ++ '}' :: t.drop (c + 1)) := by rw [← hbrace, ← ht]
    _ = (run 0 ('}' :: t.drop (c + 1))).behind (t.take c) := by
        rw [run_append_of_stays hj, hj0]
    _ = .closes (t.take c) := congrArg Run.closes (List.append_nil _)

end

/-! ## Lines -/

variable {k : Nat} {line : Text} {rest : List Text}

/-- Behind a line that does not close its block, the depth is counted from what the line leaves. -/
theorem depthBehind_succ {j : Nat} (h : run k line = .stays j) (n c : Nat) :
    depthBehind (k + 1) (line :: rest) ⟨n + 1, c⟩ = depthBehind (j + 1) rest ⟨n, c⟩ := by
  have := surplus_of_stays h
  unfold depthBehind
  rw [Position.read_succ, surplus_append]
  omega

/-- **A block ends where the depth is zero for the first time.** -/
theorem takeFrom_of_firstZero {p : Position} (h : FirstZero (k + 1) (line :: rest) p) :
    takeFrom k line rest = ⟨p.front (line :: rest), p.line, true⟩ := by
  obtain ⟨n, c⟩ := p
  induction n generalizing k line rest with
  | zero =>
    refine takeFrom_closes (closes_of_first_zero h.within h.zero fun d hd => ?_) rest
    exact h.first ⟨0, d⟩ (Nat.lt_trans hd h.within) (.inr ⟨rfl, hd⟩)
  | succ n ih =>
    obtain ⟨j, hj⟩ : ∃ j, run k line = .stays j :=
      exists_stays_of_never_zero fun d hd => h.first ⟨0, d⟩ hd (.inl (Nat.succ_pos n))
    cases rest with
    | nil => exact absurd h.within (Nat.not_lt_zero c)
    | cons next later =>
      have hlater : FirstZero (j + 1) (next :: later) ⟨n, c⟩ := by
        refine ⟨h.within, ?_, fun ⟨m, d⟩ hin hbefore => ?_⟩
        · rw [← depthBehind_succ hj]
          exact h.zero
        · rw [← depthBehind_succ hj]
          exact h.first ⟨m + 1, d⟩ hin (Position.before_succ.2 hbefore)
      rw [takeFrom_cons hj, ih hlater]
      rfl

/-- **A block in which the depth is never zero takes all lines.** -/
theorem takeFrom_of_never_zero
    (h : ∀ p : Position, p.In (line :: rest) → depthBehind (k + 1) (line :: rest) p ≠ 0) :
    takeFrom k line rest = ⟨line :: rest, rest.length, false⟩ := by
  induction rest generalizing k line with
  | nil =>
    obtain ⟨j, hj⟩ : ∃ j, run k line = .stays j :=
      exists_stays_of_never_zero fun d hd => h ⟨0, d⟩ hd
    exact takeFrom_nil hj
  | cons next later ih =>
    obtain ⟨j, hj⟩ : ∃ j, run k line = .stays j :=
      exists_stays_of_never_zero fun d hd => h ⟨0, d⟩ hd
    have hlater : ∀ p : Position, p.In (next :: later) →
        depthBehind (j + 1) (next :: later) p ≠ 0 := by
      rintro ⟨n, c⟩ hin
      rw [← depthBehind_succ hj]
      exact h ⟨n + 1, c⟩ hin
    rw [takeFrom_cons hj, ih hlater]
    rfl

/-- The lines of a closed block close all blocks that start in them. -/
theorem run_body_of_closed (h : (takeFrom k line rest).closed = true) :
    run k (takeFrom k line rest).body.flatten = .stays 0 := by
  induction rest generalizing k line with
  | nil =>
    cases hrun : run k line with
    | closes before =>
      rw [takeFrom_closes hrun, List.flatten_singleton]
      exact stays_zero_of_closes hrun
    | stays j =>
      rw [takeFrom_nil hrun] at h
      cases h
  | cons next later ih =>
    cases hrun : run k line with
    | closes before =>
      rw [takeFrom_closes hrun, List.flatten_singleton]
      exact stays_zero_of_closes hrun
    | stays j =>
      rw [takeFrom_cons hrun] at h ⊢
      change run k (line ++ (takeFrom j next later).body.flatten) = _
      rw [run_append_of_stays hrun, ih h]
      rfl

/-- A block is closed when the depth is zero anywhere in its lines. -/
theorem closed_takeFrom_iff :
    (takeFrom k line rest).closed = true ↔ ∃ p, FirstZero (k + 1) (line :: rest) p := by
  constructor
  · intro hclosed
    by_contra hnone
    rw [takeFrom_of_never_zero fun p hp hzero => hnone (exists_firstZero hp hzero)] at hclosed
    cases hclosed
  · rintro ⟨p, hp⟩
    rw [takeFrom_of_firstZero hp]

/--
**A block ends at the brace that balances the one in front of it.**

Reading its lines character by character, with a depth that starts at one, the block is closed exactly
when there is a first position behind which the depth is zero. It then has the lines before that
position whole and the line of the position up to it, in which braces are balanced, and has consumed
as many lines as lie between. If the depth is never zero the block is not closed and has all lines.
-/
theorem take_balancing (first : Text) (rest : List Text) :
    ((take first rest).closed = true ↔ ∃ p, FirstZero 1 (first :: rest) p)
      ∧ (∀ p, FirstZero 1 (first :: rest) p →
          take first rest = ⟨p.front (first :: rest), p.line, true⟩
            ∧ Balanced (p.front (first :: rest)).flatten)
      ∧ ((∀ p : Position, p.In (first :: rest) → depthBehind 1 (first :: rest) p ≠ 0) →
          take first rest = ⟨first :: rest, rest.length, false⟩)
      ∧ (take first rest).consumed ≤ rest.length := by
  refine ⟨closed_takeFrom_iff, fun p hp => ?_, takeFrom_of_never_zero,
    consumed_takeFrom_le 0 first rest⟩
  have htake : takeFrom 0 first rest = ⟨p.front (first :: rest), p.line, true⟩ :=
    takeFrom_of_firstZero hp
  refine ⟨htake, ?_⟩
  have hbody : run 0 (takeFrom 0 first rest).body.flatten = .stays 0 :=
    run_body_of_closed (by rw [htake])
  rw [htake] at hbody
  exact balanced_of_stays hbody

/-- Lines with an inner block, and text behind the brace that balances. -/
def innerLines : List Text := ["b \x7b c \x7d".toList, "\x7d d \x7d".toList, "e".toList]

/-- The inner block is passed over, and with another brace open no brace balances. -/
theorem take_balancing_innerLines :
    (∃ p, FirstZero 1 ("a".toList :: innerLines) p
        ∧ take "a".toList innerLines = ⟨p.front ("a".toList :: innerLines), p.line, true⟩)
      ∧ take "a".toList innerLines = ⟨["a".toList, "b \x7b c \x7d".toList, []], 2, true⟩
      ∧ take "a \x7b\x7b".toList innerLines = ⟨"a \x7b\x7b".toList :: innerLines, 3, false⟩ := by
  have hclosed : (take "a".toList innerLines).closed = true := by decide
  have hopen : (take "a \x7b\x7b".toList innerLines).closed = false := by decide
  obtain ⟨p, hp⟩ := (take_balancing _ _).1.1 hclosed
  refine ⟨⟨p, hp, ((take_balancing _ _).2.1 p hp).1⟩, by decide,
    (take_balancing _ _).2.2.1 fun q hq hzero => ?_⟩
  rw [(take_balancing _ _).1.2 (exists_firstZero hq hzero)] at hopen
  cases hopen

end GqlScan.Block
