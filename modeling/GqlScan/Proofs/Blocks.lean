import Mathlib.Data.List.TakeWhile
import GqlScan.Selection.Block

/-!
# Blocks line by line

A line that does not close the block it stands in is a line of the body, and the block goes on
behind it with the depth that the line leaves.

Main statement: `takeFrom_cons`.
-/

namespace GqlScan.Block

open Text

/-- A run with more text in front. -/
def Run.behind (t : Text) : Run → Run
  | .closes before => .closes (t ++ before)
  | .stays inner => .stays inner

theorem Run.behind_cons (c : Char) (t : Text) (r : Run) :
    r.behind (c :: t) = (r.behind t).cons c := by
  cases r <;> rfl

theorem Run.cons_eq_stays {c : Char} {r : Run} {k : Nat} (h : r.cons c = .stays k) :
    r = .stays k := by
  cases r with
  | closes _ => cases h
  | stays _ => exact h

theorem run_cons (k : Nat) (c : Char) (rest : Text) :
    run k (c :: rest)
      = if c = '{' then (run (k + 1) rest).cons c
        else if c = '}' then
          match k with
          | 0 => .closes []
          | k + 1 => (run k rest).cons c
        else (run k rest).cons c :=
  run.eq_def k (c :: rest)

/-- The run of a text that leaves the block open goes on with the text behind. -/
theorem run_append_of_stays {k j : Nat} {t : Text} (h : run k t = .stays j) (u : Text) :
    run k (t ++ u) = (run j u).behind t := by
  induction t generalizing k with
  | nil =>
    cases h
    rw [List.nil_append]
    cases run j u <;> rfl
  | cons c t ih =>
    rw [List.cons_append, run_cons, Run.behind_cons]
    rw [run_cons] at h
    by_cases hopen : c = '{'
    · rw [if_pos hopen] at h ⊢
      rw [ih (Run.cons_eq_stays h)]
    · rw [if_neg hopen] at h ⊢
      by_cases hclose : c = '}'
      · rw [if_pos hclose] at h ⊢
        cases k with
        | zero => cases h
        | succ k => exact congrArg (Run.cons c) (ih (Run.cons_eq_stays h))
      · rw [if_neg hclose] at h ⊢
        rw [ih (Run.cons_eq_stays h)]

/-- What stands behind the brace that closes a block does not matter. -/
theorem run_append_of_closes {k : Nat} {t before : Text} (h : run k t = .closes before)
    (u : Text) : run k (t ++ u) = .closes before := by
  induction t generalizing k before with
  | nil => cases h
  | cons c t ih =>
    rw [List.cons_append, run_cons]
    rw [run_cons] at h
    by_cases hopen : c = '{'
    · rw [if_pos hopen] at h ⊢
      obtain ⟨b, hb, rfl⟩ := Run.cons_eq_closes h
      rw [ih hb]
      rfl
    · rw [if_neg hopen] at h ⊢
      by_cases hclose : c = '}'
      · rw [if_pos hclose] at h ⊢
        cases k with
        | zero => exact h
        | succ k =>
          obtain ⟨b, hb, rfl⟩ := Run.cons_eq_closes h
          exact congrArg (Run.cons c) (ih hb)
      · rw [if_neg hclose] at h ⊢
        obtain ⟨b, hb, rfl⟩ := Run.cons_eq_closes h
        rw [ih hb]
        rfl

/-- A text without braces leaves a block as it is. -/
theorem run_of_no_braces {t : Text} (hopen : '{' ∉ t) (hclose : '}' ∉ t) (k : Nat) :
    run k t = .stays k := by
  induction t with
  | nil => rfl
  | cons c t ih =>
    have hco : c ≠ '{' := fun e => hopen (e ▸ List.mem_cons_self)
    have hcc : c ≠ '}' := fun e => hclose (e ▸ List.mem_cons_self)
    rw [run_cons, if_neg hco, if_neg hcc, ih (fun hm => hopen (List.mem_cons_of_mem c hm))
      fun hm => hclose (List.mem_cons_of_mem c hm)]
    rfl

/-- Without an opening brace no depth is gained. -/
theorem stays_of_no_opening {k j : Nat} {t : Text} (hno : '{' ∉ t)
    (h : run k t = .stays j) : j ≤ k := by
  induction t generalizing k with
  | nil =>
    cases h
    exact Nat.le_refl _
  | cons c t ih =>
    have hc : c ≠ '{' := fun e => hno (e ▸ List.mem_cons_self)
    have hrest : '{' ∉ t := fun hm => hno (List.mem_cons_of_mem c hm)
    rw [run_cons, if_neg hc] at h
    by_cases hclose : c = '}'
    · rw [if_pos hclose] at h
      cases k with
      | zero => cases h
      | succ k =>
        have := ih hrest (Run.cons_eq_stays h)
        omega
    · rw [if_neg hclose] at h
      exact ih hrest (Run.cons_eq_stays h)

/-- Without an opening brace the block around a text closes at the first closing one. -/
theorem no_closing_of_stays {t : Text} (hno : '{' ∉ t) (h : run 0 t = .stays 0) : '}' ∉ t := by
  induction t with
  | nil => exact List.not_mem_nil
  | cons c t ih =>
    have hc : c ≠ '{' := fun e => hno (e ▸ List.mem_cons_self)
    rw [run_cons, if_neg hc] at h
    by_cases hclose : c = '}'
    · rw [if_pos hclose] at h
      cases h
    · rw [if_neg hclose] at h
      have hrest := ih (fun hm => hno (List.mem_cons_of_mem c hm)) (Run.cons_eq_stays h)
      intro hm
      rcases List.mem_cons.1 hm with rfl | hm
      · exact hclose rfl
      · exact hrest hm

/-- One more open block stays open where nothing closes. -/
theorem run_succ_of_stays {k j : Nat} {t : Text} (h : run k t = .stays j) :
    run (k + 1) t = .stays (j + 1) := by
  induction t generalizing k with
  | nil =>
    cases h
    rfl
  | cons c t ih =>
    rw [run_cons] at h ⊢
    by_cases hopen : c = '{'
    · rw [if_pos hopen] at h ⊢
      rw [ih (Run.cons_eq_stays h)]
      rfl
    · rw [if_neg hopen] at h ⊢
      by_cases hclose : c = '}'
      · rw [if_pos hclose] at h ⊢
        cases k with
        | zero => cases h
        | succ k => exact congrArg (Run.cons c) (ih (Run.cons_eq_stays h))
      · rw [if_neg hclose] at h ⊢
        rw [ih (Run.cons_eq_stays h)]
        rfl

/-- In a balanced text the block behind the first brace closes. -/
theorem run_after_of_balanced {t : Text} (hmem : '{' ∈ t) (h : run 0 t = .stays 0) :
    ∃ before, run 0 (Text.after '{' t) = .closes before := by
  have happ := before_append_after hmem
  have hno : '{' ∉ Text.before '{' t := by
    intro hm
    have := List.mem_takeWhile_imp hm
    revert this
    decide
  -- nothing opens in front of the first brace, so the block starts at depth zero
  cases hb : run 0 (Text.before '{' t) with
  | closes u =>
    rw [← happ, run_append_of_closes hb] at h
    cases h
  | stays j =>
    have hj : j = 0 := by
      have := stays_of_no_opening hno hb
      omega
    subst hj
    rw [← happ, run_append_of_stays hb, run_cons, if_pos rfl] at h
    cases ha : run 0 (Text.after '{' t) with
    | closes u => exact ⟨u, rfl⟩
    | stays i =>
      rw [run_succ_of_stays ha] at h
      cases h

/-- A block with more lines in front. -/
def behind (lines : List Text) (b : Block) : Block :=
  ⟨lines ++ b.body, b.consumed + lines.length, b.closed⟩

theorem behind_behind (xs ys : List Text) (b : Block) :
    (b.behind ys).behind xs = b.behind (xs ++ ys) := by
  unfold behind
  rw [List.append_assoc, List.length_append, Nat.add_assoc, Nat.add_comm ys.length]

/-- **A line that closes nothing stands in front of the rest of its block.** -/
theorem takeFrom_cons {k j : Nat} {line : Text} (h : run k line = .stays j) (next : Text)
    (later : List Text) :
    takeFrom k line (next :: later) = (takeFrom j next later).behind [line] := by
  rw [takeFrom.eq_def, h]
  rfl

theorem takeFrom_nil {k j : Nat} {line : Text} (h : run k line = .stays j) :
    takeFrom k line [] = ⟨[line], 0, false⟩ := by
  rw [takeFrom.eq_def, h]

theorem takeFrom_closes {k : Nat} {line before : Text} (h : run k line = .closes before)
    (rest : List Text) : takeFrom k line rest = ⟨[before], 0, true⟩ := by
  rw [takeFrom.eq_def, h]

end GqlScan.Block
