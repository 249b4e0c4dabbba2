import Mathlib.Logic.Function.Basic
import GqlScan.Text.Basic

/-!
# Patterns

A pattern says what a line looks like from left to right, and which parts of it are wanted: these
are groups, and they have numbers. A part can be left out where the pattern says so, or be repeated.
A line is matched by trial: what is optional is taken before it is left out, and of several numbers
of rounds the largest is tried first. The first way that reads the whole line counts.

Nothing but the order of trials says which of several ways wins. Where a text can be read in one way
only the order does not matter, and a pattern can be seen as a way of writing values: it matches what
is written for a value, and what its groups take is known from the value.

Main statements: `mem_ways`, that trials find all ways, and `Writes.groups?_eq_map`.
-/

namespace GqlScan

/-- What a line looks like. -/
inductive Pattern where
  /-- one character of a class -/
  | one (p : Char → Bool)
  | both (first second : Pattern)
  | optional (inner : Pattern)
  /-- any number of rounds -/
  | many (inner : Pattern)
  /-- a part that is wanted -/
  | group (n : Nat) (inner : Pattern)

namespace Pattern

instance : Append Pattern := ⟨both⟩

/-- One given character. -/
def letter (c : Char) : Pattern := one (· == c)

/-- One round or more. -/
def repeated (inner : Pattern) : Pattern := inner ++ many inner

/-! ## What a pattern matches -/

/-- The numbers of groups and the texts they take, in the order in which they end. -/
abbrev Groups := List (Nat × Text)

/-- A pattern matches a text as a whole, and its groups take these parts of it. -/
inductive Matches : Pattern → Text → Groups → Prop
  | one {p : Char → Bool} {c : Char} : p c = true → Matches (.one p) [c] []
  | both {a b : Pattern} {t u : Text} {g h : Groups} :
      Matches a t g → Matches b u h → Matches (.both a b) (t ++ u) (g ++ h)
  | leave {a : Pattern} : Matches (.optional a) [] []
  | take {a : Pattern} {t : Text} {g : Groups} : Matches a t g → Matches (.optional a) t g
  | stop {a : Pattern} : Matches (.many a) [] []
  | round {a : Pattern} {t u : Text} {g h : Groups} :
      t ≠ [] → Matches a t g → Matches (.many a) u h → Matches (.many a) (t ++ u) (g ++ h)
  | group {n : Nat} {a : Pattern} {t : Text} {g : Groups} :
      Matches a t g → Matches (.group n a) t (g ++ [(n, t)])

/-! ## Trials -/

/-- One way to match the front of a text. -/
structure Way where
  groups : Groups
  /-- the text behind what is matched -/
  rest : Text
  deriving DecidableEq, Repr

/-- The ways to go on from one way. -/
def Way.next (w : Way) (later : Text → List Way) : List Way :=
  (later w.rest).map fun v => ⟨w.groups ++ v.groups, v.rest⟩

/-- All ways to repeat a step for a number of rounds at most. A round takes something. -/
def rounds (step : Text → List Way) : Nat → Text → List Way
  | 0, t => [⟨[], t⟩]
  | n + 1, t =>
    ((step t).filter fun w => w.rest.length < t.length).flatMap (·.next (rounds step n))
      ++ [⟨[], t⟩]

/-- All ways to match the front of a text, in the order in which they are tried. -/
def ways : Pattern → Text → List Way
  | .one _, [] => []
  | .one p, c :: t => if p c then [⟨[], t⟩] else []
  | .both a b, t => (a.ways t).flatMap (·.next b.ways)
  | .optional a, t => a.ways t ++ [⟨[], t⟩]
  -- there are no more rounds than there are characters
  | .many a, t => rounds a.ways t.length t
  | .group n a, t =>
    (a.ways t).map fun w => ⟨w.groups ++ [(n, t.take (t.length - w.rest.length))], w.rest⟩

/-- Match a whole line: what the groups take in the first way that leaves nothing. -/
def groups? (p : Pattern) (line : Text) : Option Groups :=
  ((p.ways line).find? (·.rest.isEmpty)).map Way.groups

/-! ## Trials find what is matched -/

theorem Way.mem_next {w : Way} {later : Text → List Way} {g : Groups} {v : Text} :
    ⟨g, v⟩ ∈ w.next later ↔ ∃ h, ⟨h, v⟩ ∈ later w.rest ∧ g = w.groups ++ h := by
  unfold next
  rw [List.mem_map]
  constructor
  · rintro ⟨⟨h, rest⟩, hmem, heq⟩
    cases heq
    exact ⟨h, hmem, rfl⟩
  · rintro ⟨h, hmem, rfl⟩
    exact ⟨⟨h, v⟩, hmem, rfl⟩

section

variable {a b p : Pattern} {t u v : Text} {g h : Groups}

theorem matches_both_iff :
    Matches (both a b) t g
      ↔ ∃ t₁ t₂ g₁ g₂, t = t₁ ++ t₂ ∧ g = g₁ ++ g₂ ∧ Matches a t₁ g₁ ∧ Matches b t₂ g₂ := by
  constructor
  · intro h
    cases h with
    | both ha hb => exact ⟨_, _, _, _, rfl, rfl, ha, hb⟩
  · rintro ⟨t₁, t₂, g₁, g₂, rfl, rfl, ha, hb⟩
    exact .both ha hb

theorem matches_many_iff :
    Matches (many a) t g
      ↔ t = [] ∧ g = []
        ∨ ∃ t₁ t₂ g₁ g₂, t = t₁ ++ t₂ ∧ g = g₁ ++ g₂ ∧ t₁ ≠ [] ∧ Matches a t₁ g₁
          ∧ Matches (many a) t₂ g₂ := by
  constructor
  · intro h
    cases h with
    | stop => exact .inl ⟨rfl, rfl⟩
    | round hne ha hlater => exact .inr ⟨_, _, _, _, rfl, rfl, hne, ha, hlater⟩
  · rintro (⟨rfl, rfl⟩ | ⟨t₁, t₂, g₁, g₂, rfl, rfl, hne, ha, hlater⟩)
    · exact .stop
    · exact .round hne ha hlater

/-- A function that finds the ways of a pattern, and no others. -/
def Finds (find : Text → List Way) (p : Pattern) : Prop :=
  ∀ t g v, ⟨g, v⟩ ∈ find t ↔ ∃ u, t = u ++ v ∧ Matches p u g

theorem mem_rounds {step : Text → List Way} (hstep : Finds step a) {n : Nat}
    (hn : t.length ≤ n) :
    ⟨g, v⟩ ∈ rounds step n t ↔ ∃ u, t = u ++ v ∧ Matches (many a) u g := by
  induction n generalizing t g with
  | zero =>
    have ht : t = [] := List.length_eq_zero_iff.1 (Nat.le_zero.1 hn)
    subst ht
    rw [rounds, List.mem_singleton, Way.mk.injEq]
    constructor
    · rintro ⟨rfl, rfl⟩
      exact ⟨[], rfl, .stop⟩
    · rintro ⟨u, hu, hmatch⟩
      obtain ⟨rfl, rfl⟩ := List.append_eq_nil_iff.1 hu.symm
      obtain ⟨-, rfl⟩ | ⟨t₁, t₂, g₁, g₂, ht, -, hne, -⟩ := matches_many_iff.1 hmatch
      · exact ⟨rfl, rfl⟩
      · exact absurd (List.append_eq_nil_iff.1 ht.symm).1 hne
  | succ n ih =>
    rw [rounds, List.mem_append, List.mem_singleton, Way.mk.injEq, List.mem_flatMap]
    constructor
    · rintro (⟨⟨g₁, rest⟩, hmem, hnext⟩ | ⟨rfl, rfl⟩)
      · obtain ⟨hfirst, hshort⟩ := List.mem_filter.1 hmem
        have hlt : rest.length < t.length := of_decide_eq_true hshort
        obtain ⟨g₂, hlater, rfl⟩ := Way.mem_next.1 hnext
        obtain ⟨u₁, rfl, hmatch⟩ := (hstep t g₁ rest).1 hfirst
        obtain ⟨u₂, rfl, hmany⟩ := (ih (Nat.le_of_lt_succ (Nat.lt_of_lt_of_le hlt hn))).1 hlater
        refine ⟨u₁ ++ u₂, (List.append_assoc ..).symm, .round ?_ hmatch hmany⟩
        rintro rfl
        exact Nat.lt_irrefl _ hlt
      · exact ⟨[], rfl, .stop⟩
    · rintro ⟨u, rfl, hmatch⟩
      obtain ⟨rfl, rfl⟩ | ⟨t₁, t₂, g₁, g₂, rfl, rfl, hne, ha, hlater⟩ := matches_many_iff.1 hmatch
      · exact .inr ⟨rfl, rfl⟩
      · have hpos := List.length_pos_iff.2 hne
        simp only [List.length_append] at hn
        refine .inl ⟨⟨g₁, t₂ ++ v⟩, List.mem_filter.2 ⟨?_, ?_⟩, ?_⟩
        · exact (hstep _ _ _).2 ⟨t₁, List.append_assoc .., ha⟩
        · refine decide_eq_true ?_
          simp only [List.length_append]
          omega
        · refine Way.mem_next.2 ⟨g₂, (ih ?_).2 ⟨t₂, rfl, hlater⟩, rfl⟩
          rw [List.length_append]
          omega

/-- **Trials find all ways to match a front of a text, and no others.** -/
theorem mem_ways (p : Pattern) : Finds p.ways p := by
  induction p with
  | one p =>
    intro t g v
    cases t with
    | nil =>
      refine iff_of_false List.not_mem_nil ?_
      rintro ⟨u, hu, hmatch⟩
      rw [(List.append_eq_nil_iff.1 hu.symm).1] at hmatch
      cases hmatch
    | cons c t =>
      rw [ways]
      constructor
      · intro hmem
        split at hmem
        · rename_i hc
          cases List.mem_singleton.1 hmem
          exact ⟨[c], rfl, .one hc⟩
        · cases hmem
      · rintro ⟨u, hu, hmatch⟩
        cases hmatch with
        | one hc =>
          cases hu
          rw [if_pos hc]
          exact List.mem_singleton_self _
  | both a b iha ihb =>
    intro t g v
    rw [ways, List.mem_flatMap]
    constructor
    · rintro ⟨⟨g₁, rest⟩, hfirst, hnext⟩
      obtain ⟨g₂, hlater, rfl⟩ := Way.mem_next.1 hnext
      obtain ⟨u₁, rfl, ha⟩ := (iha _ _ _).1 hfirst
      obtain ⟨u₂, rfl, hb⟩ := (ihb _ _ _).1 hlater
      exact ⟨u₁ ++ u₂, (List.append_assoc ..).symm, .both ha hb⟩
    · rintro ⟨u, rfl, hmatch⟩
      obtain ⟨t₁, t₂, g₁, g₂, rfl, rfl, ha, hb⟩ := matches_both_iff.1 hmatch
      exact ⟨⟨g₁, t₂ ++ v⟩, (iha _ _ _).2 ⟨t₁, List.append_assoc .., ha⟩,
        Way.mem_next.2 ⟨g₂, (ihb _ _ _).2 ⟨t₂, rfl, hb⟩, rfl⟩⟩
  | optional a ih =>
    intro t g v
    rw [ways, List.mem_append, List.mem_singleton, Way.mk.injEq, ih]
    constructor
    · rintro (⟨u, rfl, hmatch⟩ | ⟨rfl, rfl⟩)
      · exact ⟨u, rfl, .take hmatch⟩
      · exact ⟨[], rfl, .leave⟩
    · rintro ⟨u, rfl, hmatch⟩
      cases hmatch with
      | leave => exact .inr ⟨rfl, rfl⟩
      | take hmatch => exact .inl ⟨u, rfl, hmatch⟩
  | many a ih =>
    intro t g v
    exact mem_rounds ih (Nat.le_refl _)
  | group n a ih =>
    intro t g v
    have htake : ∀ u : Text, (u ++ v).take ((u ++ v).length - v.length) = u := by
      intro u
      rw [List.length_append, Nat.add_sub_cancel, List.take_left]
    rw [ways, List.mem_map]
    constructor
    · rintro ⟨⟨g₁, rest⟩, hmem, heq⟩
      obtain ⟨u, rfl, hmatch⟩ := (ih _ _ _).1 hmem
      cases heq
      rw [htake]
      exact ⟨u, rfl, .group hmatch⟩
    · rintro ⟨u, rfl, hmatch⟩
      cases hmatch with
      | @group _ _ _ g₁ hmatch =>
        refine ⟨⟨g₁, v⟩, (ih _ _ _).2 ⟨u, rfl, hmatch⟩, ?_⟩
        rw [htake]

theorem groups?_eq_some_imp (h : p.groups? t = some g) : Matches p t g := by
  obtain ⟨⟨g₁, rest⟩, hfind, rfl⟩ := Option.map_eq_some_iff.1 h
  have hempty := List.find?_some (p := fun w : Way => w.rest.isEmpty) hfind
  obtain ⟨u, rfl, hmatch⟩ := (mem_ways p _ _ _).1 (List.mem_of_find?_eq_some hfind)
  obtain rfl : rest = [] := List.isEmpty_iff.1 hempty
  rw [List.append_nil]
  exact hmatch

theorem groups?_eq_none_iff : p.groups? t = none ↔ ∀ g, ¬ Matches p t g := by
  unfold groups?
  rw [Option.map_eq_none_iff, List.find?_eq_none]
  constructor
  · intro h g hmatch
    exact h ⟨g, []⟩ ((mem_ways p _ _ _).2 ⟨t, (List.append_nil t).symm, hmatch⟩) rfl
  · rintro h ⟨g, rest⟩ hmem hrest
    obtain ⟨u, rfl, hmatch⟩ := (mem_ways p _ _ _).1 hmem
    obtain rfl : rest = [] := List.isEmpty_iff.1 hrest
    rw [List.append_nil] at h
    exact h g hmatch

end

/-! ## Patterns as a way of writing -/

section

variable {α β : Type} {p q : Pattern} {print : α → Text} {groups : α → Groups}
  {print' : β → Text} {groups' : β → Groups}

/-- A pattern matches exactly the texts that are written for some values. -/
def Writes (p : Pattern) (print : α → Text) (groups : α → Groups) : Prop :=
  ∀ t g, Matches p t g ↔ ∃ x, print x = t ∧ groups x = g

namespace Writes

/-- The same texts are written for other values if these stand for all the values. -/
theorem of_surjective (hp : p.Writes print groups) (f : α → β) (hf : Function.Surjective f)
    (hprint : ∀ x, print' (f x) = print x) (hgroups : ∀ x, groups' (f x) = groups x) :
    p.Writes print' groups' := by
  intro t g
  rw [hp, hf.exists]
  simp only [hprint, hgroups]

theorem one (p : Char → Bool) :
    (Pattern.one p).Writes (fun c : { c // p c = true } => [c.1]) (fun _ => []) := by
  intro t g
  constructor
  · intro h
    cases h with
    | one hc => exact ⟨⟨_, hc⟩, rfl, rfl⟩
  · rintro ⟨⟨c, hc⟩, rfl, rfl⟩
    exact .one hc

theorem letter (c : Char) :
    (Pattern.letter c).Writes (fun _ : Unit => [c]) (fun _ => []) := by
  refine (one (· == c)).of_surjective (fun _ => ()) (fun _ => ⟨⟨c, beq_self_eq_true c⟩, rfl⟩) ?_
    (fun _ => rfl)
  rintro ⟨d, hd⟩
  exact congrArg ([·]) (beq_iff_eq.1 hd).symm

theorem append (hp : p.Writes print groups) (hq : q.Writes print' groups') :
    (p ++ q).Writes (fun x : α × β => print x.1 ++ print' x.2)
      (fun x => groups x.1 ++ groups' x.2) := by
  intro t g
  refine matches_both_iff.trans ⟨?_, ?_⟩
  · rintro ⟨t₁, t₂, g₁, g₂, rfl, rfl, h₁, h₂⟩
    obtain ⟨x, rfl, rfl⟩ := (hp _ _).1 h₁
    obtain ⟨y, rfl, rfl⟩ := (hq _ _).1 h₂
    exact ⟨(x, y), rfl, rfl⟩
  · rintro ⟨⟨x, y⟩, rfl, rfl⟩
    exact ⟨_, _, _, _, rfl, rfl, (hp _ _).2 ⟨x, rfl, rfl⟩, (hq _ _).2 ⟨y, rfl, rfl⟩⟩

theorem optional (hp : p.Writes print groups) :
    (Pattern.optional p).Writes (fun x? : Option α => x?.elim [] print)
      (fun x? => x?.elim [] groups) := by
  intro t g
  constructor
  · intro h
    cases h with
    | leave => exact ⟨none, rfl, rfl⟩
    | take h =>
      obtain ⟨x, rfl, rfl⟩ := (hp _ _).1 h
      exact ⟨some x, rfl, rfl⟩
  · rintro ⟨x?, rfl, rfl⟩
    cases x? with
    | none => exact .leave
    | some x => exact .take ((hp _ _).2 ⟨x, rfl, rfl⟩)

theorem many (hp : p.Writes print groups) (hne : ∀ x, print x ≠ []) :
    (Pattern.many p).Writes (fun xs : List α => xs.flatMap print)
      (fun xs => xs.flatMap groups) := by
  intro t g
  constructor
  · intro h
    generalize hmany : Pattern.many p = m at h
    induction h with
    | stop => exact ⟨[], rfl, rfl⟩
    | round _ hround _ _ ih =>
      cases hmany
      obtain ⟨x, rfl, rfl⟩ := (hp _ _).1 hround
      obtain ⟨xs, rfl, rfl⟩ := ih rfl
      exact ⟨x :: xs, rfl, rfl⟩
    | _ => cases hmany
  · rintro ⟨xs, rfl, rfl⟩
    induction xs with
    | nil => exact .stop
    | cons x xs ih => exact .round (hne x) ((hp _ _).2 ⟨x, rfl, rfl⟩) ih

theorem group (n : Nat) (hp : p.Writes print groups) :
    (Pattern.group n p).Writes print (fun x => groups x ++ [(n, print x)]) := by
  intro t g
  constructor
  · intro h
    cases h with
    | group h =>
      obtain ⟨x, rfl, rfl⟩ := (hp _ _).1 h
      exact ⟨x, rfl, rfl⟩
  · rintro ⟨x, rfl, rfl⟩
    exact .group ((hp _ _).2 ⟨x, rfl, rfl⟩)

theorem many_one (p : Char → Bool) :
    (Pattern.many (.one p)).Writes (fun t : { t : Text // ∀ c ∈ t, p c = true } => t.1)
      (fun _ => []) := by
  refine (many (one p) fun _ => List.cons_ne_nil _ _).of_surjective
    (fun cs => ⟨cs.map (·.1), fun c hc => ?_⟩) ?_ (fun cs => ?_) (fun cs => ?_)
  · obtain ⟨d, -, rfl⟩ := List.mem_map.1 hc
    exact d.2
  · rintro ⟨t, ht⟩
    exact ⟨t.attach.map fun c => ⟨c.1, ht c.1 c.2⟩, by simp⟩
  · exact List.map_eq_flatMap
  · simp

theorem many_except (c : Char) :
    (Pattern.many (.one (· != c))).Writes (fun t : { t : Text // c ∉ t } => t.1) (fun _ => []) := by
  refine (many_one (· != c)).of_surjective
    (fun t => ⟨t.1, fun hm => bne_iff_ne.1 (t.2 c hm) rfl⟩) ?_ (fun _ => rfl) (fun _ => rfl)
  rintro ⟨t, ht⟩
  exact ⟨⟨t, fun d hd => bne_iff_ne.2 fun e => ht (e ▸ hd)⟩, rfl⟩

theorem repeated_one (p : Char → Bool) :
    (Pattern.repeated (.one p)).Writes
      (fun t : { t : Text // t ≠ [] ∧ ∀ c ∈ t, p c = true } => t.1) (fun _ => []) := by
  refine ((one p).append (many_one p)).of_surjective
    (fun x => ⟨x.1.1 :: x.2.1, List.cons_ne_nil _ _, List.forall_mem_cons.2 ⟨x.1.2, x.2.2⟩⟩) ?_
    (fun _ => rfl) (fun _ => rfl)
  rintro ⟨t, hne, ht⟩
  obtain ⟨c, t, rfl⟩ := List.exists_cons_of_ne_nil hne
  obtain ⟨hc, ht⟩ := List.forall_mem_cons.1 ht
  exact ⟨(⟨c, hc⟩, ⟨t, ht⟩), rfl⟩

/-- **A pattern takes what is written**, if this is what a reader of the line gives. -/
theorem groups?_eq_map {γ : Type} {parts : α → γ} {toGroups : γ → Groups} {line : Text}
    {read? : Option γ} (hp : p.Writes print (fun x => toGroups (parts x)))
    (hread : ∀ found, read? = some found ↔ ∃ x, print x = line ∧ parts x = found) :
    p.groups? line = read?.map toGroups := by
  cases hfound : p.groups? line with
  | none =>
    cases hline : read? with
    | none => rfl
    | some found =>
      obtain ⟨x, hx, -⟩ := (hread found).1 hline
      exact absurd ((hp line _).2 ⟨x, hx, rfl⟩) (groups?_eq_none_iff.1 hfound _)
  | some g =>
    -- of all ways to match the line, the first one is written for some value
    obtain ⟨x, hx, rfl⟩ := (hp line g).1 (groups?_eq_some_imp hfound)
    rw [(hread (parts x)).2 ⟨x, hx, rfl⟩, Option.map_some]

end Writes

end

end Pattern

end GqlScan
