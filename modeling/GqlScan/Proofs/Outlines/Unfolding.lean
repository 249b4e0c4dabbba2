import Mathlib.Data.List.Perm.Subperm
import Mathlib.Logic.Relation
import GqlScan.Outline

/-!
# Outlines that end

The outline of an operation unfolds its fields along the registered types: under a field stand the
fields that are registered under its type, and so on. One type leads to another when a field
registered under the first has the second as its type. Types that are met twice are unfolded twice;
only a type that leads back to itself has no end.

The outline is given with a bound on its depth, the number of registered types. The bound is no
restriction: on a way down that is longer some type is met twice, so the way never ends.

Main statements: `Unfolds.ofOperation`, that an unfolding that ends is what is given, and
`ofOperation_eq_endless_iff`, when there is none.
-/

namespace GqlScan

open Text

/-! ## Registered names -/

namespace NestedTypes

theorem mem_map_fst_of_lookup {name : Text} {fields : List Field}
    {entries : List (Text × List Field)} (h : entries.lookup name = some fields) :
    name ∈ entries.map Prod.fst := by
  induction entries with
  | nil => cases h
  | cons entry rest ih =>
    obtain ⟨k, fs⟩ := entry
    rw [List.lookup_cons] at h
    rw [List.map_cons, List.mem_cons]
    cases hk : name == k with
    | true => exact Or.inl (beq_iff_eq.1 hk)
    | false =>
      rw [hk] at h
      exact Or.inr (ih h)

/-- Only registered names have fields. -/
theorem mem_names_of_get? {types : NestedTypes} {name : Text} {fields : List Field}
    (h : types.get? name = some fields) : name ∈ types.names :=
  mem_map_fst_of_lookup h

/-- Distinct registered names are no more than there are names. -/
theorem length_le_size {types : NestedTypes} {names : List Text} (hnodup : names.Nodup)
    (hmem : ∀ t ∈ names, t ∈ types.names) : names.length ≤ types.size := by
  have hle := (hnodup.subperm hmem).length_le
  unfold NestedTypes.names at hle
  rwa [List.length_map] at hle

end NestedTypes

namespace Outline

variable {types : NestedTypes}

/-! ## The graph of registered types -/

/-- One registered type leads to another when a field registered under it has the other as its
type. -/
def Leads (types : NestedTypes) (t u : Text) : Prop :=
  ∃ fields, types.get? t = some fields ∧ (∃ f ∈ fields, f.type = u) ∧ u ∈ types.names

/-- From the types of some fields there is a way to a type that leads back to itself. -/
def Endless (types : NestedTypes) (fields : List Field) : Prop :=
  ∃ f ∈ fields, ∃ t, Relation.ReflTransGen (Leads types) f.type t
    ∧ Relation.TransGen (Leads types) t t

theorem get?_of_mem_below {f g : Field} (h : g ∈ below types f) :
    types.get? f.type = some (below types f) := by
  unfold below at h ⊢
  cases hget : types.get? f.type with
  | none =>
    rw [hget] at h
    cases h
  | some fields => rfl

/-- What stands under a field depends on its type alone. -/
theorem below_congr {f g : Field} (h : f.type = g.type) : below types f = below types g := by
  unfold below
  rw [h]

theorem leads_of_mem_below {f g : Field} (h : g ∈ below types f) (hg : g.type ∈ types.names) :
    Leads types f.type g.type :=
  ⟨below types f, get?_of_mem_below h, ⟨g, h, rfl⟩, hg⟩

theorem exists_mem_below_of_leads {f : Field} {u : Text} (h : Leads types f.type u) :
    ∃ g ∈ below types f, g.type = u := by
  obtain ⟨fields, hget, ⟨g, hg, hu⟩, -⟩ := h
  refine ⟨g, ?_, hu⟩
  unfold below
  rw [hget]
  exact hg

/-- **A way to a cycle goes on below some field.** -/
theorem Endless.step {fields : List Field} (h : Endless types fields) :
    ∃ f ∈ fields, Endless types (below types f) := by
  obtain ⟨f, hf, t, hway, hcycle⟩ := h
  refine ⟨f, hf, ?_⟩
  rcases Relation.ReflTransGen.cases_head hway with rfl | ⟨u, hfu, hut⟩
  · -- the type of the field lies on the cycle itself, so the next type on it is below
    obtain ⟨u, hfu, hback⟩ := Relation.TransGen.head'_iff.1 hcycle
    obtain ⟨g, hg, rfl⟩ := exists_mem_below_of_leads hfu
    exact ⟨g, hg, f.type, hback, hcycle⟩
  · obtain ⟨g, hg, rfl⟩ := exists_mem_below_of_leads hfu
    exact ⟨g, hg, t, hut, hcycle⟩

/-! ## Unfoldings -/

/-- The lines of some fields at a depth, and under each the lines of what stands below it, as far as
the registered types lead. -/
inductive Unfolds (types : NestedTypes) : Nat → List Field → List Text → Prop where
  | nil {depth : Nat} : Unfolds types depth [] []
  | cons {depth : Nat} {f : Field} {fs : List Field} {under lines : List Text} :
      Unfolds types (depth + 1) (below types f) under → Unfolds types depth fs lines →
      Unfolds types depth (f :: fs) (fieldLine (4 + 2 * depth) f :: (under ++ lines))

/-- Fields have one unfolding at most. -/
theorem Unfolds.unique {depth : Nat} {fields : List Field} {lines lines' : List Text}
    (h : Unfolds types depth fields lines) (h' : Unfolds types depth fields lines') :
    lines = lines' := by
  induction h generalizing lines' with
  | nil =>
    cases h'
    rfl
  | cons _ _ ihUnder ihLines =>
    cases h' with
    | cons hunder hlines => rw [ihUnder hunder, ihLines hlines]

/-- What unfolds does not lead into a cycle. -/
theorem Unfolds.not_endless {depth : Nat} {fields : List Field} {lines : List Text}
    (h : Unfolds types depth fields lines) : ¬ Endless types fields := by
  induction h with
  | nil =>
    rintro ⟨f, hf, -⟩
    cases hf
  | @cons depth f fs under lines _ _ ihUnder ihLines =>
    rintro ⟨g, hg, hcycle⟩
    rcases List.mem_cons.1 hg with rfl | hg
    · have hsingle : Endless types [g] := ⟨g, List.mem_singleton_self g, hcycle⟩
      obtain ⟨f, hf, hbelow⟩ := hsingle.step
      rw [List.mem_singleton.1 hf] at hbelow
      exact ihUnder hbelow
    · exact ihLines ⟨g, hg, hcycle⟩

/-! ## The bounded unfolding -/

section

variable {depth indent : Nat} {f : Field} {fs : List Field} {lines : List Text}

theorem fieldLines_zero_eq_ok (h : fieldLines types 0 indent fs = .ok lines) :
    (∀ f ∈ fs, below types f = []) ∧ lines = fs.map (fieldLine indent) := by
  unfold fieldLines at h
  split at h
  · rename_i hall
    cases h
    exact ⟨fun f hf => List.isEmpty_iff.1 (List.all_eq_true.1 hall f hf), rfl⟩
  · cases h

theorem fieldLines_zero_eq_error {e : Failure} (h : fieldLines types 0 indent fs = .error e) :
    ∃ f ∈ fs, below types f ≠ [] := by
  unfold fieldLines at h
  split at h
  · cases h
  · rename_i hall
    by_contra hnone
    refine hall (List.all_eq_true.2 fun f hf => List.isEmpty_iff.2 ?_)
    by_contra hne
    exact hnone ⟨f, hf, hne⟩

/-- The lines of one field and of what stands below it. -/
def block (types : NestedTypes) (depth indent : Nat) (f : Field) : Except Failure (List Text) :=
  (fieldLines types depth (indent + 2) (below types f)).bind fun under =>
    .ok (fieldLine indent f :: under)

theorem fieldLines_succ :
    fieldLines types (depth + 1) indent fs
      = (fs.mapM (block types depth indent)).bind fun blocks => .ok blocks.flatten := rfl

theorem fieldLines_succ_nil : fieldLines types (depth + 1) indent [] = .ok [] := rfl

theorem fieldLines_succ_cons :
    fieldLines types (depth + 1) indent (f :: fs)
      = (fieldLines types depth (indent + 2) (below types f)).bind fun under =>
        (fieldLines types (depth + 1) indent fs).bind fun lines =>
          .ok (fieldLine indent f :: (under ++ lines)) := by
  rw [fieldLines_succ, fieldLines_succ, List.mapM_cons, block]
  cases fieldLines types depth (indent + 2) (below types f) with
  | error e => rfl
  | ok under =>
    cases fs.mapM (block types depth indent) with
    | error e => rfl
    | ok blocks => rfl

theorem exists_of_succ_cons_ok (h : fieldLines types (depth + 1) indent (f :: fs) = .ok lines) :
    ∃ under rest, fieldLines types depth (indent + 2) (below types f) = .ok under
      ∧ fieldLines types (depth + 1) indent fs = .ok rest
      ∧ lines = fieldLine indent f :: (under ++ rest) := by
  rw [fieldLines_succ_cons] at h
  cases hunder : fieldLines types depth (indent + 2) (below types f) with
  | error e =>
    rw [hunder] at h
    cases h
  | ok under =>
    cases hrest : fieldLines types (depth + 1) indent fs with
    | error e =>
      rw [hunder, hrest] at h
      cases h
    | ok rest =>
      rw [hunder, hrest] at h
      cases h
      exact ⟨under, rest, rfl, rfl, rfl⟩

/-- When there are no lines for some fields, there are none below one of them. -/
theorem exists_of_succ_error {e : Failure} (h : fieldLines types (depth + 1) indent fs = .error e) :
    ∃ f ∈ fs, fieldLines types depth (indent + 2) (below types f) = .error e := by
  induction fs with
  | nil => cases h
  | cons f fs ih =>
    rw [fieldLines_succ_cons] at h
    cases hunder : fieldLines types depth (indent + 2) (below types f) with
    | error e' =>
      rw [hunder] at h
      cases h
      exact ⟨f, List.mem_cons_self, hunder⟩
    | ok under =>
      cases hrest : fieldLines types (depth + 1) indent fs with
      | error e' =>
        rw [hunder, hrest] at h
        cases h
        obtain ⟨g, hg, herror⟩ := ih hrest
        exact ⟨g, List.mem_cons_of_mem f hg, herror⟩
      | ok rest =>
        rw [hunder, hrest] at h
        cases h

end

/-- Lines that are given are an unfolding. -/
theorem unfolds_of_fieldLines {bound depth : Nat} {fields : List Field} {lines : List Text}
    (h : fieldLines types bound (4 + 2 * depth) fields = .ok lines) :
    Unfolds types depth fields lines := by
  induction bound generalizing depth fields lines with
  | zero =>
    obtain ⟨hbelow, rfl⟩ := fieldLines_zero_eq_ok h
    clear h
    induction fields with
    | nil => exact .nil
    | cons f fs ih =>
      have hunder : Unfolds types (depth + 1) (below types f) [] := by
        rw [hbelow f List.mem_cons_self]
        exact .nil
      exact .cons hunder (ih fun g hg => hbelow g (List.mem_cons_of_mem f hg))
  | succ bound ihBound =>
    induction fields generalizing lines with
    | nil =>
      rw [fieldLines_succ_nil] at h
      cases h
      exact .nil
    | cons f fs ih =>
      obtain ⟨under, rest, hunder, hrest, rfl⟩ := exists_of_succ_cons_ok h
      have hindent : 4 + 2 * depth + 2 = 4 + 2 * (depth + 1) := by omega
      rw [hindent] at hunder
      exact .cons (ihBound hunder) (ih hrest)

/-- Where the bound is exceeded, there is a way down with more registered types on it than the bound
allows, each of which leads to all that follow. -/
theorem exists_walk_of_error {bound indent : Nat} {fields : List Field} {e : Failure}
    (h : fieldLines types bound indent fields = .error e) :
    ∃ f ∈ fields, ∃ walk : List Text, walk.length = bound
      ∧ (f.type :: walk).Pairwise (Relation.TransGen (Leads types))
      ∧ ∀ t ∈ f.type :: walk, t ∈ types.names := by
  induction bound generalizing indent fields with
  | zero =>
    obtain ⟨f, hf, hne⟩ := fieldLines_zero_eq_error h
    obtain ⟨g, hg⟩ := List.exists_mem_of_ne_nil _ hne
    refine ⟨f, hf, [], rfl, List.pairwise_singleton _ _, ?_⟩
    intro t ht
    rw [List.mem_singleton.1 ht]
    exact NestedTypes.mem_names_of_get? (get?_of_mem_below hg)
  | succ bound ih =>
    obtain ⟨f, hf, herror⟩ := exists_of_succ_error h
    obtain ⟨g, hg, walk, hlength, hpairwise, hnames⟩ := ih herror
    have hfg : Leads types f.type g.type := leads_of_mem_below hg (hnames _ List.mem_cons_self)
    have hall : ∀ u ∈ g.type :: walk, Relation.TransGen (Leads types) f.type u := by
      intro u hu
      rcases List.mem_cons.1 hu with rfl | hu
      · exact .single hfg
      · exact .head hfg (List.rel_of_pairwise_cons hpairwise hu)
    refine ⟨f, hf, g.type :: walk, ?_, List.pairwise_cons.2 ⟨hall, hpairwise⟩, ?_⟩
    · rw [List.length_cons, hlength]
    · intro t ht
      rcases List.mem_cons.1 ht with rfl | ht
      · exact NestedTypes.mem_names_of_get? (get?_of_mem_below hg)
      · exact hnames t ht

/-- A way down with more types on it than are registered meets one of them twice. -/
theorem endless_of_error {indent : Nat} {fields : List Field} {e : Failure}
    (h : fieldLines types types.size indent fields = .error e) : Endless types fields := by
  obtain ⟨f, hf, walk, hlength, hpairwise, hnames⟩ := exists_walk_of_error h
  by_contra hnone
  have hreach : ∀ t ∈ f.type :: walk, Relation.ReflTransGen (Leads types) f.type t := by
    intro t ht
    rcases List.mem_cons.1 ht with rfl | ht
    · exact .refl
    · exact (List.rel_of_pairwise_cons hpairwise ht).to_reflTransGen
  have hnodup : (f.type :: walk).Nodup := by
    refine hpairwise.imp_of_mem fun {t u} ht _ htu heq => ?_
    subst heq
    exact hnone ⟨f, hf, t, hreach t ht, htu⟩
  have hle := NestedTypes.length_le_size hnodup hnames
  rw [List.length_cons, hlength] at hle
  omega

/-! ## Outlines -/

/-- **An unfolding that ends is the outline that is given.** -/
theorem Unfolds.ofOperation {o : Operation} {lines : List Text}
    (h : Unfolds types 0 o.fields lines) :
    ofOperation types o = .ok (joinLines (headLines o ++ lines)) := by
  unfold Outline.ofOperation
  cases hlines : fieldLines types types.size 4 o.fields with
  | error e => exact absurd (endless_of_error hlines) h.not_endless
  | ok found =>
    have hfound : Unfolds types 0 o.fields found := unfolds_of_fieldLines hlines
    rw [hfound.unique h]
    rfl

theorem exists_unfolds {fields : List Field} (h : ¬ Endless types fields) :
    ∃ lines, Unfolds types 0 fields lines := by
  cases hlines : fieldLines types types.size 4 fields with
  | error e => exact absurd (endless_of_error hlines) h
  | ok lines => exact ⟨lines, unfolds_of_fieldLines hlines⟩

theorem ofOperation_of_endless {o : Operation} (h : Endless types o.fields) :
    ofOperation types o = .error .endless := by
  unfold ofOperation
  cases hlines : fieldLines types types.size 4 o.fields with
  | error e =>
    cases e
    rfl
  | ok lines =>
    have hunfolds : Unfolds types 0 o.fields lines := unfolds_of_fieldLines hlines
    exact absurd h hunfolds.not_endless

/--
**An outline is refused exactly when the registered types lead round in a circle.**

Whatever types are registered, there is no outline of an operation if, and only if, some way from
the types of its fields comes to a type that leads back to itself. Otherwise the fields unfold in
one way, and the outline consists of the lines at the head and the lines of this unfolding.
-/
theorem ofOperation_eq_endless_iff (types : NestedTypes) (o : Operation) :
    (ofOperation types o = .error .endless ↔ Endless types o.fields)
    ∧ (¬ Endless types o.fields → ∃ lines : List Text,
        (∀ other, Unfolds types 0 o.fields other ↔ other = lines)
        ∧ ofOperation types o = .ok (joinLines (headLines o ++ lines))) := by
  refine ⟨⟨?_, ofOperation_of_endless⟩, ?_⟩
  · intro herror
    by_contra hends
    obtain ⟨lines, hlines⟩ := exists_unfolds hends
    rw [hlines.ofOperation] at herror
    cases herror
  · intro hends
    obtain ⟨lines, hlines⟩ := exists_unfolds hends
    refine ⟨lines, fun other => ⟨fun h => h.unique hlines, ?_⟩, hlines.ofOperation⟩
    rintro rfl
    exact hlines

/-- A registered type that two fields share. -/
def sharedTypes : NestedTypes :=
  NestedTypes.empty.register "QUser".toList [⟨"id".toList, Field.scalarType, []⟩]

/-- Two fields of one registered type. -/
def sharedOperation : Operation where
  kind := .query
  name := "Q".toList
  fields := [⟨"user".toList, "QUser".toList, []⟩, ⟨"owner".toList, "QUser".toList, []⟩]

theorem ofOperation_sharedOperation :
    ¬ Endless sharedTypes sharedOperation.fields ∧ ∃ lines : List Text,
      (∀ other, Unfolds sharedTypes 0 sharedOperation.fields other ↔ other = lines)
      ∧ ofOperation sharedTypes sharedOperation
          = .ok (joinLines (headLines sharedOperation ++ lines)) := by
  have hgiven : ofOperation sharedTypes sharedOperation
      = .ok ("query Q\n  fields:\n    user: QUser\n      id: String\n    owner: QUser\n"
          ++ "      id: String").toList := by decide +kernel
  have hends : ¬ Endless sharedTypes sharedOperation.fields := by
    intro hendless
    rw [(ofOperation_eq_endless_iff sharedTypes sharedOperation).1.2 hendless] at hgiven
    cases hgiven
  exact ⟨hends, (ofOperation_eq_endless_iff sharedTypes sharedOperation).2 hends⟩

end Outline

end GqlScan
