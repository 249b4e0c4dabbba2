import GqlScan.Path

/-!
# Absolute paths

A path is made absolute by its text. `Resolves` takes double dots away in any order, each with the
component in front of it; the order does not matter.

Main statement: `resolves_iff`.
-/

namespace GqlScan

open Text

namespace Path

/-! ## Double dots -/

section

variable {α : Type}

/-- Components and what is left of them without double dots, which are written as `up`. A double dot
goes together with the component in front of it, and by itself when it is at the root. -/
inductive Resolves (up : α) : List α → List α → Prop where
  | done {parts : List α} : up ∉ parts → Resolves up parts parts
  | cancel {front back left : List α} {part : α} : part ≠ up →
      Resolves up (front ++ back) left → Resolves up (front ++ part :: up :: back) left
  | root {back left : List α} : Resolves up back left → Resolves up (up :: back) left

variable [DecidableEq α] {up : α}

theorem resolve_append (xs ys : List α) :
    resolve up (xs ++ ys) = ys.foldl (enter up) (resolve up xs) := List.foldl_append

theorem foldl_enter_of_no_up {parts : List α} (h : up ∉ parts) (done : List α) :
    parts.foldl (enter up) done = done ++ parts := by
  induction parts generalizing done with
  | nil => exact (List.append_nil done).symm
  | cons part parts ih =>
    have hpart : part ≠ up := by
      rintro rfl
      exact h List.mem_cons_self
    have hrest : up ∉ parts := fun hmem => h (List.mem_cons_of_mem part hmem)
    rw [List.foldl_cons, ih hrest, enter, if_neg hpart, List.append_assoc]
    rfl

theorem resolve_cancel {part : α} (h : part ≠ up) (front back : List α) :
    resolve up (front ++ part :: up :: back) = resolve up (front ++ back) := by
  have hback : enter up (enter up (resolve up front) part) up = resolve up front := by
    rw [enter, if_pos rfl, enter, if_neg h, List.dropLast_concat]
  rw [resolve_append, resolve_append, List.foldl_cons, List.foldl_cons, hback]

/-- At the root a double dot leads nowhere. -/
theorem resolve_root (back : List α) : resolve up (up :: back) = resolve up back := by
  unfold resolve
  rw [List.foldl_cons, enter, if_pos rfl]
  rfl

theorem resolves_resolve (parts : List α) : Resolves up parts (resolve up parts) := by
  induction hn : parts.length using Nat.strongRecOn generalizing parts with
  | ind n ih =>
    by_cases hup : up ∈ parts
    · -- the first double dot goes, for there is none in the component in front of it
      obtain ⟨front, back, rfl, hfront⟩ := List.eq_append_cons_of_mem hup
      rcases List.eq_nil_or_concat front with rfl | ⟨front, part, rfl⟩
      · rw [List.nil_append, resolve_root]
        refine .root (ih back.length ?_ back rfl)
        rw [← hn]
        exact Nat.lt_succ_self _
      · have hpart : part ≠ up := by
          rintro rfl
          exact hfront (by simp)
        have hsplit : front.concat part ++ up :: back = front ++ part :: up :: back := by simp
        rw [hsplit] at hn ⊢
        rw [resolve_cancel hpart]
        refine .cancel hpart (ih (front ++ back).length ?_ (front ++ back) rfl)
        simp only [List.length_append, List.length_cons] at hn ⊢
        omega
    · have hresolve : resolve up parts = parts := foldl_enter_of_no_up hup []
      rw [hresolve]
      exact .done hup

/-- **Double dots can be taken away in any order.** -/
theorem resolves_iff {parts left : List α} : Resolves up parts left ↔ resolve up parts = left := by
  constructor
  · intro h
    induction h with
    | done hup => exact foldl_enter_of_no_up hup []
    | cancel hpart _ ih => rw [resolve_cancel hpart, ih]
    | root _ ih => rw [resolve_root, ih]
  · rintro rfl
    exact resolves_resolve parts

end

/-! ## Written paths -/

/-- A written path has an anchor when it begins with a slash. -/
theorem anchor_ofText_eq_relative_iff (t : Text) :
    (ofText t).anchor = .relative ↔ t.head? ≠ some '/' := by
  have hanchor : ∀ n, anchorOf n = .relative ↔ n = 0 := by
    intro n
    unfold anchorOf
    split
    · exact iff_of_true rfl rfl
    · exact iff_of_false nofun nofun
    · rename_i hzero _
      exact iff_of_false nofun hzero
  refine (hanchor _).trans ?_
  cases t with
  | nil => exact iff_of_true rfl nofun
  | cons c t =>
    by_cases hc : c = '/'
    · subst hc
      exact iff_of_false nofun fun h => h rfl
    · have hhead : (c == '/') = false := beq_eq_false_iff_ne.2 hc
      rw [List.takeWhile_cons, hhead]
      exact iff_of_true rfl fun h => hc (Option.some.inj h)

/-- A path from the root is written with a slash in front of every component. -/
theorem toText_slash {parts : List Text} (h : parts ≠ []) :
    toText ⟨.slash, parts⟩ = parts.flatMap ('/' :: ·) := by
  obtain ⟨first, rest, rfl⟩ := List.exists_cons_of_ne_nil h
  unfold toText
  rw [if_neg fun hempty => Anchor.noConfusion hempty.1, join_cons]
  rfl

end Path

end GqlScan
