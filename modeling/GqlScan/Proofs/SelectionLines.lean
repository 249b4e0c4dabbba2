import GqlScan.Proofs.CleanText
import GqlScan.Selection.Fields

/-!
# The lines of a selection set

Behind the name in a line of a selection set come arguments and directives, which are skipped, and
what is left decides what the line stands for. A line stands for one field at most, and of different
names none is lost.

Main statements: `length_fields_singleton_le`, that a block of a single line holds no more than one
field, and `firstWins_of_nodup`.
-/

namespace GqlScan

open Text

/-! ## The shapes of a line -/

namespace LineShape

/-- Where no arguments start, none are skipped. -/
theorem skipArguments_of_head {t : Text} (h : t.head? ≠ some '(') : skipArguments t = t := by
  unfold skipArguments
  split
  · exact absurd rfl h
  · rfl

theorem skipArguments_of_mem {rest : Text} (h : ')' ∈ rest) :
    skipArguments ('(' :: rest) = Text.after ')' rest := if_pos h

/-- Arguments that never end are not skipped. -/
theorem skipArguments_of_not_mem {t : Text} (h : ')' ∉ t) : skipArguments t = t := by
  unfold skipArguments
  split
  · exact if_neg fun hm => h (List.mem_cons_of_mem _ hm)
  · rfl

theorem skipDirectives_of_head {t : Text} (hat : (trimStart t).head? ≠ some '@') :
    skipDirectives t = trimStart t := by
  rw [skipDirectives]
  split
  · rename_i rest h
    rw [h] at hat
    exact absurd rfl hat
  · rfl

/-- Behind a name there is nothing to skip but blanks, unless arguments or directives follow. -/
theorem skipTail_of_head {t : Text} (hopen : (trimStart t).head? ≠ some '(')
    (hat : (trimStart t).head? ≠ some '@') : skipTail t = trimStart t := by
  unfold skipTail
  rw [skipArguments_of_head hopen, skipDirectives_of_head (by rw [trimStart_trimStart]; exact hat),
    trimStart_trimStart]

theorem skipTail_of_arguments {t rest : Text} (h : trimStart t = '(' :: rest)
    (hclose : ')' ∈ rest) : skipTail t = skipDirectives (Text.after ')' rest) := by
  unfold skipTail
  rw [h, skipArguments_of_mem hclose]

theorem opening?_eq_none {line : Text} (h : '{' ∉ line) : opening? line = none := by
  cases ho : opening? line with
  | none => rfl
  | some o => exact absurd ((opening?_suffix ho).subset List.mem_cons_self) h

variable {line name more : Text}

/-- A line without a colon behind its name has no alias. -/
theorem opening?_of_no_alias (hn : name? line = some (name, more))
    (hcolon : (trimStart more).head? ≠ some ':') :
    opening? line = openingTail? none name more := by
  unfold opening?
  rw [hn]
  simp only [Option.bind_eq_bind, Option.bind_some]
  split
  · rename_i rest hrest
    rw [hrest] at hcolon
    exact absurd rfl hcolon
  · rfl

theorem aliased?_of_no_alias (hn : name? line = some (name, more))
    (hcolon : (trimStart more).head? ≠ some ':') : aliased? line = none := by
  unfold aliased?
  rw [hn]
  simp only [Option.bind_eq_bind, Option.bind_some]
  split
  · rename_i rest hrest
    rw [hrest] at hcolon
    exact absurd rfl hcolon
  · rfl

theorem simple?_of_end (hn : name? line = some (name, more)) (ht : skipTail more = []) :
    simple? line = some (name, none) := by
  unfold simple?
  rw [hn]
  simp only [Option.bind_eq_bind, Option.bind_some, ht]
  rfl

theorem simple?_of_type {rest : Text} (hn : name? line = some (name, more))
    (ht : skipTail more = ':' :: rest) (hne : (trimStart rest).takeWhile isTypeChar ≠ [])
    (hend : isLineEnd ((trimStart rest).dropWhile isTypeChar) = true) :
    simple? line = some (name, some ((trimStart rest).takeWhile isTypeChar)) := by
  unfold simple?
  rw [hn]
  simp only [Option.bind_eq_bind, Option.bind_some, ht]
  rw [if_pos ⟨hne, hend⟩]
  rfl

end LineShape

/-! ## Items -/

namespace Selection

/-- Items with different names that are new all win. -/
theorem firstWins_of_nodup {its : List Item} {seen : List Text}
    (hd : (its.filterMap Item.name?).Nodup) (hnew : ∀ n ∈ its.filterMap Item.name?, n ∉ seen) :
    firstWins seen its = its := by
  induction its generalizing seen with
  | nil => rfl
  | cons item its ih =>
    rw [firstWins]
    cases hn : item.name? with
    | none =>
      rw [List.filterMap_cons_none hn] at hd hnew
      dsimp only
      rw [ih hd hnew]
    | some n =>
      rw [List.filterMap_cons_some hn] at hd hnew
      rw [List.nodup_cons] at hd
      dsimp only
      rw [if_neg (hnew n List.mem_cons_self), ih hd.2]
      intro m hm hmem
      rcases List.mem_cons.1 hmem with rfl | hs
      · exact hd.1 hm
      · exact hnew m (List.mem_cons_of_mem n hm) hs

theorem length_items_le (lines : List Text) : (items lines).length ≤ lines.length := by
  fun_induction items lines with
  | case1 => exact Nat.le_refl _
  | case2 line rest o ho block ih =>
    rw [List.length_drop] at ih
    rw [List.length_cons, List.length_cons]
    omega
  | case3 line rest ho name type hleaf ih =>
    rw [List.length_cons, List.length_cons]
    omega
  | case4 line rest ho hleaf hbraces ih =>
    rw [List.length_drop] at ih
    rw [List.length_cons]
    omega
  | case5 line rest ho hleaf hbraces ih =>
    rw [List.length_cons, List.length_cons]
    omega

/-- A line that neither opens a selection nor names a field gives no field. -/
theorem filterMap_field?_items_of_neither {line : Text}
    (hopen : LineShape.opening? line = none) (hleaf : leaf? line = none) (owner : Text) :
    (items [line]).filterMap (Item.field? owner) = [] := by
  rw [items, hopen]
  dsimp only
  rw [hleaf]
  dsimp only
  split
  · rw [List.drop_nil, items]
    rfl
  · rw [items]
    rfl

end Selection

namespace LogicalLine

theorem ofLines_singleton {t : Text} (h : clean t ≠ []) : ofLines [t] = [clean t] := by
  unfold ofLines groups
  rw [List.map_singleton, gather, if_neg fun hb => h hb.1]
  split
  · rw [gather, if_pos rfl]
    rfl
  · rw [gather, if_neg (by simp)]
    rfl

/-- An empty line is no logical line when no parenthesis is open. -/
theorem ofLines_cons_nil {l : Text} (h : clean l = []) (ls : List Text) :
    ofLines (l :: ls) = ofLines ls := by
  unfold ofLines groups
  rw [List.map_cons, h, gather, if_pos ⟨rfl, rfl⟩]

theorem length_ofLines_singleton_le (t : Text) : (ofLines [t]).length ≤ 1 := by
  by_cases h : clean t = []
  · have hnil : ofLines [t] = [] := by
      unfold ofLines groups
      rw [List.map_singleton, gather, if_pos ⟨h, rfl⟩, gather, if_pos rfl]
      rfl
    rw [hnil]
    exact Nat.zero_le 1
  · rw [ofLines_singleton h]
    exact Nat.le_refl 1

end LogicalLine

/-- Without logical lines there are no fields. -/
theorem Selection.fields_of_no_lines {lines : List Text} (h : LogicalLine.ofLines lines = [])
    (owner : Text) : fields owner lines = [] := by
  have hitems : itemsOf lines = [] := by
    rw [itemsOf, h, items]
    rfl
  rw [fields_eq, hitems, List.filterMap_nil]

/-- An empty line in front of a selection set holds no field. -/
theorem Selection.fields_cons_nil (owner : Text) (lines : List Text) :
    fields owner ([] :: lines) = fields owner lines := by
  rw [fields_eq, fields_eq, itemsOf, LogicalLine.ofLines_cons_nil rfl]
  rfl

/-- A block of a single line holds no more than one field. -/
theorem Selection.length_fields_singleton_le (owner t : Text) :
    (fields owner [t]).length ≤ 1 := by
  have hitems : (itemsOf [t]).length ≤ (items (LogicalLine.ofLines [t])).length :=
    (firstWins_sublist _ _).length_le
  have hfields := List.length_filterMap_le (Item.field? owner) (itemsOf [t])
  have hlines := length_items_le (LogicalLine.ofLines [t])
  have hone := LogicalLine.length_ofLines_singleton_le t
  rw [fields_eq]
  omega

end GqlScan
