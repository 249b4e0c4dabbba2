import GqlScan.Proofs.Canonical.Reading
import GqlScan.Proofs.Enclosed

/-!
# A selection set one level deeper

The lines of a nested selection are taken out of the logical lines around them, so they have been
cut, trimmed and joined once, and the scan of the selection cuts, trims and joins them again. The
second time nothing changes, as long as no string literal was left open at the end of a line: a
literal that is open would go on in the line behind it and hide or show a number sign there.

So a selection written over several lines holds what its lines hold on their own.

Main statements: `isLogical_of_mem_ofLines` and `ofLines_append_of_isLogical`, for lines that are
joined twice, and `scan_nested`.
-/

namespace GqlScan

open Text

/-! ## Closed literals -/

namespace Comment

/-- A line in which every string literal is closed, its trailing comment left out. -/
def ClosesLiterals (line : Text) : Prop := Quotation.unquoted.past (cut line) = .unquoted

instance (line : Text) : Decidable (ClosesLiterals line) :=
  inferInstanceAs (Decidable (_ = _))

/-- Blanks close no literal. -/
theorem Quotation.eq_unquoted_of_past_blanks {q : Quotation} {b : Text} (hb : Blanks b)
    (h : q.past b = .unquoted) : q = .unquoted := by
  induction b generalizing q with
  | nil => exact h
  | cons c b ih =>
    obtain ⟨hc, hrest⟩ := List.forall_mem_cons.1 hb
    have hnext : q.next c = .unquoted := ih hrest h
    have hquote : c ≠ '"' := fun e => by
      rw [e] at hc
      revert hc
      decide
    cases q with
    | unquoted => rfl
    | quoted =>
      rw [next, if_neg hquote] at hnext
      split at hnext
      · cases hnext
      · cases hnext
    | escaped => cases hnext

/-- The clean form of a line leaves no literal open that the line closes. -/
theorem ClosesLiterals.past_clean {line : Text} (h : ClosesLiterals line) :
    Quotation.unquoted.past (LogicalLine.clean line) = .unquoted := by
  obtain ⟨a, b, hline, ha, hb⟩ := exists_trim_append (cut line)
  have hfront : Quotation.unquoted.past a = .unquoted :=
    Quotation.past_of_no_quote (ha.not_mem (by decide))
  unfold ClosesLiterals at h
  rw [hline, Quotation.past_append, hfront, Quotation.past_append] at h
  exact Quotation.eq_unquoted_of_past_blanks hb h

end Comment

/-! ## Groups of lines -/

namespace LogicalLine

/-- Lines that make up one logical line: the first is not empty, a parenthesis is open behind each
of them but the last, and none behind the last. -/
structure IsGroup (group : List Text) : Prop where
  starts : ∃ first rest, group = first :: rest ∧ first ≠ []
  holds : ∀ front last, group = front ++ last → front ≠ [] → last ≠ [] →
    front.flatten.count ')' < front.flatten.count '('
  settles : group.flatten.count '(' ≤ group.flatten.count ')'

/-- What holds of a group that is being gathered. -/
structure Gathering (pending : List Text) (depth : Nat) : Prop where
  starts : pending.head? ≠ some []
  holds : ∀ front last, pending = front ++ last → front ≠ [] →
    front.flatten.count ')' < front.flatten.count '('
  counts : pending.flatten.count '(' = depth + pending.flatten.count ')'

theorem Gathering.nil : Gathering [] 0 where
  starts := by decide
  holds front last h hne := absurd (List.append_eq_nil_iff.1 h.symm).1 hne
  counts := rfl

theorem count_flatten_concat (c : Char) (lines : List Text) (t : Text) :
    (lines ++ [t]).flatten.count c = lines.flatten.count c + t.count c := by
  rw [List.flatten_append, List.flatten_singleton, List.count_append]

section

variable {pending : List Text} {depth : Nat} {t : Text}

theorem Gathering.starts_concat (h : Gathering pending depth) (ht : ¬ (t = [] ∧ pending = [])) :
    ∃ first rest, pending ++ [t] = first :: rest ∧ first ≠ [] := by
  cases pending with
  | nil => exact ⟨t, [], rfl, fun e => ht ⟨e, rfl⟩⟩
  | cons first rest => exact ⟨first, rest ++ [t], rfl, fun e => h.starts (congrArg some e)⟩

/-- A proper front of a group is a front of the lines before its last. -/
theorem exists_of_concat_eq_append {front last : List Text} (h : pending ++ [t] = front ++ last)
    (hlast : last ≠ []) : ∃ later, pending = front ++ later := by
  obtain ⟨later, u, rfl⟩ := (List.eq_nil_or_concat' last).resolve_left hlast
  rw [← List.append_assoc] at h
  exact ⟨later, (List.append_inj' h rfl).1⟩

/-- A line that leaves no parenthesis open completes the group. -/
theorem Gathering.isGroup (h : Gathering pending depth) (ht : ¬ (t = [] ∧ pending = []))
    (hclose : depth + t.count '(' ≤ t.count ')') : IsGroup (pending ++ [t]) where
  starts := h.starts_concat ht
  holds front last heq hfront hlast := by
    obtain ⟨later, hlater⟩ := exists_of_concat_eq_append heq hlast
    exact h.holds front later hlater hfront
  settles := by
    have := h.counts
    rw [count_flatten_concat, count_flatten_concat]
    omega

/-- A line behind which a parenthesis is open goes into the group. -/
theorem Gathering.concat (h : Gathering pending depth) (ht : ¬ (t = [] ∧ pending = []))
    (hopen : ¬ depth + t.count '(' ≤ t.count ')') :
    Gathering (pending ++ [t]) (depth + t.count '(' - t.count ')') where
  starts := by
    obtain ⟨first, rest, heq, hne⟩ := h.starts_concat ht
    rw [heq]
    exact fun e => hne (Option.some.inj e)
  holds front last heq hfront := by
    by_cases hlast : last = []
    · have := h.counts
      rw [hlast, List.append_nil] at heq
      rw [← heq, count_flatten_concat, count_flatten_concat]
      omega
    · obtain ⟨later, hlater⟩ := exists_of_concat_eq_append heq hlast
      exact h.holds front later hlater hfront
  counts := by
    have := h.counts
    rw [count_flatten_concat, count_flatten_concat]
    omega

end

/-- Gathering finds groups, and nothing is left over behind settled lines. -/
theorem isGroup_of_mem_gather {pending : List Text} {depth : Nat} {lines : List Text}
    (h : Gathering pending depth) (hsettled : pendingBehind pending depth lines = []) :
    ∀ group ∈ gather pending depth lines, IsGroup group := by
  induction lines generalizing pending depth with
  | nil =>
    have hpending : pending = [] := hsettled
    rw [gather, if_pos hpending]
    exact List.forall_mem_nil _
  | cons t rest ih =>
    rw [pendingBehind] at hsettled
    rw [gather]
    by_cases hempty : t = [] ∧ pending = []
    · rw [if_pos hempty] at hsettled ⊢
      have hdepth : depth = 0 := by
        have := h.counts
        rw [hempty.2] at this
        exact (Nat.add_eq_zero_iff.1 this.symm).1
      rw [hdepth] at hsettled ⊢
      exact ih Gathering.nil hsettled
    · rw [if_neg hempty] at hsettled ⊢
      by_cases hclose : depth + t.count '(' ≤ t.count ')'
      · rw [if_pos hclose] at hsettled ⊢
        exact List.forall_mem_cons.2 ⟨h.isGroup hempty hclose, ih Gathering.nil hsettled⟩
      · rw [if_neg hclose] at hsettled ⊢
        exact ih (h.concat hempty hclose) hsettled

/-- **Settled lines fall into groups.** -/
theorem isGroup_of_mem_groups {lines : List Text} (h : Settled lines) :
    ∀ group ∈ groups lines, IsGroup group :=
  isGroup_of_mem_gather Gathering.nil h

/-- The last line of a group is not empty: it closes what the lines before it leave open. -/
theorem IsGroup.exists_concat {group : List Text} (h : IsGroup group) :
    ∃ front last, group = front ++ [last] ∧ last ≠ [] := by
  obtain ⟨first, rest, heq, hfirst⟩ := h.starts
  obtain ⟨front, last, rfl⟩ :=
    (List.eq_nil_or_concat' group).resolve_left (by rw [heq]; exact List.cons_ne_nil _ _)
  refine ⟨front, last, rfl, ?_⟩
  rintro rfl
  by_cases hfront : front = []
  · rw [hfront] at heq
    exact hfirst (List.cons.inj heq).1.symm
  · have hholds := h.holds front [[]] rfl hfront (List.cons_ne_nil _ _)
    have hsettles := h.settles
    rw [count_flatten_concat, count_flatten_concat] at hsettles
    exact absurd hholds (by simpa using hsettles)

/-! ## Joining once more -/

theorem exists_joined_concat (front : List Text) (last : Text) :
    ∃ before, joined (front ++ [last]) = before ++ last := by
  induction front with
  | nil => exact ⟨[], rfl⟩
  | cons t front ih =>
    obtain ⟨before, hbefore⟩ := ih
    refine ⟨t ++ [' '] ++ before, ?_⟩
    rw [List.append_assoc, ← hbefore]
    cases front <;> rfl

/-- Lines without comments and open literals are joined to such a line. -/
theorem trailing?_joined {group : List Text}
    (h : ∀ t ∈ group, Comment.trailing? t = none
      ∧ Comment.Quotation.unquoted.past t = .unquoted) :
    Comment.trailing? (joined group) = none
      ∧ Comment.Quotation.unquoted.past (joined group) = .unquoted := by
  unfold joined
  fun_induction join [' '] group with
  | case1 => exact ⟨rfl, rfl⟩
  | case2 t => exact h t List.mem_cons_self
  | case3 t u ts ih =>
    obtain ⟨ht, hrest⟩ := List.forall_mem_cons.1 h
    obtain ⟨htrailing, hpast⟩ := ih hrest
    have hfront : Comment.Quotation.unquoted.past (t ++ [' ']) = .unquoted := by
      rw [Comment.Quotation.past_append, ht.2]
      rfl
    have hblank : Comment.trailing? (t ++ [' ']) = none := by
      unfold Comment.trailing?
      rw [Comment.trailingFrom?_append_of_none ht.1, ht.2]
      rfl
    constructor
    · unfold Comment.trailing? at hblank htrailing ⊢
      rw [Comment.trailingFrom?_append_of_none hblank, hfront, htrailing]
    · rw [Comment.Quotation.past_append, hfront, hpast]

/-- A line that is a logical line by itself. -/
structure IsLogical (line : Text) : Prop where
  clean : clean line = line
  ne_nil : line ≠ []
  settles : line.count '(' ≤ line.count ')'

/-- A group of clean lines that leave no literal open is joined to a logical line. -/
theorem IsGroup.isLogical_joined {group : List Text} (h : IsGroup group)
    (hclean : ∀ t ∈ group, ∃ line, Comment.ClosesLiterals line ∧ clean line = t) :
    IsLogical (joined group) := by
  have htrailing := (trailing?_joined fun t ht => by
    obtain ⟨line, hline, rfl⟩ := hclean t ht
    exact ⟨trailing?_clean line, hline.past_clean⟩).1
  obtain ⟨first, rest, hfirst, hfirst_ne⟩ := h.starts
  obtain ⟨front, last, hlast, hlast_ne⟩ := h.exists_concat
  have hhead : (joined group).head? = first.head? := by
    rw [hfirst]
    exact head?_joined first hfirst_ne rest
  have hstops : Stops isBlank (joined group) := by
    obtain ⟨line, -, hline⟩ := hclean first (by rw [hfirst]; exact List.mem_cons_self)
    unfold Stops
    rw [hhead, ← hline]
    exact stops_trim (Comment.cut line)
  have hsolid : Solid (joined group) := by
    obtain ⟨line, -, hline⟩ :=
      hclean last (by rw [hlast]; exact List.mem_append_right _ List.mem_cons_self)
    obtain ⟨before, hbefore⟩ := exists_joined_concat front last
    have hown : Solid last := hline ▸ solid_trim (Comment.cut line)
    rw [hlast, hbefore]
    exact hown.append hlast_ne before
  refine ⟨clean_eq_self hstops hsolid htrailing, ?_, ?_⟩
  · intro hnil
    rw [hnil] at hhead
    exact hfirst_ne (List.head?_eq_none_iff.1 hhead.symm)
  · rw [count_joined (by decide), count_joined (by decide)]
    exact h.settles

/-- Gathering drops empty lines and changes nothing else. -/
theorem flatten_gather_sublist (pending : List Text) (depth : Nat) (lines : List Text) :
    (gather pending depth lines).flatten.Sublist (pending ++ lines) := by
  induction lines generalizing pending depth with
  | nil =>
    rw [gather]
    split
    · exact List.nil_sublist _
    · rw [List.flatten_singleton, List.append_nil]
  | cons t rest ih =>
    have happend : pending ++ t :: rest = pending ++ [t] ++ rest := List.append_cons ..
    rw [gather]
    split
    · rename_i h
      rw [h.2]
      exact (ih [] depth).trans (List.sublist_cons_self t rest)
    · rw [happend]
      split
      · exact (ih [] 0).append_left (pending ++ [t])
      · exact ih (pending ++ [t]) _

theorem mem_of_mem_groups {lines group : List Text} (hgroup : group ∈ groups lines) {t : Text}
    (ht : t ∈ group) : ∃ line ∈ lines, clean line = t :=
  List.mem_map.1 ((flatten_gather_sublist [] 0 (lines.map clean)).subset
    (List.mem_flatten.2 ⟨group, hgroup, ht⟩))

/-- **The logical lines of settled lines are logical lines by themselves**, if no line leaves a
literal open. -/
theorem isLogical_of_mem_ofLines {lines : List Text} (hsettled : Settled lines)
    (hclosed : ∀ line ∈ lines, Comment.ClosesLiterals line) :
    ∀ line ∈ ofLines lines, IsLogical line := by
  intro line hline
  obtain ⟨group, hgroup, rfl⟩ := List.mem_map.1 hline
  refine (isGroup_of_mem_groups hsettled group hgroup).isLogical_joined fun t ht => ?_
  obtain ⟨source, hsource, hclean⟩ := mem_of_mem_groups hgroup ht
  exact ⟨source, hclosed source hsource, hclean⟩

theorem ofLines_append_of_isLogical {lines : List Text} (h : ∀ line ∈ lines, IsLogical line)
    (later : List Text) : ofLines (lines ++ later) = lines ++ ofLines later := by
  induction lines with
  | nil => rfl
  | cons line lines ih =>
    obtain ⟨hline, hrest⟩ := List.forall_mem_cons.1 h
    rw [List.cons_append, ofLines_cons_of_clean hline.clean hline.ne_nil hline.settles, ih hrest]
    rfl

end LogicalLine

/-! ## The nested selection -/

namespace Selection

open Canonical

/-- The line that opens a selection is a logical line by itself. -/
theorem isLogical_openLine (name : Name) : LogicalLine.IsLogical (Forest.openLine name) where
  clean := by
    have hlegible := Forest.legible_openLine name
    unfold LogicalLine.clean
    rw [Comment.cut_of_no_sign (hlegible.written.not_mem (by decide) (by decide)), hlegible.trim_eq]
  ne_nil := (Forest.legible_openLine name).ne_nil
  settles := by
    have hwritten := (Forest.legible_openLine name).written
    rw [List.count_eq_zero.2 (hwritten.not_mem (by decide) (by decide))]
    exact Nat.zero_le _

/-- The block of a selection has the logical lines that were taken into it. -/
theorem ofLines_block {lines : List Text} (h : ∀ line ∈ lines, LogicalLine.IsLogical line) :
    LogicalLine.ofLines ([] :: (lines ++ [[]])) = lines := by
  have hempty : LogicalLine.ofLines [[]] = [] := rfl
  rw [LogicalLine.ofLines_cons_nil rfl, LogicalLine.ofLines_append_of_isLogical h, hempty,
    List.append_nil]

/-- The fields of a selection over several lines are those of its lines. -/
theorem fields_nested (owner : Text) (name : Name) {body : List Text}
    (hliterals : ∀ line ∈ body, Comment.ClosesLiterals line)
    (hbraces : Block.Balanced (body.map Comment.cut).flatten)
    (hgroups : LogicalLine.Settled body) :
    fields owner (Forest.openLine name :: (body ++ [Forest.closeLine]))
      = [nestedField owner name.1 (fields (Field.shapeName owner name.1) body)] := by
  have hopen := isLogical_openLine name
  have hlines := LogicalLine.isLogical_of_mem_ofLines hgroups hliterals
  have hblock : Block.take [] (LogicalLine.ofLines body ++ [Forest.closeLine])
      = ⟨[] :: (LogicalLine.ofLines body ++ [[]]), (LogicalLine.ofLines body).length + 1, true⟩ :=
    Block.take_enclosed rfl (LogicalLine.balanced_ofLines hbraces) []
  have hinner : fields (Field.shapeName owner name.1) ([] :: (LogicalLine.ofLines body ++ [[]]))
      = fields (Field.shapeName owner name.1) body := by
    rw [← fieldsFrom_ofLines, ofLines_block hlines, fieldsFrom_ofLines]
  have hrest : (LogicalLine.ofLines body ++ [Forest.closeLine]).drop
      ((LogicalLine.ofLines body).length + 1) = [] := List.drop_length_add_append 1
  rw [← fieldsFrom_ofLines,
    LogicalLine.ofLines_cons_of_clean hopen.clean hopen.ne_nil hopen.settles,
    LogicalLine.ofLines_append hgroups]
  change fieldsFrom owner []
    (Forest.openLine name :: (LogicalLine.ofLines body ++ [Forest.closeLine])) = _
  rw [fieldsFrom_opening (Forest.opening?_openLine name)]
  simp only [LineShape.Opening.name, Option.getD_none, hblock, hrest, hinner, fieldsFrom_nil,
    List.not_mem_nil, Nat.zero_lt_succ, if_true, if_false]

/--
**A selection over several lines holds what its lines hold on their own.**

Its field has the fields of these lines, scanned for the name made up from the owner and its own, and
that name for its type; where the lines hold no field it is an object. What is registered behind it is
what the lines register, and then the field itself if it has fields.
-/
theorem scan_nested (types : NestedTypes) (owner : Text) (name : Name) {body : List Text}
    (hliterals : ∀ line ∈ body, Comment.ClosesLiterals line)
    (hbraces : Block.Balanced (body.map Comment.cut).flatten)
    (hgroups : LogicalLine.Settled body) :
    scan types owner (Forest.openLine name :: (body ++ [Forest.closeLine]))
      = let shape := Field.shapeName owner name.1
        let inner := scan types shape body
        if inner.1 = [] then ([⟨name.1, Field.objectType, []⟩], inner.2)
        else ([⟨name.1, shape, inner.1⟩], inner.2.register shape inner.1) := by
  have hinner := scan_eq_fields types (Field.shapeName owner name.1) body
  rw [scan_eq_fields, fields_nested owner name hliterals hbraces hgroups, Field.shapesAll_cons,
    Field.shapesAll_nil, List.append_nil, ← adopt_registerAll]
  dsimp only
  rw [hinner]
  unfold nestedField NestedTypes.adopt
  simp only [List.isEmpty_iff]
  split
  · rfl
  · rfl

/-- Lines with comments, number signs in literals and arguments over two lines. -/
def postLines : List Text :=
  ["name # \x7d".toList, "posts(first: 2, # two".toList, "after: \"#\") \x7b".toList,
    "id".toList, "\x7d".toList, "tag(x: \"a # b\")".toList]

theorem scan_nested_postLines :
    IsName "user".toList ∧ (∀ line ∈ postLines, Comment.ClosesLiterals line)
      ∧ Block.Balanced (postLines.map Comment.cut).flatten ∧ LogicalLine.Settled postLines
      ∧ scan .empty ['Q'] ("user \x7b".toList :: (postLines ++ ["\x7d".toList]))
        = let inner := scan .empty "QUser".toList postLines
          if inner.1 = [] then ([⟨"user".toList, Field.objectType, []⟩], inner.2)
          else ([⟨"user".toList, "QUser".toList, inner.1⟩],
            inner.2.register "QUser".toList inner.1) := by
  have hname : IsName "user".toList := by decide
  have hlines : (∀ line ∈ postLines, Comment.ClosesLiterals line)
      ∧ Block.run 0 (postLines.map Comment.cut).flatten = .stays 0
      ∧ LogicalLine.Settled postLines := by
    decide +kernel
  have hbraces := Block.balanced_of_stays hlines.2.1
  exact ⟨hname, hlines.1, hbraces, hlines.2.2,
    scan_nested .empty ['Q'] ⟨_, hname⟩ hlines.1 hbraces hlines.2.2⟩

end Selection

end GqlScan
