import GqlScan.Proofs.Registration
import GqlScan.Proofs.SelectionLines
import GqlScan.Proofs.TrailingComments.Stripped

/-!
# Lines with a field and lines without

A line of a selection set that does not start with a name holds no field, and neither do the lines
that are joined to it. A line of one letter is a field, with arguments or without.

Main statements: `fields_of_open` and `fieldsFrom_letter`.
-/

namespace GqlScan

open Text Comment

namespace Text

theorem getLast?_dropWhile {p : Char → Bool} {t : Text} {c : Char} (h : t.getLast? = some c)
    (hp : p c = false) : (t.dropWhile p).getLast? = some c := by
  have hsplit := List.takeWhile_append_dropWhile (p := p) (l := t)
  by_cases hnil : t.dropWhile p = []
  · rw [hnil, List.append_nil] at hsplit
    have hmem : c ∈ t.takeWhile p := by
      rw [hsplit]
      exact List.mem_of_getLast? h
    rw [List.mem_takeWhile_imp hmem] at hp
    cases hp
  · rwa [← hsplit, List.getLast?_append_of_ne_nil _ hnil] at h

theorem count_trimEnd {c : Char} (hc : isBlank c = false) (t : Text) :
    (trimEnd t).count c = t.count c := by
  obtain ⟨b, ht, hb⟩ := exists_trimEnd_append t
  have hno : c ∉ b := fun hm => by
    rw [hb c hm] at hc
    cases hc
  conv => rhs; rw [ht]
  rw [List.count_append, List.count_eq_zero.2 hno, Nat.add_zero]

end Text

/-! ## Logical lines -/

namespace LogicalLine

/-- A line that leaves no parenthesis open gives a logical line. -/
theorem ofLines_cons_of_closed {l : Text} (hne : clean l ≠ [])
    (hcount : (clean l).count '(' ≤ (clean l).count ')') (ls : List Text) :
    ofLines (l :: ls) = clean l :: ofLines ls := by
  have hcount : 0 + (clean l).count '(' ≤ (clean l).count ')' := by omega
  unfold ofLines groups
  rw [List.map_cons, gather, if_neg fun h => hne h.1, if_pos hcount]
  rfl

/-- A clean line that leaves no parenthesis open is a logical line. -/
theorem ofLines_cons_of_clean {l : Text} (hclean : clean l = l) (hne : l ≠ [])
    (hcount : l.count '(' ≤ l.count ')') (ls : List Text) :
    ofLines (l :: ls) = l :: ofLines ls := by
  rw [ofLines_cons_of_closed (by rwa [hclean]) (by rwa [hclean]), hclean]

theorem gather_of_open {pending : List Text} (hne : pending ≠ []) {depth : Nat} (hd : 0 < depth)
    {lines : List Text} (h : ∀ l ∈ lines, '(' ∉ l ∧ ')' ∉ l) :
    gather pending depth lines = [pending ++ lines] := by
  induction lines generalizing pending depth with
  | nil => rw [gather, if_neg hne, List.append_nil]
  | cons l lines ih =>
    obtain ⟨hopen, hclose⟩ := h l List.mem_cons_self
    rw [gather, if_neg fun hb => hne hb.2, List.count_eq_zero.2 hopen, List.count_eq_zero.2 hclose,
      if_neg (by omega), ih (List.append_ne_nil_of_left_ne_nil hne _) (by omega)
        fun m hm => h m (List.mem_cons_of_mem l hm), List.append_assoc, List.singleton_append]

/-- A line that leaves a parenthesis open takes in all lines below when none of them closes it. -/
theorem ofLines_cons_of_open {l : Text} (hcount : (clean l).count ')' < (clean l).count '(')
    {ls : List Text} (h : ∀ m ∈ ls.map clean, '(' ∉ m ∧ ')' ∉ m) :
    ofLines (l :: ls) = [joined ((l :: ls).map clean)] := by
  have hne : clean l ≠ [] := by
    intro hnil
    rw [hnil] at hcount
    exact absurd hcount (by decide)
  have hopen : ¬ 0 + (clean l).count '(' ≤ (clean l).count ')' := by omega
  unfold ofLines groups
  rw [List.map_cons, gather, if_neg fun hb => hne hb.1, if_neg hopen, List.nil_append,
    gather_of_open (List.cons_ne_nil _ _) (by omega) h]
  rfl

theorem head?_joined (l : Text) (hne : l ≠ []) (ls : List Text) :
    (joined (l :: ls)).head? = l.head? := by
  cases ls with
  | nil => rfl
  | cons m ls =>
    unfold joined
    rw [join, List.append_assoc, List.head?_append_of_ne_nil _ hne]

/-- The first character of a line is kept when it is no blank and no number sign. -/
theorem head?_clean {l : Text} {c : Char} (hl : l.head? = some c) (hb : isBlank c = false)
    (hc : c ≠ '#') : (clean l).head? = some c := by
  have hcut : (cut l).head? = some c := by
    rw [head?_cut (by rw [hl]; exact fun h => hc (Option.some.inj h)), hl]
  obtain ⟨t, ht⟩ := List.head?_eq_some_iff.1 hcut
  have hkept := trimEnd_append_cons hb [] t
  unfold clean trim
  rw [ht, trimStart_of_stops (.cons hb t)]
  rw [List.nil_append, List.nil_append] at hkept
  rw [hkept]
  rfl

end LogicalLine

/-! ## Lines without a field -/

namespace LineShape

/-- A line that ends with a parenthesis goes on. -/
theorem isLineEnd_of_getLast? {t : Text} (h : t.getLast? = some ')') :
    isLineEnd t = false := by
  have hlast : (trimStart t).getLast? = some ')' := getLast?_dropWhile h (by decide)
  have hnil : trimStart t ≠ [] := fun he => by
    rw [he] at hlast
    cases hlast
  have hcomma : trimStart t ≠ [','] := fun he => by
    rw [he] at hlast
    cases hlast
  unfold isLineEnd
  rw [beq_eq_false_iff_ne.2 hnil, beq_eq_false_iff_ne.2 hcomma]
  rfl

end LineShape

namespace Selection

/-- A line that does not start with a name holds no field. -/
theorem neither_of_head {l : Text} {c : Char} (h : l.head? = some c)
    (hc : isNameChar c = false) : LineShape.opening? l = none ∧ leaf? l = none := by
  have hname : name? l = none := by
    refine name?_eq_none ?_
    intro d hd
    rw [Option.mem_def, h] at hd
    cases hd
    exact hc
  refine ⟨?_, ?_⟩
  · unfold LineShape.opening?
    rw [hname]
    rfl
  · unfold leaf? LineShape.simple? LineShape.aliased?
    rw [hname]
    rfl

theorem fieldsFrom_of_neither {line : Text}
    (h : LineShape.opening? line = none ∧ leaf? line = none) (owner : Text) (taken : List Text) :
    fieldsFrom owner taken [line] = [] := by
  by_cases hb : line.count '}' < line.count '{'
  · rw [fieldsFrom_skip h.1 h.2 hb, List.drop_nil, fieldsFrom_nil]
  · rw [fieldsFrom_unrecognised h.1 h.2 hb, fieldsFrom_nil]

/-- What is left of a line that does not start with a name is there and does not either. -/
theorem neither_clean {l : Text} {c : Char} (hl : l.head? = some c) (hb : isBlank c = false)
    (hsign : c ≠ '#') (hc : isNameChar c = false) :
    LogicalLine.clean l ≠ []
      ∧ LineShape.opening? (LogicalLine.clean l) = none ∧ leaf? (LogicalLine.clean l) = none := by
  have hclean := LogicalLine.head?_clean hl hb hsign
  refine ⟨?_, neither_of_head hclean hc⟩
  intro hnil
  rw [hnil] at hclean
  cases hclean

/-- A line that does not start with a name holds no field. -/
theorem fields_singleton_of_head {l : Text} {c : Char} (hl : l.head? = some c)
    (hb : isBlank c = false) (hsign : c ≠ '#') (hc : isNameChar c = false) (owner : Text) :
    fields owner [l] = [] := by
  obtain ⟨hne, hneither⟩ := neither_clean hl hb hsign hc
  rw [← fieldsFrom_ofLines, LogicalLine.ofLines_singleton hne]
  exact fieldsFrom_of_neither hneither owner []

/-- Lines that are joined to one that does not start with a name hold no field. -/
theorem fields_of_open {l : Text} {c : Char} (hl : l.head? = some c) (hb : isBlank c = false)
    (hsign : c ≠ '#') (hc : isNameChar c = false)
    (hcount : (LogicalLine.clean l).count ')' < (LogicalLine.clean l).count '(') {ls : List Text}
    (h : ∀ m ∈ ls.map LogicalLine.clean, '(' ∉ m ∧ ')' ∉ m) (owner : Text) :
    fields owner (l :: ls) = [] := by
  obtain ⟨hne, -⟩ := neither_clean hl hb hsign hc
  have hjoined := LogicalLine.head?_joined _ hne (ls.map LogicalLine.clean)
  rw [LogicalLine.head?_clean hl hb hsign] at hjoined
  rw [← fieldsFrom_ofLines, LogicalLine.ofLines_cons_of_open hcount h, List.map_cons]
  exact fieldsFrom_of_neither (neither_of_head hjoined hc) owner []

/-! ## Lines with a field -/

section

variable {c : Char} (hc : isNameChar c = true)

include hc

theorem name?_letter : name? [c] = some ([c], []) :=
  name?_of_letters (List.cons_ne_nil c []) (List.forall_mem_singleton.2 hc)

/-- A letter alone is a field. -/
theorem leaf?_letter : leaf? [c] = some ([c], Field.scalarType) := by
  have htail : LineShape.skipTail [] = [] := LineShape.skipTail_of_head (by decide) (by decide)
  unfold leaf?
  rw [LineShape.simple?_of_end (name?_letter hc) htail]
  rfl

theorem fieldsFrom_letter (owner : Text) (taken rest : List Text) :
    fieldsFrom owner taken ([c] :: rest)
      = if [c] ∈ taken then fieldsFrom owner taken rest
        else ⟨[c], Field.scalarType, []⟩ :: fieldsFrom owner ([c] :: taken) rest := by
  have hbrace : '{' ∉ [c] := by
    intro hm
    rw [← List.mem_singleton.1 hm] at hc
    revert hc
    decide
  exact fieldsFrom_leaf (LineShape.opening?_eq_none hbrace) (leaf?_letter hc)

/-- A letter with arguments, behind which nothing is left, is a field. -/
theorem leaf?_arguments {t : Text} (hclose : ')' ∈ t)
    (hafter : LineShape.skipDirectives (after ')' t) = []) :
    leaf? (c :: '(' :: t) = some ([c], Field.scalarType) := by
  have hstops : Stops isNameChar ('(' :: t) := .cons (by decide) t
  have hname : name? (c :: '(' :: t) = some ([c], '(' :: t) := by
    have happ := name?_append hstops [c]
    rwa [name?_letter hc] at happ
  have htail : LineShape.skipTail ('(' :: t) = [] :=
    (LineShape.skipTail_of_arguments rfl hclose).trans hafter
  unfold leaf?
  rw [LineShape.simple?_of_end hname htail]
  rfl

end

end Selection

end GqlScan
