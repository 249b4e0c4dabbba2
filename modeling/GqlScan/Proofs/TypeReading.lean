import GqlScan.Proofs.CleanText
import GqlScan.Proofs.Readers
import GqlScan.Proofs.SelectionLines
import GqlScan.Schema

/-!
# Reading the fields and headers of types

The fields of a line, the name in the header of a type and the mark of a table are looked for from
left to right. So what is read from the front of a text stays the same when more text follows,
provided that nothing behind it can go on with what was being read. A field can go on in three ways:
with letters of its name or type, with the colon or the parenthesis that its name waits for, or with
the end of arguments that are open and the type behind them.

Main statements: `fieldsIn_append`, `hasTableDirective_append` and `headed?_append`.
-/

namespace GqlScan.Schema

open Text

/-! ## Types -/

/-- The type at the front of a text, behind blanks and a colon, and the text after it. -/
def typed? (t : Text) : Option (Text × Text) :=
  match trimStart t with
  | ':' :: rest => type? (trimStart rest)
  | _ => none

theorem typed?_of_colon {t rest : Text} (h : trimStart t = ':' :: rest) :
    typed? t = type? (trimStart rest) := by
  unfold typed?
  simp only [h]

theorem typed?_of_no_colon {t : Text} (h : (trimStart t).head? ≠ some ':') : typed? t = none := by
  unfold typed?
  split
  · rename_i rest hrest
    rw [hrest] at h
    exact absurd rfl h
  · rfl

/-- A text behind which no type goes on: past its blanks stand neither a letter of a type nor a
colon. -/
abbrev EndsType (v : Text) : Prop := Variable.Ends v

theorem isTypeChar_of_starts_type {c : Char} (h : (c.isAlpha || c == '_') = true) :
    isTypeChar c = true := by
  apply isTypeChar_of_isNameChar
  unfold isNameChar Char.isAlphanum
  rw [Bool.or_eq_true] at h
  rcases h with h | h
  · rw [h]
    rfl
  · rw [h, Bool.or_true]

theorem type?_eq_none {v : Text} (hv : Stops isTypeChar v) : type? v = none := by
  cases v with
  | nil => rfl
  | cons c v =>
    have hbracket : ¬ (c == '[') = true := by
      rw [beq_iff_eq]
      rintro rfl
      exact absurd hv.head (by decide)
    have hdrop : (c :: v).dropWhile (· == '[') = c :: v := List.dropWhile_cons_of_neg hbracket
    have hletter : ¬ (c.isAlpha || c == '_') = true := fun h => by
      have := hv.head
      rw [isTypeChar_of_starts_type h] at this
      cases this
    unfold type?
    rw [hdrop, List.head?_cons, Option.any_some, if_neg hletter]

theorem type?_append {v : Text} (hv : Stops isTypeChar v) (t : Text) :
    type? (t ++ v) = (type? t).map fun found => (found.1, found.2 ++ v) := by
  have hbrackets : Stops (· == '[') v := by
    intro c hc
    rw [beq_eq_false_iff_ne]
    rintro rfl
    exact absurd (hv '[' hc) (by decide)
  unfold type?
  rw [dropWhile_append_of_stops hbrackets, takeWhile_append_of_stops hv,
    dropWhile_append_of_stops hv]
  cases hd : t.dropWhile (· == '[') with
  | nil =>
    -- nothing but brackets in front, and no letter behind them
    have hletter : ¬ (v.head?.any fun c => c.isAlpha || c == '_') = true := by
      intro h
      obtain ⟨c, hc, hstarts⟩ := (Option.any_eq_true _ _).1 h
      have := hv c hc
      rw [isTypeChar_of_starts_type hstarts] at this
      cases this
    rw [List.nil_append, if_neg hletter]
    rfl
  | cons c rest =>
    rw [List.cons_append, List.head?_cons, List.head?_cons]
    split
    · rfl
    · rfl

theorem typed?_append {v : Text} (hv : EndsType v) (t : Text) :
    typed? (t ++ v) = (typed? t).map fun found => (found.1, found.2 ++ v) := by
  cases ht : trimStart t with
  | nil =>
    have hnone : typed? t = none := typed?_of_no_colon (by rw [ht]; decide)
    have happ : typed? (t ++ v) = none := by
      refine typed?_of_no_colon ?_
      rw [trimStart_append_of_eq_nil ht]
      exact hv.colon
    rw [hnone, happ]
    rfl
  | cons d rest =>
    have happ : trimStart (t ++ v) = d :: (rest ++ v) := by
      rw [trimStart_append_of_ne_nil (by rw [ht]; exact List.cons_ne_nil _ _), ht]
      rfl
    by_cases hd : d = ':'
    · subst hd
      rw [typed?_of_colon ht, typed?_of_colon happ]
      by_cases hrest : trimStart rest = []
      · rw [trimStart_append_of_eq_nil hrest, hrest, type?_eq_none hv.letters]
        rfl
      · rw [trimStart_append_of_ne_nil hrest, type?_append hv.stops]
    · have hcolon : some d ≠ some ':' := fun h => hd (Option.some.inj h)
      have hfront : typed? t = none := typed?_of_no_colon (by rw [ht]; exact hcolon)
      have hwhole : typed? (t ++ v) = none := typed?_of_no_colon (by rw [happ]; exact hcolon)
      rw [hfront, hwhole]
      rfl

/-! ## Fields -/

theorem field?_of_name {t name more : Text} (h : name? t = some (name, more)) :
    field? t = (typed? (LineShape.skipArguments (trimStart more))).map fun found =>
      (⟨name, found.1, []⟩, found.2) := by
  unfold field?
  rw [h]
  simp only [Option.bind_eq_bind, Option.bind_some]
  split
  · rename_i rest hrest
    rw [typed?_of_colon hrest]
    cases type? (trimStart rest) <;> rfl
  · rename_i hcolon
    have hnone : typed? (LineShape.skipArguments (trimStart more)) = none := by
      refine typed?_of_no_colon fun hhead => ?_
      obtain ⟨rest, hrest⟩ := List.head?_eq_some_iff.1 hhead
      exact hcolon rest hrest
    rw [hnone]
    rfl

theorem field?_of_no_name {t : Text} (h : name? t = none) : field? t = none := by
  unfold field?
  rw [h]
  rfl

/-- A text behind which no field goes on: no letter, no colon and no opening parenthesis past its
blanks, and no type behind the end of arguments that were open before it. -/
structure EndsField (v : Text) : Prop where
  type : EndsType v
  parenthesis : (trimStart v).head? ≠ some '('
  arguments : ')' ∈ v → typed? (after ')' v) = none

/-- Behind arguments that never end there is no type. -/
theorem typed?_of_open_arguments {rest : Text} (h : ')' ∉ rest) :
    typed? (LineShape.skipArguments ('(' :: rest)) = none := by
  have hopen : ')' ∉ '(' :: rest :=
    fun hm => h ((List.mem_cons.1 hm).resolve_left (by decide))
  have hblank : isBlank '(' = false := by decide
  refine typed?_of_no_colon ?_
  rw [LineShape.skipArguments_of_not_mem hopen, trimStart_of_stops (.cons hblank rest),
    List.head?_cons]
  decide

/-- What is read behind a name is not disturbed by what follows. -/
theorem typed?_skipArguments_append {v : Text} (hv : EndsField v) (t : Text) :
    typed? (LineShape.skipArguments (trimStart (t ++ v)))
      = (typed? (LineShape.skipArguments (trimStart t))).map fun found =>
          (found.1, found.2 ++ v) := by
  cases ht : trimStart t with
  | nil =>
    have hnone : typed? (trimStart v) = none := by
      refine typed?_of_no_colon ?_
      rw [trimStart_trimStart]
      exact hv.type.colon
    rw [trimStart_append_of_eq_nil ht, LineShape.skipArguments_of_head hv.parenthesis, hnone]
    rfl
  | cons d rest =>
    have happ : trimStart (t ++ v) = d :: (rest ++ v) := by
      rw [trimStart_append_of_ne_nil (by rw [ht]; exact List.cons_ne_nil _ _), ht]
      rfl
    rw [happ]
    by_cases hd : d = '('
    · subst hd
      by_cases hrest : ')' ∈ rest
      · rw [LineShape.skipArguments_of_mem hrest,
          LineShape.skipArguments_of_mem (List.mem_append_left v hrest), after_append_of_mem hrest,
          typed?_append hv.type]
      · rw [typed?_of_open_arguments hrest]
        -- the arguments are open in front: they end behind, where no type follows, or never
        by_cases hmem : ')' ∈ v
        · rw [LineShape.skipArguments_of_mem (List.mem_append_right rest hmem),
            after_append_of_not_mem hrest, hv.arguments hmem]
          rfl
        · have hnever : ')' ∉ rest ++ v := fun h => (List.mem_append.1 h).elim hrest hmem
          rw [typed?_of_open_arguments hnever]
          rfl
    · have hhead : some d ≠ some '(' := fun h => hd (Option.some.inj h)
      rw [LineShape.skipArguments_of_head (t := d :: rest) hhead,
        LineShape.skipArguments_of_head (t := d :: (rest ++ v)) hhead]
      exact typed?_append hv.type (d :: rest)

theorem field?_append {v : Text} (hv : EndsField v) (t : Text) :
    field? (t ++ v) = (field? t).map fun found => (found.1, found.2 ++ v) := by
  have happ := name?_append hv.type.stops_name t
  cases hn : name? t with
  | none =>
    rw [hn] at happ
    rw [field?_of_no_name happ, field?_of_no_name hn]
    rfl
  | some named =>
    obtain ⟨name, more⟩ := named
    rw [hn] at happ
    rw [field?_of_name happ, field?_of_name hn, typed?_skipArguments_append hv, Option.map_map,
      Option.map_map]
    rfl

theorem fieldsIn_cons_of_some {c : Char} {rest more : Text} {f : Field}
    (h : field? (c :: rest) = some (f, more)) : fieldsIn (c :: rest) = f :: fieldsIn more := by
  rw [fieldsIn]
  split
  · rename_i heq
    rw [h] at heq
    cases heq
    rfl
  · rename_i heq
    rw [h] at heq
    cases heq

theorem fieldsIn_cons_of_none {c : Char} {rest : Text} (h : field? (c :: rest) = none) :
    fieldsIn (c :: rest) = fieldsIn rest := by
  rw [fieldsIn]
  split
  · rename_i heq
    rw [h] at heq
    cases heq
  · rfl

theorem fieldsIn_nil : fieldsIn [] = [] := by rw [fieldsIn]

/-- No field starts at a character that no name starts with. -/
theorem fieldsIn_cons_of_stops {c : Char} (hc : isNameChar c = false) (t : Text) :
    fieldsIn (c :: t) = fieldsIn t :=
  fieldsIn_cons_of_none (field?_of_no_name (name?_eq_none (.cons hc t)))

theorem fieldsIn_append_of_no_letter {t : Text} (h : ∀ c ∈ t, isNameChar c = false) (v : Text) :
    fieldsIn (t ++ v) = fieldsIn v := by
  induction t with
  | nil => rfl
  | cons c t ih =>
    rw [List.cons_append, fieldsIn_cons_of_stops (h c List.mem_cons_self),
      ih fun d hd => h d (List.mem_cons_of_mem c hd)]

theorem fieldsIn_blanks_append {b : Text} (hb : Blanks b) (v : Text) :
    fieldsIn (b ++ v) = fieldsIn v :=
  fieldsIn_append_of_no_letter (fun c hc => isNameChar_eq_false_of_isBlank (hb c hc)) v

/-- **The fields of a text are found whatever follows it**, and the search goes on behind. -/
theorem fieldsIn_append {v : Text} (hv : EndsField v) (t : Text) :
    fieldsIn (t ++ v) = fieldsIn t ++ fieldsIn v := by
  fun_induction fieldsIn t with
  | case1 => rfl
  | case2 c rest f more hf _ ih =>
    have happ : field? (c :: (rest ++ v)) = some (f, more ++ v) := by
      rw [← List.cons_append, field?_append hv, hf]
      rfl
    rw [List.cons_append, fieldsIn_cons_of_some happ, ih, List.cons_append]
  | case3 c rest hf ih =>
    have happ : field? (c :: (rest ++ v)) = none := by
      rw [← List.cons_append, field?_append hv, hf]
      rfl
    rw [List.cons_append, fieldsIn_cons_of_none happ, ih]

/-- Blanks go on with nothing. -/
theorem endsField_blanks {b : Text} (hb : Blanks b) : EndsField b := by
  have htrim : trimStart b = [] := trimStart_eq_nil_iff.2 hb
  refine ⟨⟨?_, ?_⟩, ?_, fun hmem => absurd hmem (hb.not_mem (by decide))⟩
  · unfold StopsPastBlanks
    rw [htrim]
    exact .nil _
  · rw [htrim]
    decide
  · rw [htrim]
    decide

/-- A line has the fields of its trimmed form. -/
theorem fieldsIn_trimEnd (t : Text) : fieldsIn (trimEnd t) = fieldsIn t := by
  obtain ⟨b, hb, hblanks⟩ := exists_trimEnd_append t
  have hnone : fieldsIn b = [] := by
    have := fieldsIn_blanks_append hblanks []
    rwa [List.append_nil, fieldsIn_nil] at this
  conv => rhs; rw [hb, fieldsIn_append (endsField_blanks hblanks), hnone, List.append_nil]

/-- Where a text has no field, no end of it has one. -/
theorem fieldsIn_eq_nil_of_suffix {t u : Text} (h : fieldsIn t = []) (hu : u <:+ t) :
    fieldsIn u = [] := by
  induction t with
  | nil =>
    rw [List.suffix_nil.1 hu]
    exact fieldsIn_nil
  | cons c t ih =>
    rcases List.suffix_cons_iff.1 hu with rfl | hu
    · exact h
    · cases hf : field? (c :: t) with
      | none =>
        rw [fieldsIn_cons_of_none hf] at h
        exact ih h hu
      | some found =>
        obtain ⟨f, more⟩ := found
        rw [fieldsIn_cons_of_some hf] at h
        cases h

/-! ## Blanks and words -/

/-- The codes of the blank characters. -/
def blankCodes : List Nat :=
  List.range' 0x09 5 ++ List.range' 0x1C 5 ++ [0x85, 0xA0, 0x1680] ++ List.range' 0x2000 11
    ++ [0x2028, 0x2029, 0x202F, 0x205F, 0x3000]

theorem toNat_mem_blankCodes {c : Char} (h : isBlank c = true) : c.toNat ∈ blankCodes := by
  unfold isBlank at h
  simp only [Bool.or_eq_true, Bool.and_eq_true, decide_eq_true_eq, beq_iff_eq] at h
  simp only [blankCodes, List.mem_append, List.mem_range'_1, List.mem_cons, List.not_mem_nil,
    or_false]
  omega

/-- No blank belongs to a word. -/
theorem isWordChar_eq_false_of_isBlank {c : Char} (h : isBlank c = true) :
    isWordChar c = false := by
  have hcodes : ∀ n ∈ blankCodes, isWordChar (Char.ofNat n) = false := by decide +kernel
  rw [← Char.ofNat_toNat c]
  exact hcodes _ (toNat_mem_blankCodes h)

/-! ## Marks -/

/-- A table directive that stands in front of a text is not completed by what follows. -/
theorem isPrefixOf?_tableDirective_append {v : Text} (hv : Stops isNameChar v) (c : Char)
    (t : Text) :
    tableDirective.isPrefixOf? (c :: (t ++ v))
      = (tableDirective.isPrefixOf? (c :: t)).map (· ++ v) := by
  have hletters : ∀ d ∈ tableDirective.tail, isNameChar d = true := List.all_eq_true.1 (by decide)
  have happ := isPrefixOf?_append hletters hv t
  change (if '@' == c then tableDirective.tail.isPrefixOf? (t ++ v) else none)
    = (if '@' == c then tableDirective.tail.isPrefixOf? t else none).map (· ++ v)
  split
  · exact happ
  · rfl

theorem hasTableDirective_cons (c : Char) (t : Text) :
    hasTableDirective (c :: t)
      = ((tableDirective.isPrefixOf? (c :: t)).any (fun more => !more.head?.any isWordChar)
          || hasTableDirective t) := by
  rw [hasTableDirective]
  cases tableDirective.isPrefixOf? (c :: t) with
  | none => rfl
  | some more => rfl

/-- **The mark of a table is found whatever follows it**, unless it runs on as a longer word. -/
theorem hasTableDirective_append {v : Text} (hv : Stops isWordChar v) (t : Text) :
    hasTableDirective (t ++ v) = (hasTableDirective t || hasTableDirective v) := by
  have hname : Stops isNameChar v := by
    intro c hc
    cases hn : isNameChar c with
    | false => rfl
    | true =>
      have := hv c hc
      rw [isWordChar_of_isNameChar hn] at this
      cases this
  induction t with
  | nil => rfl
  | cons c t ih =>
    rw [List.cons_append, hasTableDirective_cons, hasTableDirective_cons, ih,
      isPrefixOf?_tableDirective_append hname, Bool.or_assoc]
    cases tableDirective.isPrefixOf? (c :: t) with
    | none => rfl
    | some more =>
      cases more with
      | nil =>
        -- the mark ends the text in front, and no word goes on behind it
        have hword : v.head?.any isWordChar = false := by
          cases v with
          | nil => rfl
          | cons d v => exact hv.head
        rw [Option.map_some, Option.any_some, Option.any_some, List.nil_append, hword]
        rfl
      | cons d more => rfl

theorem hasTableDirective_append_of_no_at {t : Text} (h : '@' ∉ t) (v : Text) :
    hasTableDirective (t ++ v) = hasTableDirective v := by
  induction t with
  | nil => rfl
  | cons c t ih =>
    have hc : ('@' == c) = false := by
      rw [beq_eq_false_iff_ne]
      rintro rfl
      exact h List.mem_cons_self
    have hnone : tableDirective.isPrefixOf? (c :: (t ++ v)) = none := by
      change (if '@' == c then _ else none) = none
      rw [hc, if_neg Bool.false_ne_true]
    rw [List.cons_append, hasTableDirective_cons, hnone,
      ih fun hm => h (List.mem_cons_of_mem c hm)]
    rfl

/-! ## Headers -/

/-- The name in the header of a type, and the text after it. -/
def headed? (line : Text) : Option (Text × Text) := do
  let more ← typeKeyword.isPrefixOf? line
  if more.head?.any isBlank then name? (trimStart more) else none

/-- The type that starts with a name and the rest of its line. -/
def started (name rest : Text) : TypeDefinition :=
  ⟨name, fieldsIn (after '{' rest), hasTableDirective (before '{' rest)⟩

theorem header?_eq (line : Text) :
    header? line = (headed? line).map fun found => started found.1 found.2 := by
  unfold header? headed?
  cases typeKeyword.isPrefixOf? line with
  | none => rfl
  | some more =>
    simp only [Option.bind_eq_bind, Option.bind_some]
    split
    · cases name? (trimStart more) <;> rfl
    · rfl

theorem header?_eq_none_iff {line : Text} : header? line = none ↔ headed? line = none := by
  rw [header?_eq, Option.map_eq_none_iff]

/-- A line that does not start with the keyword is no header. -/
theorem header?_eq_none_of_head {c : Char} (hc : c ≠ 't') (t : Text) :
    header? (c :: t) = none := by
  have hkeyword : typeKeyword.isPrefixOf? (c :: t) = none := by
    change (if 't' == c then _ else none) = none
    rw [beq_false_of_ne hc.symm, if_neg Bool.false_ne_true]
  unfold header?
  rw [hkeyword]
  rfl

/-- **The name in a header is found whatever follows it.** -/
theorem headed?_append {v : Text} (hv : StopsPastBlanks isNameChar v) (t : Text) :
    headed? (t ++ v) = (headed? t).map fun found => (found.1, found.2 ++ v) := by
  have hletters : ∀ c ∈ typeKeyword, isNameChar c = true := List.all_eq_true.1 (by decide)
  unfold headed?
  rw [isPrefixOf?_append hletters (hv.stops fun c => isBlank_eq_false_of_isNameChar)]
  cases typeKeyword.isPrefixOf? t with
  | none => rfl
  | some more =>
    simp only [Option.map_some, Option.bind_eq_bind, Option.bind_some]
    cases more with
    | nil =>
      -- the keyword ends the text, and what follows has no name to offer
      rw [List.nil_append, name?_eq_none hv, ite_self]
      rfl
    | cons c more =>
      rw [Header.name?_trimStart_append hv, List.cons_append, List.head?_cons, List.head?_cons]
      split
      · rfl
      · rfl

end GqlScan.Schema
