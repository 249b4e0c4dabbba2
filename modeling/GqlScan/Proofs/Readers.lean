import Mathlib.Data.List.Basic
import Mathlib.Data.List.TakeWhile
import GqlScan.Header
import GqlScan.Operation

/-!
# Reading a text with more behind it

Names, headers and variables are read as far as they go. So what is read from the front of a text
stays the same when more text follows, provided that nothing behind it can go on with what was
being read: `Stops` says this of the text behind.

Main statements: `locate?_append` for headers and `inLine_append` for variables.
-/

namespace GqlScan

open Text

namespace Text

/-- A text at which a run of characters ends. -/
def Stops (p : Char → Bool) (v : Text) : Prop := ∀ c ∈ v.head?, p c = false

theorem Stops.nil (p : Char → Bool) : Stops p [] := fun c hc => by cases hc

theorem Stops.cons {p : Char → Bool} {c : Char} (h : p c = false) (v : Text) : Stops p (c :: v) :=
  fun d hd => by
    cases hd
    exact h

theorem Stops.head {p : Char → Bool} {c : Char} {v : Text} (h : Stops p (c :: v)) :
    p c = false := h c rfl

theorem Stops.append {p : Char → Bool} {t : Text} (h : Stops p t) (hne : t ≠ []) (u : Text) :
    Stops p (t ++ u) := by
  intro c hc
  rw [List.head?_append_of_ne_nil _ hne] at hc
  exact h c hc

theorem takeWhile_append_of_stops {p : Char → Bool} {v : Text} (hv : Stops p v) (t : Text) :
    (t ++ v).takeWhile p = t.takeWhile p := by
  induction t with
  | nil =>
    cases v with
    | nil => rfl
    | cons c v =>
      rw [List.nil_append, List.takeWhile_cons_of_neg (Bool.eq_false_iff.1 hv.head)]
      rfl
  | cons c t ih =>
    rw [List.cons_append, List.takeWhile_cons, List.takeWhile_cons, ih]

theorem dropWhile_append_of_stops {p : Char → Bool} {v : Text} (hv : Stops p v) (t : Text) :
    (t ++ v).dropWhile p = t.dropWhile p ++ v := by
  induction t with
  | nil =>
    cases v with
    | nil => rfl
    | cons c v =>
      rw [List.nil_append, List.dropWhile_cons_of_neg (Bool.eq_false_iff.1 hv.head)]
      rfl
  | cons c t ih =>
    rw [List.cons_append, List.dropWhile_cons, List.dropWhile_cons, ih]
    split <;> rfl

/-! ## Cutting at a character -/

theorem after_append_of_mem {c : Char} {t : Text} (h : c ∈ t) (v : Text) :
    after c (t ++ v) = after c t ++ v := by
  unfold after
  induction t with
  | nil => cases h
  | cons d t ih =>
    rw [List.cons_append]
    by_cases hd : d = c
    · subst hd
      rw [List.dropWhile_cons_of_neg (by simp), List.dropWhile_cons_of_neg (by simp)]
      rfl
    · have ht : c ∈ t := by
        rcases List.mem_cons.1 h with rfl | h
        · exact absurd rfl hd
        · exact h
      rw [List.dropWhile_cons_of_pos (by simpa using hd),
        List.dropWhile_cons_of_pos (by simpa using hd), ih ht]

theorem after_append_of_not_mem {c : Char} {t : Text} (h : c ∉ t) (v : Text) :
    after c (t ++ v) = after c v := by
  have hpos : ∀ d ∈ t, (d != c) = true := by
    intro d hd
    rw [bne_iff_ne]
    rintro rfl
    exact h hd
  unfold after
  rw [List.dropWhile_append_of_pos hpos]

theorem after_of_not_mem {c : Char} {t : Text} (h : c ∉ t) : after c t = [] := by
  have := after_append_of_not_mem h []
  rwa [List.append_nil] at this

theorem before_append_of_mem {c : Char} {t : Text} (h : c ∈ t) (v : Text) :
    before c (t ++ v) = before c t := by
  unfold before
  rw [List.takeWhile_append, if_neg]
  intro hlength
  have hall := List.takeWhile_eq_self_iff.1
    ((List.takeWhile_prefix (· != c)).eq_of_length hlength) c h
  rw [bne_self_eq_false] at hall
  cases hall

theorem before_append_of_not_mem {c : Char} {t : Text} (h : c ∉ t) (v : Text) :
    before c (t ++ v) = t ++ before c v := by
  have hpos : ∀ d ∈ t, (d != c) = true := by
    intro d hd
    rw [bne_iff_ne]
    rintro rfl
    exact h hd
  unfold before
  rw [List.takeWhile_append_of_pos hpos]

theorem before_of_not_mem {c : Char} {t : Text} (h : c ∉ t) : before c t = t := by
  have hnil : before c [] = [] := rfl
  have := before_append_of_not_mem h []
  rwa [hnil, List.append_nil] at this

/-! ## Blanks -/

theorem trimStart_cons_of_blank {c : Char} (h : isBlank c = true) (t : Text) :
    trimStart (c :: t) = trimStart t := List.dropWhile_cons_of_pos h

theorem trimStart_of_stops {t : Text} (h : Stops isBlank t) : trimStart t = t := by
  have := dropWhile_append_of_stops h []
  rwa [List.nil_append, List.dropWhile_nil, List.nil_append] at this

theorem stops_dropWhile (p : Char → Bool) (t : Text) : Stops p (t.dropWhile p) := by
  intro c hc
  have hhead := List.head?_dropWhile_not p t
  rwa [hc] at hhead

theorem stops_trimStart (t : Text) : Stops isBlank (trimStart t) := stops_dropWhile isBlank t

theorem trimStart_append_of_eq_nil {t : Text} (h : trimStart t = []) (v : Text) :
    trimStart (t ++ v) = trimStart v := by
  induction t with
  | nil => rfl
  | cons c t ih =>
    by_cases hc : isBlank c = true
    · rw [trimStart_cons_of_blank hc] at h
      rw [List.cons_append, trimStart_cons_of_blank hc, ih h]
    · rw [trimStart_of_stops (.cons (Bool.eq_false_iff.2 hc) t)] at h
      cases h

theorem trimStart_append_of_ne_nil {t : Text} (h : trimStart t ≠ []) (v : Text) :
    trimStart (t ++ v) = trimStart t ++ v := by
  induction t with
  | nil => exact absurd rfl h
  | cons c t ih =>
    by_cases hc : isBlank c = true
    · rw [trimStart_cons_of_blank hc] at h ⊢
      rw [List.cons_append, trimStart_cons_of_blank hc, ih h]
    · have hs : Stops isBlank (c :: t) := .cons (Bool.eq_false_iff.2 hc) t
      have hs' : Stops isBlank (c :: t ++ v) := .cons (Bool.eq_false_iff.2 hc) (t ++ v)
      rw [trimStart_of_stops hs, trimStart_of_stops hs']

/-- A text at which a run ends even when blanks may stand before what follows. -/
def StopsPastBlanks (p : Char → Bool) (v : Text) : Prop := Stops p (trimStart v)

theorem StopsPastBlanks.cons {p : Char → Bool} {c : Char} (hb : isBlank c = false)
    (hp : p c = false) (v : Text) : StopsPastBlanks p (c :: v) := by
  unfold StopsPastBlanks
  rw [trimStart_of_stops (.cons hb v)]
  exact .cons hp v

/-- If no run goes on past the blanks, none goes on before them, for a blank ends it. -/
theorem StopsPastBlanks.stops {p : Char → Bool} {v : Text} (h : StopsPastBlanks p v)
    (hp : ∀ c, p c = true → isBlank c = false) : Stops p v := by
  intro c hc
  cases v with
  | nil => cases hc
  | cons d v =>
    cases hc
    cases hb : isBlank c with
    | true =>
      rw [← Bool.not_eq_true]
      intro hpc
      rw [hp c hpc] at hb
      cases hb
    | false =>
      unfold StopsPastBlanks at h
      rw [trimStart_of_stops (.cons hb v)] at h
      exact h.head

/-- The letters of a name are ASCII. -/
theorem toNat_lt_of_isNameChar {c : Char} (h : isNameChar c = true) : c.toNat < 0x80 := by
  delta isNameChar Char.isAlphanum Char.isAlpha Char.isUpper Char.isLower Char.isDigit at h
  simp only [Bool.or_eq_true, Bool.and_eq_true, decide_eq_true_eq, beq_iff_eq, ge_iff_le,
    UInt32.le_iff_toNat_le] at h
  rcases h with ((h | h) | h) | h
  · exact Nat.lt_of_le_of_lt h.2 (by decide)
  · exact Nat.lt_of_le_of_lt h.2 (by decide)
  · exact Nat.lt_of_le_of_lt h.2 (by decide)
  · rw [h]
    decide

theorem isTypeChar_of_isNameChar {c : Char} (h : isNameChar c = true) : isTypeChar c = true := by
  unfold isTypeChar
  rw [h]
  rfl

theorem isBlank_eq_false_of_isTypeChar {c : Char} (h : isTypeChar c = true) :
    isBlank c = false := by
  unfold isTypeChar at h
  simp only [Bool.or_eq_true, beq_iff_eq] at h
  rcases h with ((h | rfl) | rfl) | rfl
  · exact isBlank_eq_false_of_isNameChar h
  · decide
  · decide
  · decide

theorem isNameChar_eq_false_of_isBlank {c : Char} (h : isBlank c = true) :
    isNameChar c = false := by
  cases hn : isNameChar c with
  | false => rfl
  | true =>
    rw [isBlank_eq_false_of_isNameChar hn] at h
    cases h

/-! ## Names -/

theorem name?_append {v : Text} (hv : Stops isNameChar v) (t : Text) :
    name? (t ++ v) = (name? t).map fun found => (found.1, found.2 ++ v) := by
  unfold name?
  rw [takeWhile_append_of_stops hv, dropWhile_append_of_stops hv]
  split <;> rfl

theorem name?_eq_none {v : Text} (hv : Stops isNameChar v) : name? v = none := by
  have := name?_append hv []
  rwa [List.nil_append] at this

theorem name?_of_letters {n : Text} (hne : n ≠ []) (hn : ∀ c ∈ n, isNameChar c = true) :
    name? n = some (n, []) := by
  have htake : n.takeWhile isNameChar = n := by
    rw [List.takeWhile_eq_self_iff]
    exact hn
  have hdrop : n.dropWhile isNameChar = [] := by
    rw [List.dropWhile_eq_nil_iff]
    exact hn
  unfold name?
  rw [htake, hdrop, if_neg hne]

/-- A name and what is behind it are the text that is read. -/
theorem append_of_name? {t n rest : Text} (h : name? t = some (n, rest)) : n ++ rest = t := by
  unfold name? at h
  split at h
  · cases h
  · cases h
    exact List.takeWhile_append_dropWhile

/-- A name is read as far as it goes. -/
theorem stops_of_name? {t n rest : Text} (h : name? t = some (n, rest)) :
    Stops isNameChar rest := by
  unfold name? at h
  split at h
  · cases h
  · cases h
    exact stops_dropWhile isNameChar t

end Text

/-! ## Headers -/

theorem OperationKind.keyword_letters (kind : OperationKind) :
    ∀ c ∈ kind.keyword, isNameChar c = true := by
  apply List.all_eq_true.1
  cases kind <;> decide

theorem isPrefixOf?_append {word v : Text} (hw : ∀ c ∈ word, isNameChar c = true)
    (hv : Stops isNameChar v) (t : Text) :
    word.isPrefixOf? (t ++ v) = (word.isPrefixOf? t).map (· ++ v) := by
  induction word generalizing t with
  | nil => rfl
  | cons k word ih =>
    cases t with
    | nil =>
      cases v with
      | nil => rfl
      | cons c v =>
        have hkc : (k == c) = false := by
          rw [beq_eq_false_iff_ne]
          rintro rfl
          have hk := hw k List.mem_cons_self
          rw [hv.head] at hk
          cases hk
        simp only [List.nil_append, List.isPrefixOf?, hkc]
        rfl
    | cons c t =>
      rw [List.cons_append, List.isPrefixOf?, List.isPrefixOf?,
        ih (fun d hd => hw d (List.mem_cons_of_mem k hd))]
      split <;> rfl

theorem OperationKind.ofFront?_append {v : Text} (hv : Stops isNameChar v) (t : Text) :
    ofFront? (t ++ v) = (ofFront? t).map fun found => (found.1, found.2 ++ v) := by
  unfold ofFront? all
  simp only [List.findSome?_cons, List.findSome?_nil,
    isPrefixOf?_append (keyword_letters _) hv]
  cases keyword query |>.isPrefixOf? t with
  | some rest => rfl
  | none =>
    cases keyword mutation |>.isPrefixOf? t with
    | some rest => rfl
    | none => cases keyword subscription |>.isPrefixOf? t <;> rfl

theorem OperationKind.ofFront?_keyword (kind : OperationKind) (t : Text) :
    ofFront? (kind.keyword ++ t) = some (kind, t) := by
  cases kind <;> rfl

theorem OperationKind.eq_keyword_append {kind : OperationKind} {t more : Text}
    (h : ofFront? t = some (kind, more)) : kind.keyword ++ more = t := by
  unfold ofFront? at h
  obtain ⟨k, _, hk⟩ := List.exists_of_findSome?_eq_some h
  obtain ⟨rest, hrest, he⟩ := Option.map_eq_some_iff.1 hk
  cases he
  exact List.append_eq_of_isPrefixOf?_eq_some hrest

theorem OperationKind.ofFront?_eq_none {v : Text} (hv : Stops isNameChar v) :
    ofFront? v = none := by
  have := ofFront?_append hv []
  rwa [List.nil_append] at this

namespace Header

/-- Reading a name behind blanks is not disturbed by what follows. -/
theorem name?_trimStart_append {v : Text} (hv : StopsPastBlanks isNameChar v) (t : Text) :
    name? (trimStart (t ++ v))
      = (name? (trimStart t)).map fun found => (found.1, found.2 ++ v) := by
  by_cases ht : trimStart t = []
  · rw [trimStart_append_of_eq_nil ht, ht, name?_eq_none hv]
    rfl
  · rw [trimStart_append_of_ne_nil ht]
    exact name?_append (hv.stops fun c => isBlank_eq_false_of_isNameChar) _

theorem front?_append {v : Text} (hv : StopsPastBlanks isNameChar v) (t : Text) :
    front? (t ++ v) = (front? t).map fun found => (found.1, found.2 ++ v) := by
  unfold front?
  rw [OperationKind.ofFront?_append (hv.stops fun c => isBlank_eq_false_of_isNameChar)]
  cases OperationKind.ofFront? t with
  | none => rfl
  | some found =>
    obtain ⟨kind, more⟩ := found
    simp only [Option.map_some, Option.bind_eq_bind, Option.bind_some]
    cases more with
    | nil =>
      -- the keyword ends the text, and what follows has no name to offer
      rw [List.nil_append, name?_eq_none hv, Option.bind_none, ite_self]
      rfl
    | cons c more =>
      rw [name?_trimStart_append hv, List.cons_append, List.head?_cons, List.head?_cons]
      split
      · cases name? (trimStart (c :: more)) <;> rfl
      · rfl

theorem front?_suffix {t rest : Text} {h : Header} (hf : front? t = some (h, rest)) :
    rest <:+ t := by
  unfold front? at hf
  cases hk : OperationKind.ofFront? t with
  | none =>
    rw [hk] at hf
    cases hf
  | some found =>
    obtain ⟨kind, more⟩ := found
    have hmore : more <:+ t := ⟨kind.keyword, OperationKind.eq_keyword_append hk⟩
    rw [hk] at hf
    simp only [Option.bind_eq_bind, Option.bind_some] at hf
    split at hf
    · cases hn : name? (trimStart more) with
      | none =>
        rw [hn] at hf
        cases hf
      | some named =>
        rw [hn] at hf
        cases hf
        exact ((name?_suffix hn).trans (trimStart_suffix more)).trans hmore
    · cases hf

theorem front?_eq_none {v : Text} (hv : Stops isNameChar v) : front? v = none := by
  unfold front?
  rw [OperationKind.ofFront?_eq_none hv]
  rfl

theorem locate?_suffix {t rest : Text} {h : Header} (hl : locate? t = some (h, rest)) :
    rest <:+ t := by
  induction t with
  | nil => cases hl
  | cons c t ih =>
    rw [locate?] at hl
    cases hf : front? (c :: t) with
    | some found =>
      rw [hf] at hl
      cases hl
      exact front?_suffix hf
    | none =>
      rw [hf] at hl
      exact (ih hl).trans (List.suffix_cons c t)

/-- What stands behind the header ends the line. -/
theorem after_suffix (line : Text) : after line <:+ line := by
  unfold after
  cases h : locate? line with
  | none => exact List.suffix_rfl
  | some found => exact locate?_suffix h

theorem locate?_cons_of_stops {c : Char} (hc : isNameChar c = false) (t : Text) :
    locate? (c :: t) = locate? t := by
  rw [locate?, front?_eq_none (.cons hc t)]

/-- Without a letter there is no header. -/
theorem locate?_eq_none_of_no_letter {t : Text} (h : ∀ c ∈ t, isNameChar c = false) :
    locate? t = none := by
  induction t with
  | nil => rfl
  | cons c t ih =>
    rw [locate?_cons_of_stops (h c List.mem_cons_self)]
    exact ih fun d hd => h d (List.mem_cons_of_mem c hd)

/-- **The header of a line is found whatever follows it**, and without a header in front the search
goes on behind. -/
theorem locate?_append {v : Text} (hv : StopsPastBlanks isNameChar v) (t : Text) :
    locate? (t ++ v)
      = match locate? t with
        | some found => some (found.1, found.2 ++ v)
        | none => locate? v := by
  induction t with
  | nil => rfl
  | cons c t ih =>
    rw [List.cons_append, locate?, locate?, ← List.cons_append, front?_append hv]
    cases front? (c :: t) with
    | some found => rfl
    | none => exact ih

/-- Without a blank there is no header. -/
theorem locate?_eq_none_of_no_blank {t : Text} (h : ∀ c ∈ t, isBlank c = false) :
    locate? t = none := by
  induction t with
  | nil => rfl
  | cons c t ih =>
    have hfront : front? (c :: t) = none := by
      unfold front?
      cases hk : OperationKind.ofFront? (c :: t) with
      | none => rfl
      | some found =>
        have happ := OperationKind.eq_keyword_append hk
        have hmore : found.2.head?.any isBlank = false := by
          cases hf : found.2 with
          | nil => rfl
          | cons d more =>
            refine h d ?_
            rw [← happ, hf]
            exact List.mem_append_right _ List.mem_cons_self
        simp only [Option.bind_eq_bind, Option.bind_some, hmore]
        rfl
    rw [locate?, hfront]
    exact ih fun d hd => h d (List.mem_cons_of_mem c hd)

end Header

/-! ## Variables -/

namespace Variable

theorem inLine_cons_of_ne {c : Char} (hc : c ≠ '$') (t : Text) : inLine (c :: t) = inLine t := by
  rw [inLine, if_neg hc]

/-- Without a dollar sign there is no variable. -/
theorem inLine_append_of_no_dollar {t : Text} (h : '$' ∉ t) (v : Text) :
    inLine (t ++ v) = inLine v := by
  induction t with
  | nil => rfl
  | cons c t ih =>
    have hc : c ≠ '$' := fun e => h (e ▸ List.mem_cons_self)
    rw [List.cons_append, inLine_cons_of_ne hc, ih fun hm => h (List.mem_cons_of_mem c hm)]

theorem inLine_eq_nil {t : Text} (h : '$' ∉ t) : inLine t = [] := by
  have := inLine_append_of_no_dollar h []
  rwa [List.append_nil, inLine] at this

theorem inLine_dollar_of_some {t more : Text} {found : Variable}
    (h : front? t = some (found, more)) :
    inLine ('$' :: t) = found :: inLine more := by
  rw [inLine, if_pos rfl]
  split
  · rename_i heq
    rw [h] at heq
    cases heq
    rfl
  · rename_i heq
    rw [h] at heq
    cases heq

theorem inLine_dollar_of_none {t : Text} (h : front? t = none) :
    inLine ('$' :: t) = inLine t := by
  rw [inLine, if_pos rfl]
  split
  · rename_i heq
    rw [h] at heq
    cases heq
  · rfl

/-- A text behind which no variable goes on: past its blanks stand neither a letter of a type nor a
colon. -/
structure Ends (v : Text) : Prop where
  letters : StopsPastBlanks isTypeChar v
  -- behind a name at the end of the text before, a colon would go on to a type
  colon : (trimStart v).head? ≠ some ':'

namespace Ends

variable {v : Text}

theorem stops (hv : Ends v) : Stops isTypeChar v :=
  hv.letters.stops fun _ => isBlank_eq_false_of_isTypeChar

/-- The letters of a name are among those of a type. -/
theorem stops_name (hv : Ends v) : Stops isNameChar v := by
  intro c hc
  have htype := hv.stops c hc
  cases hn : isNameChar c with
  | false => rfl
  | true =>
    rw [isTypeChar_of_isNameChar hn] at htype
    cases htype

end Ends

theorem front?_of_colon {t name more rest : Text} (hn : name? t = some (name, more))
    (hm : trimStart more = ':' :: rest) :
    front? t
      = if (trimStart rest).takeWhile isTypeChar = [] then none
        else some (⟨name, (trimStart rest).takeWhile isTypeChar⟩,
          (trimStart rest).dropWhile isTypeChar) := by
  unfold front?
  rw [hn]
  simp only [Option.bind_eq_bind, Option.bind_some, hm]
  rfl

theorem front?_of_no_colon {t name more : Text} (hn : name? t = some (name, more))
    (hm : (trimStart more).head? ≠ some ':') : front? t = none := by
  unfold front?
  rw [hn]
  simp only [Option.bind_eq_bind, Option.bind_some]
  split
  · rename_i rest hrest
    rw [hrest] at hm
    exact absurd rfl hm
  · rfl

theorem front?_of_no_name {t : Text} (hn : name? t = none) : front? t = none := by
  unfold front?
  rw [hn]
  rfl

theorem front?_append {v : Text} (hv : Ends v) (t : Text) :
    front? (t ++ v) = (front? t).map fun found => (found.1, found.2 ++ v) := by
  have happ := name?_append hv.stops_name t
  cases hn : name? t with
  | none =>
    rw [hn] at happ
    rw [front?_of_no_name happ, front?_of_no_name hn]
    rfl
  | some named =>
    obtain ⟨name, more⟩ := named
    rw [hn] at happ
    cases hm : trimStart more with
    | nil =>
      -- the text ends before the colon, and no colon follows
      have hmore : (trimStart (more ++ v)).head? ≠ some ':' := by
        rw [trimStart_append_of_eq_nil hm]
        exact hv.colon
      rw [front?_of_no_colon happ hmore, front?_of_no_colon hn (by rw [hm]; decide)]
      rfl
    | cons d rest =>
      have hmore : trimStart (more ++ v) = d :: (rest ++ v) := by
        rw [trimStart_append_of_ne_nil (by rw [hm]; exact List.cons_ne_nil _ _), hm]
        rfl
      by_cases hd : d = ':'
      · subst hd
        rw [front?_of_colon happ hmore, front?_of_colon hn hm]
        by_cases hrest : trimStart rest = []
        · -- the text ends before the type, and none follows
          have htake := takeWhile_append_of_stops hv.letters []
          rw [List.nil_append, List.takeWhile_nil] at htake
          rw [trimStart_append_of_eq_nil hrest, hrest, htake, if_pos rfl, List.takeWhile_nil,
            if_pos rfl]
          rfl
        · rw [trimStart_append_of_ne_nil hrest, takeWhile_append_of_stops hv.stops,
            dropWhile_append_of_stops hv.stops]
          split <;> rfl
      · have hcolon : some d ≠ some ':' := fun h => hd (Option.some.inj h)
        rw [front?_of_no_colon happ (by rw [hmore]; exact hcolon),
          front?_of_no_colon hn (by rw [hm]; exact hcolon)]
        rfl

/-- **The variables of a line are found whatever follows it**, and the search goes on behind. -/
theorem inLine_append {v : Text} (hv : Ends v) (t : Text) :
    inLine (t ++ v) = inLine t ++ inLine v := by
  fun_induction inLine t with
  | case1 => rfl
  | case2 rest found more hf _ ih =>
    have happ : front? (rest ++ v) = some (found, more ++ v) := by
      rw [front?_append hv, hf]
      rfl
    rw [List.cons_append, inLine_dollar_of_some happ, ih, List.cons_append]
  | case3 rest hf ih =>
    have happ : front? (rest ++ v) = none := by
      rw [front?_append hv, hf]
      rfl
    rw [List.cons_append, inLine_dollar_of_none happ, ih]
  | case4 c rest hc ih => rw [List.cons_append, inLine_cons_of_ne hc, ih]

end Variable

end GqlScan
