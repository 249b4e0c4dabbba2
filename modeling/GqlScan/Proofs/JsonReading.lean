import Mathlib.Algebra.Group.Nat.Defs
import Mathlib.Data.List.Forall2
import GqlScan.Json

/-!
# Reading JSON back

`read?` reads the text of a value, as strictly as the grammar of JSON is: nothing is left out and
nothing is added, commas stand between items alone, and the two halves of a surrogate pair belong
together. It goes over the text character by character and makes tokens of it, and over the tokens
with a stack of the arrays and objects that are open. Whatever is rendered, at whatever indentation,
is read back as it was.

Main statement: `read?_render`.
-/

namespace GqlScan.Json

open Text

/-! ## Units -/

/-- The 16-bit units of a character. -/
def units (c : Char) : List Nat :=
  if c.toNat < 0x10000 then [c.toNat]
  else [0xD800 + (c.toNat - 0x10000) / 0x400, 0xDC00 + (c.toNat - 0x10000) % 0x400]

/-- The text that some units make up. There is none when half of a pair stands alone. -/
def ofUnits : List Nat → Option Text
  | [] => some []
  | [u] => if 0xD800 ≤ u ∧ u < 0xE000 then none else some [Char.ofNat u]
  | u :: v :: rest =>
    if 0xD800 ≤ u ∧ u < 0xDC00 then
      if 0xDC00 ≤ v ∧ v < 0xE000 then
        (ofUnits rest).map (Char.ofNat (0x10000 + (u - 0xD800) * 0x400 + (v - 0xDC00)) :: ·)
      else none
    else if 0xDC00 ≤ u ∧ u < 0xE000 then none
    else (ofUnits (v :: rest)).map (Char.ofNat u :: ·)

/-- A character is no half of a pair. -/
theorem toNat_lt_or (c : Char) : c.toNat < 0xD800 ∨ 0xDFFF < c.toNat ∧ c.toNat < 0x110000 := c.valid

theorem ofUnits_units_append (c : Char) (rest : List Nat) :
    ofUnits (units c ++ rest) = (ofUnits rest).map (c :: ·) := by
  have hvalid := toNat_lt_or c
  unfold units
  split
  · rename_i hsmall
    have hhigh : ¬ (0xD800 ≤ c.toNat ∧ c.toNat < 0xDC00) := by omega
    have hlow : ¬ (0xDC00 ≤ c.toNat ∧ c.toNat < 0xE000) := by omega
    have hhalf : ¬ (0xD800 ≤ c.toNat ∧ c.toNat < 0xE000) := by omega
    cases rest with
    | nil =>
      have hnil : ofUnits [] = some [] := rfl
      rw [List.append_nil, hnil, ofUnits, if_neg hhalf, Char.ofNat_toNat]
      rfl
    | cons v rest =>
      change ofUnits (c.toNat :: v :: rest) = _
      rw [ofUnits, if_neg hhigh, if_neg hlow, Char.ofNat_toNat]
  · rename_i hlarge
    have hback : 0x10000 + (0xD800 + (c.toNat - 0x10000) / 0x400 - 0xD800) * 0x400
        + (0xDC00 + (c.toNat - 0x10000) % 0x400 - 0xDC00) = c.toNat := by omega
    change ofUnits (_ :: _ :: rest) = _
    rw [ofUnits, if_pos (by omega), if_pos (by omega), hback, Char.ofNat_toNat]

/-- The units of a text make up the text. -/
theorem ofUnits_flatMap (t : Text) : ofUnits (t.flatMap units) = some t := by
  induction t with
  | nil => rfl
  | cons c t ih =>
    rw [List.flatMap_cons, ofUnits_units_append, ih]
    rfl

/-! ## Tokens -/

/-- A token: a bracket, brace, comma or colon, a truth value, or a text. -/
inductive Token where
  | mark (c : Char)
  | bool (b : Bool)
  | str (t : Text)
  deriving DecidableEq, Repr

/-- What has been read of a token. Inside a text these are the units that are done; behind the sign
of an escape, with the value of the digits so far. -/
inductive Scan where
  | blank
  | word (left : Text) (b : Bool)
  | quoted (done : List Nat)
  | escape (done : List Nat)
  | digits (done : List Nat) (count value : Nat)

/-- The characters that may stand between tokens. -/
def isSpace (c : Char) : Bool := c == ' ' || c == '\t' || c == '\n' || c == '\r'

/-- The characters that are tokens. -/
def isMark (c : Char) : Bool := ['[', ']', '\x7b', '\x7d', ',', ':'].contains c

/-- The unit that a letter stands for behind a backslash. -/
def escaped? (c : Char) : Option Nat :=
  [('"', 0x22), ('\\', 0x5C), ('/', 0x2F), ('b', 0x08), ('f', 0x0C), ('n', 0x0A), ('r', 0x0D),
    ('t', 0x09)].lookup c

/-- Read a character. -/
def Scan.step : Scan → Char → Option (Scan × List Token)
  | blank, c =>
    if isSpace c then some (blank, [])
    else if isMark c then some (blank, [.mark c])
    else if c = '"' then some (quoted [], [])
    else if c = 't' then some (word "rue".toList true, [])
    else if c = 'f' then some (word "alse".toList false, [])
    else none
  | word [] _, _ => none
  | word [d] b, c => if c = d then some (blank, [.bool b]) else none
  | word (d :: e :: left) b, c => if c = d then some (word (e :: left) b, []) else none
  | quoted done, c =>
    if c = '"' then (ofUnits done).map fun t => (blank, [.str t])
    else if c = '\\' then some (escape done, [])
    else if c.toNat < 0x20 then none
    else some (quoted (done ++ units c), [])
  | escape done, c =>
    if c = 'u' then some (digits done 0 0, [])
    else (escaped? c).map fun u => (quoted (done ++ [u]), [])
  | digits done count value, c =>
    (hexDigit? c).map fun d =>
      if count = 3 then (quoted (done ++ [value * 16 + d]), [])
      else (digits done (count + 1) (value * 16 + d), [])

/-- The tokens of a text. -/
def tokensFrom : Scan → Text → Option (List Token)
  | s, [] =>
    match s with
    | .blank => some []
    | _ => none
  | s, c :: rest =>
    match s.step c with
    | none => none
    | some (next, tokens) => (tokensFrom next rest).map (tokens ++ ·)

/-- A text leads from one state to another and gives tokens on the way, whatever is behind it. -/
def Leads (s : Scan) (t : Text) (tokens : List Token) (next : Scan) : Prop :=
  ∀ rest, tokensFrom s (t ++ rest) = (tokensFrom next rest).map (tokens ++ ·)

theorem Leads.nil (s : Scan) : Leads s [] [] s := fun rest => by
  cases h : tokensFrom s rest <;> simp [h]

theorem Leads.append {s next last : Scan} {t t' : Text} {tokens tokens' : List Token}
    (h : Leads s t tokens next) (h' : Leads next t' tokens' last) :
    Leads s (t ++ t') (tokens ++ tokens') last := fun rest => by
  rw [List.append_assoc, h, h', Option.map_map]
  congr 1
  funext later
  exact (List.append_assoc tokens tokens' later).symm

theorem Leads.cons {s next last : Scan} {c : Char} {t : Text} {tokens tokens' : List Token}
    (hstep : s.step c = some (next, tokens)) (h : Leads next t tokens' last) :
    Leads s (c :: t) (tokens ++ tokens') last := by
  refine Leads.append (t := [c]) (fun rest => ?_) h
  rw [List.singleton_append, tokensFrom, hstep]

theorem Leads.single {s next : Scan} {c : Char} {tokens : List Token}
    (hstep : s.step c = some (next, tokens)) : Leads s [c] tokens next := by
  have h := Leads.cons hstep (Leads.nil next)
  rwa [List.append_nil] at h

/-! ## Texts -/

theorem hexDigit?_digitChar : ∀ n < 16, hexDigit? n.digitChar = some n := by decide

/-- The last digit of a padded number stands behind the digits of the rest of it. -/
theorem hex_succ {k n : Nat} (hk : 0 < k) (hn : n < 16 ^ (k + 1)) :
    hex (k + 1) n = hex k (n / 16) ++ [(n % 16).digitChar] := by
  unfold hex
  by_cases hsmall : n < 16
  · have hdiv : n / 16 = 0 := Nat.div_eq_of_lt hsmall
    obtain ⟨j, rfl⟩ := Nat.exists_eq_add_of_lt hk
    rw [hdiv, Nat.mod_eq_of_lt hsmall, Nat.toDigits_of_lt_base hsmall,
      Nat.toDigits_of_lt_base (by decide : 0 < 16)]
    simp [List.replicate_succ']
  · have hlength : (Nat.toDigits 16 (n / 16)).length ≤ k :=
      (Nat.length_toDigits_le_iff (by decide) hk).2 (by
        rw [Nat.pow_succ] at hn
        omega)
    rw [Nat.toDigits_of_base_le (by decide) (by omega)]
    simp only [List.length_append, List.length_singleton, List.append_assoc]
    congr 2
    omega

theorem step_digits (done : List Nat) {count n : Nat} (value : Nat) (hn : n < 16)
    (hcount : count < 3) :
    (Scan.digits done count value).step n.digitChar
      = some (.digits done (count + 1) (value * 16 + n), []) := by
  rw [Scan.step, hexDigit?_digitChar n hn, Option.map_some, if_neg (by omega)]

/-- The padded digits of a number are read as the number. -/
theorem leads_hex_digits (done : List Nat) {k : Nat} (hk : 0 < k) (hle : k < 4) {n : Nat}
    (hn : n < 16 ^ k) : Leads (.digits done 0 0) (hex k n) [] (.digits done k n) := by
  induction k generalizing n with
  | zero => exact absurd hk (Nat.lt_irrefl 0)
  | succ k ih =>
    rcases Nat.eq_zero_or_pos k with rfl | hpos
    · have hsmall : n < 16 := hn
      have hhex : hex 1 n = [n.digitChar] := by
        unfold hex
        rw [Nat.toDigits_of_lt_base hsmall]
        rfl
      rw [hhex]
      have hstep := step_digits done 0 hsmall (by decide : 0 < 3)
      rw [Nat.zero_mul, Nat.zero_add, Nat.zero_add] at hstep
      exact Leads.single hstep
    · rw [hex_succ hpos hn]
      have hdiv : n / 16 < 16 ^ k := by
        rw [Nat.pow_succ] at hn
        omega
      have hlast := Leads.single
        (step_digits done (n / 16) (Nat.mod_lt n (by decide)) (by omega : k < 3))
      rw [Nat.div_add_mod'] at hlast
      exact (ih hpos (by omega) hdiv).append hlast

/-- An escaped unit is read as the unit. -/
theorem leads_unitEscape (done : List Nat) {n : Nat} (hn : n < 0x10000) :
    Leads (.quoted done) (unitEscape n) [] (.quoted (done ++ [n])) := by
  have hdiv : n / 16 < 16 ^ 3 := by omega
  have hmod : n % 16 < 16 := Nat.mod_lt n (by decide)
  have hlast : (Scan.digits done 3 (n / 16)).step (n % 16).digitChar
      = some (.quoted (done ++ [n]), []) := by
    rw [Scan.step, hexDigit?_digitChar _ hmod, Option.map_some, if_pos rfl, Nat.div_add_mod']
  have hdone : (Scan.quoted done).step '\\' = some (.escape done, []) := rfl
  have hsign : (Scan.escape done).step 'u' = some (.digits done 0 0, []) := rfl
  unfold unitEscape
  rw [hex_succ (by decide) hn]
  exact Leads.cons hdone (Leads.cons hsign
    ((leads_hex_digits done (by decide) (by decide) hdiv).append (Leads.single hlast)))

/-- How a character is written: by a letter behind a backslash, as it is, or by its units. -/
theorem escapeChar_cases (c : Char) :
    (∃ letter u, escapeChar c = ['\\', letter] ∧ letter ≠ 'u' ∧ escaped? letter = some u
      ∧ units c = [u])
      ∨ (escapeChar c = [c] ∧ c ≠ '"' ∧ c ≠ '\\' ∧ 0x20 ≤ c.toNat)
      ∨ escapeChar c = (units c).flatMap unitEscape := by
  by_cases hshort : c ∈ ['"', '\\', '\n', '\r', '\t', '\x08', '\x0C']
  · simp only [List.mem_cons, List.not_mem_nil, or_false] at hshort
    rcases hshort with rfl | rfl | rfl | rfl | rfl | rfl | rfl <;>
      exact .inl ⟨_, _, rfl, by decide, rfl, by decide⟩
  · simp only [List.mem_cons, List.not_mem_nil, or_false, not_or] at hshort
    obtain ⟨hquote, hbackslash, hfeed, hreturn, htab, hback, hform⟩ := hshort
    unfold escapeChar units
    rw [if_neg (not_or.2 ⟨hquote, hbackslash⟩), if_neg hfeed, if_neg hreturn, if_neg htab,
      if_neg hback, if_neg hform]
    split
    · rename_i hprinted
      exact .inr (.inl ⟨rfl, hquote, hbackslash, hprinted.1⟩)
    · refine .inr (.inr ?_)
      split
      · exact (List.append_nil _).symm
      · rw [List.flatMap_cons, List.flatMap_cons, List.flatMap_nil, List.append_nil]

/-- A character is read back from what is written for it in a text. -/
theorem leads_escapeChar (done : List Nat) (c : Char) :
    Leads (.quoted done) (escapeChar c) [] (.quoted (done ++ units c)) := by
  rcases escapeChar_cases c with ⟨letter, u, hwritten, hu, hescaped, hunits⟩
    | ⟨hwritten, hquote, hbackslash, hprinted⟩ | hwritten
  · have hdone : (Scan.quoted done).step '\\' = some (.escape done, []) := rfl
    have hletter : (Scan.escape done).step letter = some (.quoted (done ++ [u]), []) := by
      rw [Scan.step, if_neg hu, hescaped]
      rfl
    rw [hwritten, hunits]
    exact Leads.cons hdone (Leads.single hletter)
  · rw [hwritten]
    refine Leads.single ?_
    rw [Scan.step, if_neg hquote, if_neg hbackslash, if_neg (by omega)]
  · have hunits : ∀ us : List Nat, (∀ u ∈ us, u < 0x10000) → ∀ done,
        Leads (.quoted done) (us.flatMap unitEscape) [] (.quoted (done ++ us)) := by
      intro us hus
      induction us with
      | nil =>
        intro done
        rw [List.append_nil]
        exact Leads.nil _
      | cons u us ih =>
        intro done
        have hfirst := leads_unitEscape done (hus u List.mem_cons_self)
        have hrest := ih (fun v hv => hus v (List.mem_cons_of_mem u hv)) (done ++ [u])
        rw [List.append_assoc] at hrest
        exact hfirst.append hrest
    rw [hwritten]
    refine hunits _ (fun u hu => ?_) done
    have hvalid := toNat_lt_or c
    unfold units at hu
    split at hu
    · rw [List.mem_singleton.1 hu]
      assumption
    · simp only [List.mem_cons, List.not_mem_nil, or_false] at hu
      omega

theorem leads_flatMap_escapeChar (done : List Nat) (t : Text) :
    Leads (.quoted done) (t.flatMap escapeChar) [] (.quoted (done ++ t.flatMap units)) := by
  induction t generalizing done with
  | nil =>
    rw [List.flatMap_nil, List.flatMap_nil, List.append_nil]
    exact Leads.nil _
  | cons c t ih =>
    rw [List.flatMap_cons, List.flatMap_cons, ← List.append_assoc]
    exact (leads_escapeChar done c).append (ih _)

/-- **A text between quotation marks is read as the text.** -/
theorem leads_quoteText (t : Text) : Leads .blank (quoteText t) [.str t] .blank := by
  have hopen : Scan.blank.step '"' = some (.quoted [], []) := rfl
  have hclose : (Scan.quoted (t.flatMap units)).step '"' = some (.blank, [.str t]) := by
    rw [Scan.step, if_pos rfl, ofUnits_flatMap]
    rfl
  exact Leads.cons hopen ((leads_flatMap_escapeChar [] t).append (Leads.single hclose))

/-! ## Values -/

mutual

/-- The tokens of a value. -/
def Value.tokens : Value → List Token
  | .bool b => [.bool b]
  | .str t => [.str t]
  | .array items => .mark '[' :: join [.mark ','] (itemTokens items) ++ [.mark ']']
  | .object members => .mark '\x7b' :: join [.mark ','] (memberTokens members) ++ [.mark '\x7d']

/-- The tokens of some values. -/
def itemTokens : List Value → List (List Token)
  | [] => []
  | v :: rest => v.tokens :: itemTokens rest

/-- The tokens of some members. -/
def memberTokens : List (Text × Value) → List (List Token)
  | [] => []
  | (name, v) :: rest => (.str name :: .mark ':' :: v.tokens) :: memberTokens rest

end

theorem leads_mark {c : Char} (h : isMark c = true) : Leads .blank [c] [.mark c] .blank := by
  refine Leads.single ?_
  have hspace : isSpace c = false := by
    unfold isMark at h
    simp only [List.contains_cons, List.contains_nil, Bool.or_false, Bool.or_eq_true,
      beq_iff_eq] at h
    rcases h with rfl | rfl | rfl | rfl | rfl | rfl <;> rfl
  rw [Scan.step, if_neg (Bool.eq_false_iff.1 hspace), if_pos h]

theorem leads_spaces {t : Text} (h : t.all isSpace = true) : Leads .blank t [] .blank := by
  induction t with
  | nil => exact Leads.nil _
  | cons c t ih =>
    rw [List.all_cons, Bool.and_eq_true] at h
    have hstep : Scan.blank.step c = some (.blank, []) := by rw [Scan.step, if_pos h.1]
    exact Leads.cons hstep (ih h.2)

theorem leads_newLine (indent : Nat) : Leads .blank (newLine indent) [] .blank := by
  refine leads_spaces ?_
  unfold newLine
  rw [List.all_cons, List.all_replicate]
  cases indent <;> rfl

theorem leads_word (b : Bool) {letters : Text} (h : letters ≠ []) :
    Leads (.word letters b) letters [.bool b] .blank := by
  induction letters with
  | nil => exact absurd rfl h
  | cons d letters ih =>
    cases letters with
    | nil =>
      have hstep : (Scan.word [d] b).step d = some (.blank, [.bool b]) := if_pos rfl
      exact Leads.single hstep
    | cons e letters =>
      have hstep : (Scan.word (d :: e :: letters) b).step d
          = some (.word (e :: letters) b, []) := if_pos rfl
      exact Leads.cons hstep (ih (List.cons_ne_nil e letters))

theorem leads_bool (b : Bool) :
    Leads .blank (if b then "true" else "false").toList [.bool b] .blank := by
  cases b with
  | true =>
    have hstep : Scan.blank.step 't' = some (.word "rue".toList true, []) := rfl
    exact Leads.cons hstep (leads_word true (List.cons_ne_nil _ _))
  | false =>
    have hstep : Scan.blank.step 'f' = some (.word "alse".toList false, []) := rfl
    exact Leads.cons hstep (leads_word false (List.cons_ne_nil _ _))

/-- Texts that lead to tokens, joined with a comma and a new line between neighbours. -/
theorem leads_join {ts : List Text} {tokens : List (List Token)}
    (h : List.Forall₂ (fun t found => Leads .blank t found .blank) ts tokens) (indent : Nat) :
    Leads .blank (join (',' :: newLine indent) ts) (join [.mark ','] tokens) .blank := by
  have hcomma : Leads .blank (',' :: newLine indent) [.mark ','] .blank :=
    (leads_mark (by decide)).append (leads_newLine indent)
  induction h with
  | nil => exact Leads.nil _
  | cons hfirst hrest ih =>
    cases hrest with
    | nil => exact hfirst
    | cons => exact (hfirst.append hcomma).append ih

theorem leads_enclose {opening closing : Char} (hopening : isMark opening = true)
    (hclosing : isMark closing = true) {ts : List Text} {tokens : List (List Token)}
    (h : List.Forall₂ (fun t found => Leads .blank t found .blank) ts tokens) (indent : Nat) :
    Leads .blank (enclose opening closing indent ts)
      (.mark opening :: join [.mark ','] tokens ++ [.mark closing]) .blank := by
  unfold enclose
  cases h with
  | nil => exact (leads_mark hopening).append (leads_mark hclosing)
  | cons hfirst hrest =>
    have hitems := leads_join (.cons hfirst hrest) (indent + 2)
    have hopened := (leads_mark hopening).append (leads_newLine (indent + 2))
    have hbehind := ((hopened.append hitems).append (leads_newLine indent)).append
      (leads_mark hclosing)
    simpa using hbehind

mutual

/-- **What is rendered leads to the tokens of the value.** -/
theorem leads_render (indent : Nat) :
    ∀ v : Value, Leads .blank (v.render indent) v.tokens .blank
  | .bool b => by
    rw [Value.render, Value.tokens]
    exact leads_bool b
  | .str t => by
    rw [Value.render, Value.tokens]
    exact leads_quoteText t
  | .array items => by
    rw [Value.render, Value.tokens]
    exact leads_enclose (by decide) (by decide) (leads_renderItems (indent + 2) items) indent
  | .object members => by
    rw [Value.render, Value.tokens]
    exact leads_enclose (by decide) (by decide) (leads_renderMembers (indent + 2) members) indent

theorem leads_renderItems (indent : Nat) : ∀ items : List Value,
    List.Forall₂ (fun t found => Leads .blank t found .blank) (renderItems indent items)
      (itemTokens items)
  | [] => by
    rw [renderItems, itemTokens]
    exact .nil
  | v :: rest => by
    rw [renderItems, itemTokens]
    exact .cons (leads_render indent v) (leads_renderItems indent rest)

theorem leads_renderMembers (indent : Nat) : ∀ members : List (Text × Value),
    List.Forall₂ (fun t found => Leads .blank t found .blank) (renderMembers indent members)
      (memberTokens members)
  | [] => by
    rw [renderMembers, memberTokens]
    exact .nil
  | (name, v) :: rest => by
    have hcolon : Leads .blank [':', ' '] [.mark ':'] .blank :=
      (leads_mark (by decide)).append (leads_spaces (t := [' ']) (by decide))
    rw [renderMembers, memberTokens]
    exact .cons (((leads_quoteText name).append hcolon).append (leads_render indent v))
      (leads_renderMembers indent rest)

end

/-! ## Reading -/

/-- An array or an object that is open: what it holds so far, and in an object the name of the
member whose value is being read. -/
inductive Frame where
  | array (items : List Value)
  | object (members : List (Text × Value)) (name : Text)

/-- What may come next: a value, a value or the end of an array, a name or the end of an object, a
name behind a comma, a colon, or what stands behind a value. -/
inductive Expected where
  | value
  | firstItem
  | firstName
  | name (members : List (Text × Value))
  | colon (members : List (Text × Value)) (name : Text)
  | behind (v : Value)

/-- The token with which a value begins. -/
def beginValue (frames : List Frame) : Token → Option (Expected × List Frame)
  | .str t => some (.behind (.str t), frames)
  | .bool b => some (.behind (.bool b), frames)
  | .mark '[' => some (.firstItem, frames)
  | .mark '\x7b' => some (.firstName, frames)
  | .mark _ => none

/-- Read a token. -/
def Expected.step : Expected → List Frame → Token → Option (Expected × List Frame)
  | value, frames, token => beginValue frames token
  | firstItem, frames, token =>
    if token = .mark ']' then some (behind (.array []), frames)
    else beginValue (.array [] :: frames) token
  | firstName, frames, .mark '\x7d' => some (behind (.object []), frames)
  | firstName, frames, .str t => some (colon [] t, frames)
  | name members, frames, .str t => some (colon members t, frames)
  | colon members t, frames, .mark ':' => some (value, .object members t :: frames)
  | behind v, .array items :: frames, .mark ',' => some (value, .array (items ++ [v]) :: frames)
  | behind v, .array items :: frames, .mark ']' => some (behind (.array (items ++ [v])), frames)
  | behind v, .object members t :: frames, .mark ',' => some (name (members ++ [(t, v)]), frames)
  | behind v, .object members t :: frames, .mark '\x7d' =>
    some (behind (.object (members ++ [(t, v)])), frames)
  | _, _, _ => none

/-- The value of some tokens. -/
def valueFrom : Expected → List Frame → List Token → Option Value
  | .behind v, [], [] => some v
  | _, _, [] => none
  | expected, frames, token :: rest =>
    match expected.step frames token with
    | none => none
    | some (next, frames) => valueFrom next frames rest

/-- **The value of a JSON text,** if it is one. -/
def read? (t : Text) : Option Value := (tokensFrom .blank t).bind (valueFrom .value [])

theorem valueFrom_cons {expected next : Expected} {frames frames' : List Frame} {token : Token}
    (h : expected.step frames token = some (next, frames')) (rest : List Token) :
    valueFrom expected frames (token :: rest) = valueFrom next frames' rest := by
  rw [valueFrom, h]

/-- A value may stand at the front of an array, for no value begins with the end of one. -/
theorem valueFrom_firstItem (v : Value) (frames : List Frame) (rest : List Token) :
    valueFrom .firstItem frames (v.tokens ++ rest)
      = valueFrom .value (.array [] :: frames) (v.tokens ++ rest) := by
  obtain ⟨token, later, htokens, hne⟩ :
      ∃ token later, v.tokens = token :: later ∧ token ≠ .mark ']' := by
    cases v with
    | bool b => exact ⟨_, _, Value.tokens.eq_1 b, nofun⟩
    | str t => exact ⟨_, _, Value.tokens.eq_2 t, nofun⟩
    | array items => exact ⟨_, _, Value.tokens.eq_3 items, by decide⟩
    | object members => exact ⟨_, _, Value.tokens.eq_4 members, by decide⟩
  have hitem : Expected.firstItem.step frames token = beginValue (.array [] :: frames) token :=
    if_neg hne
  have hvalue : Expected.value.step (.array [] :: frames) token
      = beginValue (.array [] :: frames) token := rfl
  rw [htokens, List.cons_append, valueFrom, valueFrom, hitem, hvalue]

mutual

/-- **The tokens of a value are read as the value.** -/
theorem valueFrom_tokens : ∀ (v : Value) (frames : List Frame) (rest : List Token),
    valueFrom .value frames (v.tokens ++ rest) = valueFrom (.behind v) frames rest
  | .bool b, frames, rest => by
    rw [Value.tokens]
    exact valueFrom_cons rfl rest
  | .str t, frames, rest => by
    rw [Value.tokens]
    exact valueFrom_cons rfl rest
  | .array [], frames, rest => by
    rw [Value.tokens, itemTokens]
    exact (valueFrom_cons rfl _).trans (valueFrom_cons rfl rest)
  | .array (v :: items), frames, rest => by
    rw [Value.tokens, itemTokens, join_cons]
    simp only [List.cons_append, List.append_assoc]
    refine (valueFrom_cons rfl _).trans ((valueFrom_firstItem v frames _).trans ?_)
    rw [valueFrom_tokens v]
    exact valueFrom_items items [] v frames rest
  | .object [], frames, rest => by
    rw [Value.tokens, memberTokens]
    exact (valueFrom_cons rfl _).trans (valueFrom_cons rfl rest)
  | .object ((name, v) :: members), frames, rest => by
    rw [Value.tokens, memberTokens, join_cons]
    simp only [List.cons_append, List.append_assoc]
    refine (valueFrom_cons rfl _).trans ((valueFrom_cons rfl _).trans
      ((valueFrom_cons rfl _).trans ?_))
    rw [valueFrom_tokens v]
    exact valueFrom_members members [] name v frames rest

theorem valueFrom_items : ∀ (items done : List Value) (v : Value) (frames : List Frame)
    (rest : List Token),
    valueFrom (.behind v) (.array done :: frames)
        ((itemTokens items).flatMap ([.mark ','] ++ ·) ++ ([.mark ']'] ++ rest))
      = valueFrom (.behind (.array (done ++ v :: items))) frames rest
  | [], done, v, frames, rest => by
    rw [itemTokens]
    exact valueFrom_cons rfl rest
  | w :: items, done, v, frames, rest => by
    rw [itemTokens, List.flatMap_cons]
    simp only [List.cons_append, List.append_assoc, List.nil_append]
    refine (valueFrom_cons rfl _).trans ?_
    rw [valueFrom_tokens w]
    have hitems := valueFrom_items items (done ++ [v]) w frames rest
    rwa [List.append_assoc] at hitems

theorem valueFrom_members : ∀ (members done : List (Text × Value)) (name : Text) (v : Value)
    (frames : List Frame) (rest : List Token),
    valueFrom (.behind v) (.object done name :: frames)
        ((memberTokens members).flatMap ([.mark ','] ++ ·) ++ ([.mark '\x7d'] ++ rest))
      = valueFrom (.behind (.object (done ++ (name, v) :: members))) frames rest
  | [], done, name, v, frames, rest => by
    rw [memberTokens]
    exact valueFrom_cons rfl rest
  | (next, w) :: members, done, name, v, frames, rest => by
    rw [memberTokens, List.flatMap_cons]
    simp only [List.cons_append, List.append_assoc, List.nil_append]
    refine (valueFrom_cons rfl _).trans ((valueFrom_cons rfl _).trans
      ((valueFrom_cons rfl _).trans ?_))
    rw [valueFrom_tokens w]
    have hmembers := valueFrom_members members (done ++ [(name, v)]) next w frames rest
    rwa [List.append_assoc] at hmembers

end

/-- **What is rendered is read back,** with whatever spaces behind it. -/
theorem read?_render (v : Value) (indent : Nat) {spaces : Text} (h : spaces.all isSpace = true) :
    read? (v.render indent ++ spaces) = some v := by
  have htokens : tokensFrom .blank (v.render indent ++ spaces) = some v.tokens := by
    have hread := ((leads_render indent v).append (leads_spaces h)) []
    rw [List.append_nil, List.append_nil] at hread
    rw [hread]
    change (some []).map (v.tokens ++ ·) = _
    rw [Option.map_some, List.append_nil]
  have hvalue := valueFrom_tokens v [] []
  rw [List.append_nil] at hvalue
  unfold read?
  rw [htokens, Option.bind_some, hvalue]
  rfl

/-- No comma stands behind the last item. -/
example : (read? "[true,]".toList).isNone = true := by decide

end GqlScan.Json
