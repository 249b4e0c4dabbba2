import GqlScan.Proofs.OperationShape

/-!
# Where variables are declared

A variable is declared wherever a dollar sign, a name, a colon and a type stand behind each other.
The search for them goes from left to right; where a dollar sign starts no declaration it goes on at
the next character, so a declaration that begins inside a failed one is found, too. A declaration
holds no dollar sign but its own, so no two of them overlap and the search passes over none.

Variables that are declared again are left out: a list of lines has each of its variables once, in
the order in which they come up first.

Main statement: `inLines_listed`.
-/

namespace GqlScan

open Text Canonical

namespace Variable

/-! ## One declaration -/

/-- What a declaration goes on with behind its dollar sign: the name, a colon with blanks around it
and the type, each as long as possible, and then some text. A name always ends at the blanks or the
colon. -/
def Heads (t : Text) (v : Variable) (rest : Text) : Prop :=
  ∃ gap gap', t = v.name ++ (gap ++ ':' :: (gap' ++ (v.type ++ rest)))
    ∧ IsName v.name ∧ Blanks gap ∧ Blanks gap' ∧ IsTypeName v.type ∧ Stops isTypeChar rest

/-- What is read as a declaration is one. -/
theorem heads_of_front? {t rest : Text} {v : Variable} (h : front? t = some (v, rest)) :
    Heads t v rest := by
  obtain ⟨⟨name, more⟩, hn, hf⟩ := Option.bind_eq_some_iff.1 h
  dsimp only at hf
  split at hf
  · rename_i behind hcolon
    split at hf
    · cases hf
    · rename_i hne
      cases hf
      obtain ⟨gap, hgap, hblanks⟩ := exists_trimStart_append more
      obtain ⟨gap', hgap', hblanks'⟩ := exists_trimStart_append behind
      refine ⟨gap, gap', ?_, isName_of_name? hn, hblanks, hblanks',
        ⟨hne, fun c hc => List.mem_takeWhile_imp hc⟩, stops_dropWhile _ _⟩
      rw [List.takeWhile_append_dropWhile, ← hgap', ← hcolon, ← hgap]
      exact (append_of_name? hn).symm
  · cases hf

/-- A declaration is read, part by part. -/
theorem front?_of_heads {t rest : Text} {v : Variable} (h : Heads t v rest) :
    front? t = some (v, rest) := by
  obtain ⟨gap, gap', rfl, hname, hblanks, hblanks', htype, hrest⟩ := h
  have hbehind : Stops isNameChar (gap ++ ':' :: (gap' ++ (v.type ++ rest))) := by
    cases gap with
    | nil => exact .cons (by decide) _
    | cons c gap =>
      have hc : isBlank c = true := hblanks c List.mem_cons_self
      exact .cons (isNameChar_eq_false_of_isBlank hc) _
  have hn : name? (v.name ++ (gap ++ ':' :: (gap' ++ (v.type ++ rest))))
      = some (v.name, gap ++ ':' :: (gap' ++ (v.type ++ rest))) := by
    rw [name?_append hbehind, name?_of_letters hname.1 hname.2]
    rfl
  have hcolon : trimStart (gap ++ ':' :: (gap' ++ (v.type ++ rest)))
      = ':' :: (gap' ++ (v.type ++ rest)) := by
    rw [trimStart_blanks_append hblanks]
    exact trimStart_of_stops (.cons (by decide) _)
  have hstart : trimStart (gap' ++ (v.type ++ rest)) = v.type ++ rest := by
    have hstops : Stops isBlank v.type := fun c hc =>
      isBlank_eq_false_of_isTypeChar (htype.2 c (List.mem_of_mem_head? hc))
    rw [trimStart_blanks_append hblanks']
    exact trimStart_of_stops (hstops.append htype.1 rest)
  have htake : (v.type ++ rest).takeWhile isTypeChar = v.type := by
    rw [takeWhile_append_of_stops hrest, List.takeWhile_eq_self_iff]
    exact htype.2
  have hdrop : (v.type ++ rest).dropWhile isTypeChar = rest := by
    rw [dropWhile_append_of_stops hrest, List.dropWhile_eq_nil_iff.2 htype.2, List.nil_append]
  rw [front?_of_colon hn hcolon, hstart, htake, hdrop, if_neg htype.1]

theorem isTypeChar_dollar : isTypeChar '$' = false := by decide

/-- Up to the end of its type a declaration holds no further dollar sign. -/
theorem exists_append_of_heads {t rest : Text} {v : Variable} (h : Heads t v rest) :
    ∃ declared, t = declared ++ rest ∧ '$' ∉ declared := by
  obtain ⟨gap, gap', rfl, hname, hblanks, hblanks', htype, -⟩ := h
  refine ⟨v.name ++ (gap ++ ':' :: (gap' ++ v.type)), ?_, fun hm => ?_⟩
  · simp only [List.append_assoc, List.cons_append]
  · have hblank : isBlank '$' = false := by decide
    simp only [List.mem_append, List.mem_cons] at hm
    rcases hm with hm | hm | hm | hm | hm
    · exact absurd (hname.isTypeName.2 _ hm) (by rw [isTypeChar_dollar]; exact Bool.false_ne_true)
    · exact hblanks.not_mem hblank hm
    · cases hm
    · exact hblanks'.not_mem hblank hm
    · exact absurd (htype.2 _ hm) (by rw [isTypeChar_dollar]; exact Bool.false_ne_true)

/-! ## The declarations of a line -/

/-- A declaration with the columns at which it starts and ends. -/
structure Place where
  start : Nat
  found : Variable
  stop : Nat
  deriving DecidableEq, Repr

/-- A declaration stands at its place of a line. -/
def Place.In (p : Place) (line : Text) : Prop :=
  ∃ t rest, line.drop p.start = '$' :: t ∧ Heads t p.found rest
    ∧ p.stop + rest.length = line.length

/-- The declarations of a line, all of them and in order, each ending before the next one starts. -/
structure Lists (line : Text) (places : List Place) : Prop where
  all : ∀ p, p ∈ places ↔ p.In line
  apart : places.Pairwise fun p q => p.stop ≤ q.start

/-- The declarations of a line that start behind its front part. -/
structure ListsBehind (front t : Text) (places : List Place) : Prop where
  all : ∀ p, p ∈ places ↔ p.In (front ++ t) ∧ front.length ≤ p.start
  apart : places.Pairwise fun p q => p.stop ≤ q.start

theorem ListsBehind.lists {line : Text} {places : List Place} (h : ListsBehind [] line places) :
    Lists line places where
  all p := by
    rw [h.all p]
    exact and_iff_left (Nat.zero_le _)
  apart := h.apart

section

variable {front t : Text} {p : Place}

/-- A declaration that starts at the end of the front part is read from what follows. -/
theorem Place.In.exists_heads (h : p.In (front ++ t)) (hstart : p.start = front.length) :
    ∃ t' rest, t = '$' :: t' ∧ Heads t' p.found rest
      ∧ p.stop + rest.length = front.length + t.length := by
  obtain ⟨t', rest, hdrop, hheads, hstop⟩ := h
  rw [hstart, List.drop_left] at hdrop
  rw [List.length_append] at hstop
  exact ⟨t', rest, hdrop, hheads, hstop⟩

/-- What starts at one place is one declaration. -/
theorem Place.In.eq_of_heads {declared rest : Text} {v : Variable} (h : p.In (front ++ '$' :: t))
    (hstart : p.start = front.length) (hheads : Heads t v rest) (ht : t = declared ++ rest) :
    p = ⟨front.length, v, front.length + (declared.length + 1)⟩ := by
  obtain ⟨t', rest', htext, hheads', hstop⟩ := h.exists_heads hstart
  obtain rfl := (List.cons.inj htext).2
  have hread := front?_of_heads hheads
  rw [front?_of_heads hheads'] at hread
  obtain ⟨hfound, hrest⟩ := Prod.mk.inj (Option.some.inj hread)
  have hlength : t.length = declared.length + rest.length := by rw [ht, List.length_append]
  obtain ⟨start, found, stop⟩ := p
  simp only [List.length_cons] at hstop hstart hfound
  rw [hrest] at hstop
  rw [Place.mk.injEq]
  exact ⟨hstart, hfound, by omega⟩

/-- No declaration starts inside a text without a dollar sign. -/
theorem Place.In.le_start {passed : Text} (h : p.In (front ++ (passed ++ t)))
    (hpassed : '$' ∉ passed) (hstart : front.length ≤ p.start) :
    front.length + passed.length ≤ p.start := by
  obtain ⟨t', rest, hdrop, -⟩ := h
  by_contra hlt
  have hdollar : (front ++ (passed ++ t))[p.start]? = some '$' := by
    rw [← List.head?_drop, hdrop]
    rfl
  rw [List.getElem?_append_right hstart, List.getElem?_append_left (by omega)] at hdollar
  exact hpassed (List.mem_of_getElem? hdollar)

/-- Where no declaration starts the search goes on at the next character. -/
theorem ListsBehind.of_next {c : Char} {places : List Place}
    (h : ListsBehind (front ++ [c]) t places) (hnone : ∀ p : Place, p.start = front.length →
      ¬ p.In (front ++ c :: t)) :
    ListsBehind front (c :: t) places where
  all p := by
    rw [h.all p, List.append_assoc, List.singleton_append, List.length_append,
      List.length_singleton]
    refine and_congr_right fun hp => ⟨fun hle => by omega, fun hle => ?_⟩
    have hne : p.start ≠ front.length := fun heq => hnone p heq hp
    omega
  apart := h.apart

end

/-- Where a declaration starts the search goes on behind it. -/
theorem ListsBehind.of_heads {front t declared rest : Text} {v : Variable} {places : List Place}
    (hheads : Heads t v rest) (ht : t = declared ++ rest) (hdollar : '$' ∉ declared)
    (h : ListsBehind (front ++ '$' :: declared) rest places) :
    ListsBehind front ('$' :: t)
      (⟨front.length, v, front.length + (declared.length + 1)⟩ :: places) where
  all p := by
    have happ : front ++ '$' :: declared ++ rest = front ++ '$' :: t := by
      rw [List.append_assoc, List.cons_append, ← ht]
    have hlength : t.length = declared.length + rest.length := by rw [ht, List.length_append]
    rw [List.mem_cons, h.all p, happ, List.length_append, List.length_cons]
    constructor
    · rintro (rfl | ⟨hp, hle⟩)
      · refine ⟨⟨t, rest, List.drop_left, hheads, ?_⟩, Nat.le_refl _⟩
        simp only [List.length_append, List.length_cons]
        omega
      · exact ⟨hp, by omega⟩
    · rintro ⟨hp, hle⟩
      rcases Nat.eq_or_lt_of_le hle with heq | hlt
      · exact .inl (hp.eq_of_heads heq.symm hheads ht)
      · -- behind the dollar sign the declaration has none
        refine .inr ⟨hp, ?_⟩
        have hp' : p.In ((front ++ ['$']) ++ (declared ++ rest)) := by
          rw [List.append_assoc, List.singleton_append, ← ht]
          exact hp
        have hpast := hp'.le_start hdollar (by rw [List.length_append]; exact hlt)
        rw [List.length_append, List.length_singleton] at hpast
        omega
  apart := by
    refine List.pairwise_cons.2 ⟨fun p hp => ?_, h.apart⟩
    have hle := ((h.all p).1 hp).2
    rw [List.length_append, List.length_cons] at hle
    exact hle

/-- **The search through a line finds all of its declarations.** -/
theorem exists_listsBehind (front t : Text) :
    ∃ places, ListsBehind front t places ∧ places.map Place.found = inLine t := by
  -- the recursion of the search, with the part of the line that is behind it
  fun_induction inLine t generalizing front with
  | case1 =>
    refine ⟨[], ⟨fun p => iff_of_false List.not_mem_nil ?_, .nil⟩, rfl⟩
    rintro ⟨⟨t, rest, hdrop, -⟩, hle⟩
    rw [List.append_nil, List.drop_eq_nil_of_le hle] at hdrop
    cases hdrop
  | case2 t v rest hf _ ih =>
    have hheads := heads_of_front? hf
    obtain ⟨declared, ht, hdollar⟩ := exists_append_of_heads hheads
    obtain ⟨places, hplaces, hfound⟩ := ih (front ++ '$' :: declared)
    refine ⟨_, .of_heads hheads ht hdollar hplaces, ?_⟩
    rw [List.map_cons, hfound]
  | case3 t hf ih =>
    obtain ⟨places, hplaces, hfound⟩ := ih (front ++ ['$'])
    refine ⟨places, hplaces.of_next fun p heq hp => ?_, hfound⟩
    obtain ⟨t', rest, htext, hheads, -⟩ := hp.exists_heads heq
    obtain rfl := (List.cons.inj htext).2
    rw [front?_of_heads hheads] at hf
    cases hf
  | case4 c t hc ih =>
    obtain ⟨places, hplaces, hfound⟩ := ih (front ++ [c])
    refine ⟨places, hplaces.of_next fun p heq hp => ?_, hfound⟩
    obtain ⟨t', rest, htext, -⟩ := hp.exists_heads heq
    exact hc (List.cons.inj htext).1

theorem exists_lists (line : Text) :
    ∃ places, Lists line places ∧ places.map Place.found = inLine line := by
  obtain ⟨places, hplaces, hfound⟩ := exists_listsBehind [] line
  exact ⟨places, hplaces.lists, hfound⟩

/-- The declarations of some lines, line by line. -/
theorem exists_forall₂_lists (lines : List Text) :
    ∃ places, List.Forall₂ Lists lines places
      ∧ places.flatten.map Place.found = lines.flatMap inLine := by
  induction lines with
  | nil => exact ⟨[], .nil, rfl⟩
  | cons line lines ih =>
    obtain ⟨places, hplaces, hfound⟩ := exists_lists line
    obtain ⟨later, hlater, hfound'⟩ := ih
    refine ⟨places :: later, .cons hplaces hlater, ?_⟩
    rw [List.flatten_cons, List.map_append, hfound, hfound', List.flatMap_cons]

/-! ## First occurrences -/

/-- Variables listed once each, in the order in which they come up first among others. -/
structure FirstSeen (all vs : List Variable) : Prop where
  mem : ∀ v, v ∈ vs ↔ v ∈ all
  ordered : vs.Pairwise fun v w => all.idxOf v < all.idxOf w

theorem mem_firsts_iff {seen all : List Variable} {v : Variable} :
    v ∈ firsts seen all ↔ v ∈ all ∧ v ∉ seen := by
  refine ⟨fun h => ⟨(firsts_sublist seen all).subset h, not_mem_of_mem_firsts h⟩, ?_⟩
  rintro ⟨hall, hseen⟩
  fun_induction firsts seen all with
  | case1 => cases hall
  | case2 seen w rest hw ih =>
    rcases List.mem_cons.1 hall with rfl | hall
    · exact absurd hw hseen
    · exact ih hall hseen
  | case3 seen w rest hw ih =>
    by_cases hvw : v = w
    · exact hvw ▸ List.mem_cons_self
    · refine List.mem_cons_of_mem w (ih ((List.mem_cons.1 hall).resolve_left hvw) ?_)
      rw [List.mem_cons, not_or]
      exact ⟨hvw, hseen⟩

theorem pairwise_idxOf_firsts (seen all : List Variable) :
    (firsts seen all).Pairwise fun v w => all.idxOf v < all.idxOf w := by
  -- behind a variable that is not meant itself the first occurrence is one place further on
  have hshift : ∀ {w : Variable} {rest vs : List Variable}, w ∉ vs →
      vs.Pairwise (fun v v' => rest.idxOf v < rest.idxOf v') →
      vs.Pairwise fun v v' => (w :: rest).idxOf v < (w :: rest).idxOf v' := by
    intro w rest vs hw hvs
    refine hvs.imp_of_mem fun {v v'} hv hv' hlt => ?_
    rw [List.idxOf_cons_ne rest (ne_of_mem_of_not_mem hv hw).symm,
      List.idxOf_cons_ne rest (ne_of_mem_of_not_mem hv' hw).symm]
    exact Nat.succ_lt_succ hlt
  fun_induction firsts seen all with
  | case1 => exact .nil
  | case2 seen w rest hw ih => exact hshift (fun h => not_mem_of_mem_firsts h hw) ih
  | case3 seen w rest hw ih =>
    have hnew : w ∉ firsts (w :: seen) rest := fun h =>
      not_mem_of_mem_firsts h List.mem_cons_self
    refine List.pairwise_cons.2 ⟨fun v hv => ?_, hshift hnew ih⟩
    rw [List.idxOf_cons_self, List.idxOf_cons_ne rest (ne_of_mem_of_not_mem hv hnew).symm]
    exact Nat.succ_pos _

theorem firstSeen_firsts (all : List Variable) : FirstSeen all (firsts [] all) where
  mem v := by
    rw [mem_firsts_iff]
    exact and_iff_left List.not_mem_nil
  ordered := pairwise_idxOf_firsts [] all

theorem FirstSeen.nodup {all vs : List Variable} (h : FirstSeen all vs) : vs.Nodup := by
  refine List.Pairwise.imp ?_ h.ordered
  rintro v _ hlt rfl
  exact Nat.lt_irrefl _ hlt

/-- The first occurrences are determined by what is in them and in which order. -/
theorem FirstSeen.eq {all vs ws : List Variable} (hvs : FirstSeen all vs)
    (hws : FirstSeen all ws) : vs = ws := by
  have hperm : vs.Perm ws := by
    rw [List.perm_ext_iff_of_nodup hvs.nodup hws.nodup]
    intro v
    rw [hvs.mem v, hws.mem v]
  exact hperm.eq_of_pairwise (fun _ _ _ _ hlt hgt => absurd hlt (Nat.lt_asymm hgt)) hvs.ordered
    hws.ordered

/-- The first occurrences in two lists behind each other are those of the first list and then those
of the second that are not among them. -/
theorem FirstSeen.append {all more vs ws : List Variable} (hvs : FirstSeen all vs)
    (hws : FirstSeen more ws) :
    FirstSeen (all ++ more) (vs ++ ws.filter fun v => v ∉ vs) := by
  have hnew : ∀ {v}, v ∈ ws.filter (fun v => v ∉ vs) ↔ v ∈ more ∧ v ∉ all := by
    intro v
    rw [List.mem_filter, decide_eq_true_eq, hws.mem v, hvs.mem v]
  have hold : ∀ v ∈ vs, (all ++ more).idxOf v = all.idxOf v := fun v hv =>
    List.idxOf_append_of_mem ((hvs.mem v).1 hv)
  have hlate : ∀ v ∈ ws.filter (fun v => v ∉ vs),
      (all ++ more).idxOf v = all.length + more.idxOf v := fun v hv =>
    List.idxOf_append_of_notMem (hnew.1 hv).2
  constructor
  · intro v
    rw [List.mem_append, List.mem_append, hnew, hvs.mem v]
    exact ⟨fun h => h.imp_right And.left, fun h => or_iff_not_imp_left.2 fun hv =>
      ⟨h.resolve_left hv, hv⟩⟩
  · rw [List.pairwise_append]
    refine ⟨hvs.ordered.imp_of_mem fun {v w} hv hw hlt => ?_,
      (hws.ordered.sublist List.filter_sublist).imp_of_mem fun {v w} hv hw hlt => ?_,
      fun v hv w hw => ?_⟩
    · rw [hold v hv, hold w hw]
      exact hlt
    · rw [hlate v hv, hlate w hw]
      exact Nat.add_lt_add_left hlt _
    · rw [hold v hv, hlate w hw]
      exact Nat.lt_add_right _ (List.idxOf_lt_length_iff.2 ((hvs.mem v).1 hv))

/--
**The variables of some lines are those that are declared in them, each once and in order.**

There is a list of the declarations of every line: all that stand in it, from left to right, none
reaching into the next. The variables of the lines are those of these declarations, without the
later ones of the same name and type, in order of first appearance. Behind further lines they are
followed by those variables of these lines that are new.
-/
theorem inLines_listed (lines : List Text) :
    (∃ places, List.Forall₂ Lists lines places
      ∧ FirstSeen (places.flatten.map Place.found) (inLines lines))
    ∧ ∀ more, inLines (lines ++ more)
      = inLines lines ++ (inLines more).filter fun v => v ∉ inLines lines := by
  constructor
  · obtain ⟨places, hplaces, hfound⟩ := exists_forall₂_lists lines
    refine ⟨places, hplaces, ?_⟩
    rw [hfound]
    exact firstSeen_firsts _
  · intro more
    have happ : FirstSeen (lines.flatMap inLine ++ more.flatMap inLine)
        (inLines (lines ++ more)) := by
      rw [← List.flatMap_append]
      exact firstSeen_firsts _
    exact happ.eq ((firstSeen_firsts _).append (firstSeen_firsts _))

/-- A failed declaration can hold another one, and a type can end where the next one starts. -/
example : inLines ["$$a $b: $id :ID!$b:[Int]".toList, "$id: ID!".toList]
    = [⟨['i', 'd'], ['I', 'D', '!']⟩, ⟨['b'], ['[', 'I', 'n', 't', ']']⟩] := by decide +kernel

end Variable

end GqlScan
