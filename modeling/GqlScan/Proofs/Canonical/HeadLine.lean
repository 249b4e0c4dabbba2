import Mathlib.Data.List.Nodup
import GqlScan.Proofs.Canonical.LineReading

/-!
# The head line of a canonical document

The head line is the only line with a header, so the scope that it opens takes every line. It is
the only line with variables, and they are read as the parameters in their order. Behind the header
the first opening brace ends the line, so the block of the operation starts with the line after.

Main statement: `ofLive?_lines`, that what is left to read is the block of the fields.
-/

namespace GqlScan

open Text

theorem Header.locate?_of_front? {t rest : Text} {h : Header} (hf : front? t = some (h, rest)) :
    locate? t = some (h, rest) := by
  cases t with
  | nil => cases hf
  | cons c t => rw [locate?, hf]

/-- Different variables that are new are all first occurrences. -/
theorem Variable.firsts_of_nodup {vs seen : List Variable} (hd : vs.Nodup)
    (hnew : ∀ v ∈ vs, v ∉ seen) : firsts seen vs = vs := by
  induction vs generalizing seen with
  | nil => rfl
  | cons v vs ih =>
    rw [List.nodup_cons] at hd
    rw [firsts, if_neg (hnew v List.mem_cons_self), ih hd.2]
    intro w hw hmem
    rcases List.mem_cons.1 hmem with rfl | hs
    · exact hd.1 hw
    · exact hnew w (List.mem_cons_of_mem v hw) hs

namespace Canonical

/-! ## Lines without a header -/

namespace Forest

theorem locate?_leafLine (name : Name) (type? : Option TypeName) :
    Header.locate? (leafLine name type?) = none := by
  have hname : Header.locate? name.1 = none :=
    Header.locate?_eq_none_of_no_blank fun c hc =>
      isBlank_eq_false_of_isNameChar (name.letters hc)
  cases type? with
  | none => exact hname
  | some type =>
    have hcolon : StopsPastBlanks isNameChar ([':', ' '] ++ type.1) :=
      .cons (by decide) (by decide) _
    have htype : Header.locate? type.1 = none :=
      Header.locate?_eq_none_of_no_blank fun c hc =>
        isBlank_eq_false_of_isTypeChar (type.letters hc)
    rw [leafLine, List.append_assoc, Header.locate?_append hcolon, hname]
    show Header.locate? (':' :: ' ' :: type.1) = none
    rw [Header.locate?_cons_of_stops (by decide), Header.locate?_cons_of_stops (by decide)]
    exact htype

theorem locate?_openLine (name : Name) : Header.locate? (openLine name) = none := by
  have hname : Header.locate? name.1 = none :=
    Header.locate?_eq_none_of_no_blank fun c hc =>
      isBlank_eq_false_of_isNameChar (name.letters hc)
  have hbrace : StopsPastBlanks isNameChar [' ', '{'] := Stops.cons (by decide) []
  rw [openLine, Header.locate?_append hbrace, hname]
  decide

theorem find?_block (F : Forest) : ∀ l ∈ F.lines ++ [closeLine], Header.find? l = none := by
  have hclose : Header.find? closeLine = none := rfl
  refine F.forall_mem_block (fun name type? => ?_) (fun name => ?_) hclose
  · rw [Header.find?, locate?_leafLine, Option.map_none]
  · rw [Header.find?, locate?_openLine, Option.map_none]

end Forest

/-! ## The parameters -/

theorem Parameter.front?_print (p : Parameter) {v : Text} (hv : Stops isTypeChar v) :
    Variable.front? (p.name.1 ++ [':', ' '] ++ p.type.1 ++ v) = some (p.toVariable, v) := by
  have hcolon : Stops isNameChar ([':', ' '] ++ p.type.1 ++ v) := .cons (by decide) _
  have hname : name? (p.name.1 ++ ([':', ' '] ++ p.type.1 ++ v))
      = some (p.name.1, [':', ' '] ++ p.type.1 ++ v) := by
    rw [name?_append hcolon, name?_of_letters p.name.2.1 fun c hc => p.name.letters hc]
    rfl
  have htype : ∀ c ∈ p.type.1, isTypeChar c = true := fun c hc => p.type.letters hc
  have hblank : isBlank ':' = false := by decide
  have hstart : trimStart (' ' :: (p.type.1 ++ v)) = p.type.1 ++ v := by
    have hstops : Stops isBlank p.type.1 := fun c hc =>
      isBlank_eq_false_of_isTypeChar (htype c (List.mem_of_head? hc))
    rw [trimStart_cons_of_blank (by decide)]
    exact trimStart_of_stops (hstops.append p.type.2.1 v)
  have htake : (p.type.1 ++ v).takeWhile isTypeChar = p.type.1 := by
    rw [takeWhile_append_of_stops hv, List.takeWhile_eq_self_iff]
    exact htype
  have hdrop : (p.type.1 ++ v).dropWhile isTypeChar = v := by
    rw [dropWhile_append_of_stops hv, List.dropWhile_eq_nil_iff.2 htype, List.nil_append]
  have hmore : trimStart ([':', ' '] ++ p.type.1 ++ v) = ':' :: ' ' :: (p.type.1 ++ v) :=
    trimStart_of_stops (.cons hblank _)
  have happ : p.name.1 ++ [':', ' '] ++ p.type.1 ++ v
      = p.name.1 ++ ([':', ' '] ++ p.type.1 ++ v) := by
    simp only [List.append_assoc]
  rw [happ, Variable.front?_of_colon hname hmore, hstart, htake, hdrop, if_neg p.type.2.1]
  rfl

theorem Parameter.inLine_print (p : Parameter) {v : Text} (hv : Stops isTypeChar v) :
    Variable.inLine (p.print ++ v) = p.toVariable :: Variable.inLine v :=
  Variable.inLine_dollar_of_some (p.front?_print hv)

theorem inLine_join (ps : List Parameter) {v : Text} (hv : Stops isTypeChar v) :
    Variable.inLine (join [',', ' '] (ps.map Parameter.print) ++ v)
      = ps.map Parameter.toVariable ++ Variable.inLine v := by
  induction ps with
  | nil => rfl
  | cons p ps ih =>
    cases ps with
    | nil => exact p.inLine_print hv
    | cons q qs =>
      have hcomma : Stops isTypeChar
          ([',', ' '] ++ (join [',', ' '] ((q :: qs).map Parameter.print) ++ v)) :=
        .cons (by decide) _
      have hdollar : '$' ∉ [',', ' '] := by decide
      rw [List.map_cons, List.map_cons, join, ← List.map_cons, List.append_assoc,
        List.append_assoc, p.inLine_print hcomma, Variable.inLine_append_of_no_dollar hdollar, ih]
      rfl

theorem toVariable_injective : Function.Injective Parameter.toVariable := by
  rintro ⟨⟨n, hn⟩, ⟨t, ht⟩⟩ ⟨⟨n', hn'⟩, ⟨t', ht'⟩⟩ h
  cases h
  rfl

namespace Source

theorem inLine_signature (ps : List Parameter) :
    Variable.inLine (signature ps ++ [' ', '{']) = ps.map Parameter.toVariable := by
  unfold signature
  by_cases h : ps = []
  · rw [if_pos h, h]
    exact Variable.inLine_eq_nil (by decide)
  · have hclose : Stops isTypeChar [')', ' ', '{'] := .cons (by decide) _
    have hend : Variable.inLine [')', ' ', '{'] = [] := Variable.inLine_eq_nil (by decide)
    have hopen : '$' ∉ ['('] := by decide
    rw [if_neg h, List.append_assoc, List.append_assoc,
      Variable.inLine_append_of_no_dollar hopen]
    show Variable.inLine (join [',', ' '] (ps.map Parameter.print) ++ [')', ' ', '{']) = _
    rw [inLine_join ps hclose, hend, List.append_nil]

theorem stops_signature (ps : List Parameter) :
    Stops isNameChar (signature ps ++ [' ', '{']) := by
  unfold signature
  split
  · exact .cons (by decide) _
  · exact .cons (by decide) _

/-! ## The head line -/

variable (s : Source)

theorem locate?_headLine :
    Header.locate? s.headLine
      = some (⟨s.kind, s.name.1⟩, signature s.parameters ++ [' ', '{']) := by
  have hrest := stops_signature s.parameters
  have hstart : trimStart (' ' :: (s.name.1 ++ (signature s.parameters ++ [' ', '{'])))
      = s.name.1 ++ (signature s.parameters ++ [' ', '{']) := by
    rw [trimStart_cons_of_blank (by decide)]
    exact trimStart_of_stops (s.name.stops.append s.name.2.1 _)
  have hname : name? (s.name.1 ++ (signature s.parameters ++ [' ', '{']))
      = some (s.name.1, signature s.parameters ++ [' ', '{']) := by
    rw [name?_append hrest, name?_of_letters s.name.2.1 fun c hc => s.name.letters hc]
    rfl
  have hblank : isBlank ' ' = true := by decide
  apply Header.locate?_of_front?
  unfold Header.front? headLine
  rw [List.append_assoc, List.append_assoc, List.append_assoc, OperationKind.ofFront?_keyword]
  simp only [Option.bind_eq_bind, Option.bind_some, List.cons_append, List.nil_append,
    List.head?_cons, Option.any_some, hblank, if_true, hstart, hname]
  rfl

/-- The variables of the lines are the parameters. -/
theorem inLines_lines : Variable.inLines s.lines = s.parameters.map Parameter.toVariable := by
  have hhead : Variable.inLine s.headLine = s.parameters.map Parameter.toVariable := by
    have hname : Written [' '] (s.kind.keyword ++ [' '] ++ s.name.1) := by
      refine Written.append (Written.append ?_ (.of_subset (by decide))) (s.name.written _)
      exact fun c hc => Or.inl (isTypeChar_of_isNameChar (s.kind.keyword_letters c hc))
    have hdollar : '$' ∉ s.kind.keyword ++ [' '] ++ s.name.1 :=
      hname.not_mem (by decide) (by decide)
    unfold headLine
    rw [List.append_assoc, Variable.inLine_append_of_no_dollar hdollar, inLine_signature]
  have hlater : (s.forest.lines ++ [Forest.closeLine]).flatMap Variable.inLine = [] := by
    rw [List.flatMap_eq_nil_iff]
    intro l hl
    have hwritten := (s.forest.legible_block l hl).written
    exact Variable.inLine_eq_nil (hwritten.not_mem (by decide) (by decide))
  have hdistinct : (s.parameters.map Parameter.toVariable).Nodup :=
    List.Nodup.map toVariable_injective s.distinct
  unfold Variable.inLines lines
  rw [List.flatMap_cons, hlater, List.append_nil, hhead]
  exact Variable.firsts_of_nodup hdistinct fun v _ hv => by cases hv

theorem after_signature : Text.after '{' (signature s.parameters ++ [' ', '{']) = [] := by
  have hno : ∀ c ∈ signature s.parameters ++ [' '], (c != '{') = true := by
    intro c hc
    have hwritten : Written signatureSigns (signature s.parameters ++ [' ']) :=
      (written_signature s.parameters).append (.of_subset (by decide))
    rw [bne_iff_ne]
    rintro rfl
    exact hwritten.not_mem (by decide) (by decide) hc
  have happ : signature s.parameters ++ [' ', '{']
      = (signature s.parameters ++ [' ']) ++ ['{'] := by
    rw [List.append_assoc]
    rfl
  unfold Text.after
  rw [happ, List.dropWhile_append_of_pos hno]
  rfl

/-- What is left to read of the lines is the block of the fields. -/
theorem ofLive?_lines :
    Document.ofLive? s.lines
      = some { s.operation with
          fields := Selection.fields s.name.1
            (Block.take [] (s.forest.lines ++ [Forest.closeLine])).body } := by
  have hbrace : '{' ∈ signature s.parameters ++ [' ', '{'] :=
    List.mem_append_right _ (by decide)
  have hop := Document.ofLive?_of_brace s.locate?_headLine s.forest.find?_block hbrace
  have hvariables := s.inLines_lines
  unfold lines at hvariables ⊢
  rw [hop, after_signature, hvariables]
  rfl

end Source

end Canonical

end GqlScan
