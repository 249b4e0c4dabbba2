import GqlScan.Proofs.JsonReading
import GqlScan.Proofs.Launches
import GqlScan.Proofs.Sessions

/-!
# The editor and the command line on one text

The editor hands over a text as it is, a call reads it from a file in which every line end has
become a line feed. Both are cut into the same lines, for a return with a feed behind it is one
boundary and a return alone is one too. All reading starts from the lines, so both find the same.
What a call prints of it is said by reading the printed text again.

Main statements: `unifyLineFeeds_eq`, `lineTexts_unifyLineFeeds` and `Cli.agrees_with_editor`.
-/

namespace GqlScan

open Text

/-! ## Lines -/

namespace Text

/-- The texts of lines with a character in front depend on the texts of the lines alone. -/
theorem map_text_consLine (c : Char) {ls ls' : List Line}
    (h : ls.map Line.text = ls'.map Line.text) :
    (consLine c ls).map Line.text = (consLine c ls').map Line.text := by
  cases ls with
  | nil =>
    rw [List.map_eq_nil_iff.1 h.symm]
  | cons l ls =>
    cases ls' with
    | nil => cases h
    | cons l' ls' =>
      obtain ⟨hfirst, hrest⟩ := List.cons.inj h
      exact List.cons_eq_cons.2 ⟨congrArg (c :: ·) hfirst, hrest⟩

/-- A text in which every return with a feed behind it has become the feed alone. -/
def withoutPairs : Text → Text
  | [] => []
  | '\r' :: '\n' :: rest => '\n' :: withoutPairs rest
  | c :: rest => c :: withoutPairs rest

/-- **Line ends are unified in two steps:** first the pairs, then the returns that remain. -/
theorem unifyLineFeeds_eq (t : Text) :
    unifyLineFeeds t = (withoutPairs t).map fun c => if c = '\r' then '\n' else c := by
  fun_induction unifyLineFeeds t with
  | case1 => rfl
  | case2 rest ih => rw [withoutPairs, List.map_cons, ih, if_neg (by decide)]
  | case3 c rest hpair ih =>
    rw [withoutPairs, List.map_cons, ih]
    exact hpair

theorem lines_feed (t : Text) : lines ('\n' :: t) = ⟨[], ['\n']⟩ :: lines t := by
  rw [lines]
  · rfl
  · nofun

/-- **Unified line ends are ends of the same lines.** -/
theorem lineTexts_unifyLineFeeds (t : Text) : lineTexts (unifyLineFeeds t) = lineTexts t := by
  unfold lineTexts
  fun_induction lines t with
  | case1 => rfl
  | case2 rest ih =>
    rw [unifyLineFeeds, lines_feed, List.map_cons, List.map_cons, ih]
  | case3 c rest hpair hbreak ih =>
    rw [unifyLineFeeds]
    · split
      · rw [lines_feed, List.map_cons, List.map_cons, ih]
      · rename_i hc
        rw [lines]
        · rw [if_pos hbreak, List.map_cons, List.map_cons, ih]
        · exact fun more hr => absurd hr hc
    · exact hpair
  | case4 c rest hpair hbreak ih =>
    have hc : c ≠ '\r' := by
      rintro rfl
      exact hbreak (by decide)
    rw [unifyLineFeeds]
    · rw [if_neg hc, lines]
      · rw [if_neg hbreak]
        exact map_text_consLine c ih
      · exact fun more hr => absurd hr hc
    · exact hpair

end Text

/-! ## Reading -/

section

variable {a b : Text} (h : lineTexts a = lineTexts b)
include h

/-- A scan starts from the lines of a document. -/
theorem Document.scan_congr (types : NestedTypes) : scan types a = scan types b := by
  unfold scan header? Scope.linesOf Comment.liveLines
  rw [h]

theorem Document.operation?_congr : operation? a = operation? b := by
  have hscan := congrArg Prod.fst (scan_congr h .empty)
  rwa [scan_eq, scan_eq] at hscan

theorem Document.nestedTypes_congr : nestedTypes a = nestedTypes b :=
  congrArg Prod.snd (scan_congr h .empty)

theorem Schema.definitions_congr : definitions a = definitions b := by
  unfold definitions progress Comment.liveLines
  rw [h]

/-- What is shown of a document depends on its lines. -/
theorem Cli.shows_congr (s : CommandLine.Settings) : Shows s a ↔ Shows s b := by
  unfold Shows
  rw [Document.operation?_congr h, Document.nestedTypes_congr h, Schema.definitions_congr h]

end

/-! ## Files -/

namespace Cli

open CommandLine (Settings)

variable {V : Type} {w : World V} {s : Settings} {x : Text}

/-- A document that holds a text is scanned when something is shown of the text. -/
theorem scanned_iff (h : w.disk.HoldsText s.file x) : Scanned w s ↔ Shows s x := by
  have hlines := shows_congr (lineTexts_unifyLineFeeds x) s
  constructor
  · rintro ⟨text, htext, hshows⟩
    have hsame := Utf8.encode_injective (Entry.file.inj (h.bytes.symm.trans htext.bytes))
    rw [← hsame] at hshows
    exact hlines.1 hshows
  · exact fun hshows => ⟨x, h, hlines.2 hshows⟩

/-- A call that does not ask for code succeeds when its document is scanned. -/
theorem exit_zero_iff_scanned (hasked : s.codegen = false) :
    (perform w s).ending = .exit 0 ↔ Scanned w s := by
  by_cases hscanned : Scanned w s
  · refine iff_of_true ?_ hscanned
    obtain ⟨content, text, logs, -, -, hperform⟩ := perform_of_scanned hscanned
    rw [hperform, hasked]
    rfl
  · exact iff_of_false (idle_perform hscanned).ending hscanned

/-- What is printed of a document that holds a text is what is found in the text. -/
theorem stdout_perform (hasked : s.codegen = false) (h : w.disk.HoldsText s.file x)
    (hexit : (perform w s).ending = .exit 0) :
    ∃ text, finding s (unifyLineFeeds x) = .found (.ok text)
      ∧ (perform w s).stdout = Points.ofText (text ++ ['\n']) := by
  obtain ⟨content, text, logs, hread, hfinding, hperform⟩ :=
    perform_of_scanned ((exit_zero_iff_scanned hasked).1 hexit)
  rw [h.readText] at hread
  cases hread
  refine ⟨text, hfinding, ?_⟩
  rw [hperform, hasked]
  exact List.append_nil _

/-- The command line that asks for the operation of a document as JSON. -/
def operationLine (file : Text) : List Text := [file, "--json".toList]

/-- The command line that asks for the types of a document as JSON. -/
def typesLine (file : Text) : List Text := [file, "--schema".toList, "--json".toList]

section

variable {file : Text} (hword : CommandLine.role file = .ok .word)
include hword

theorem run_operationLine (w : World V) :
    run w (operationLine file)
      = perform w { file := Path.ofText file, projectDir? := some w.directory, json := true } :=
  run_of_scan (CommandLine.read_line hword [.json] (by decide) none nofun w.directory)

theorem run_typesLine (w : World V) :
    run w (typesLine file)
      = perform w
        { file := Path.ofText file, projectDir? := some w.directory, schema := true
          json := true } :=
  run_of_scan (CommandLine.read_line hword [.schema, .json] (by decide) none nofun w.directory)

end

/-! ## What is printed -/

/-- The word for a kind of operation. -/
def kindWord : OperationKind → Text
  | .query => "query".toList
  | .mutation => "mutation".toList
  | .subscription => "subscription".toList

/-- A name and a type. -/
def typed (name type : Text) : Json.Value :=
  .object [("name".toList, .str name), ("type".toList, .str type)]

/-- An operation and the nested types of its document, as data. -/
def operationData (o : Operation) (nested : List (Text × List Field)) : Json.Value :=
  .object
    [("kind".toList, .str (kindWord o.kind)), ("name".toList, .str o.name),
      ("variables".toList, .array (o.parameters.map fun v => typed v.name v.type)),
      ("fields".toList, .array (o.fields.map fun f => typed f.name f.type)),
      ("nested".toList,
        .object (nested.map fun e => (e.1, .array (e.2.map fun f => typed f.name f.type))))]

theorem ofOperation_eq (types : NestedTypes) (o : Operation) :
    Export.ofOperation types o = operationData o types.entries := by
  have hkind : o.kind.keyword = kindWord o.kind := by cases o.kind <;> rfl
  unfold Export.ofOperation
  rw [hkind]
  rfl

/-- The operation of a text is printed when the call for it as JSON succeeds: what is printed is
read as the data of the operation. -/
theorem read?_stdout (hasked : s.codegen = false) (hschema : s.schema = false)
    (hjson : s.json = true) (h : w.disk.HoldsText s.file x)
    (hexit : (perform w s).ending = .exit 0) :
    ∃ o printed, Document.operation? x = some o
      ∧ (perform w s).stdout = Points.ofText printed
      ∧ Json.read? printed = some (operationData o (Document.nestedTypes x).entries) := by
  obtain ⟨text, hfinding, hstdout⟩ := stdout_perform hasked h hexit
  have hlines := lineTexts_unifyLineFeeds x
  unfold finding at hfinding
  rw [hschema, if_neg Bool.false_ne_true, Document.scan_empty, Document.operation?_congr hlines,
    Document.nestedTypes_congr hlines] at hfinding
  cases ho : Document.operation? x with
  | none =>
    rw [ho] at hfinding
    cases hfinding
  | some o =>
    rw [ho, hjson] at hfinding
    cases hfinding
    refine ⟨o, _, rfl, hstdout, ?_⟩
    rw [ofOperation_eq]
    exact Json.read?_render _ 0 (by decide)

/--
**The editor and the command line agree on what a document contains.**

Line ends are unified when every pair of a return and a feed, and every return that remains, becomes
one feed. This makes no difference to a parser, whatever it has registered before: the answer to the
call for the operation and the nested types after it are the same, and so is the answer to the call
for the types. A file that holds a text is read with unified line ends. The editor therefore has no
complaint about a text exactly when a call for the operation or for the types of a file that holds
it succeeds; and when the call for the operation does, it prints JSON in which kind, name,
variables, fields and nested types are those of the operation of the text.
-/
theorem agrees_with_editor (x : Text) :
    unifyLineFeeds x = (withoutPairs x).map (fun c => if c = '\r' then '\n' else c)
    ∧ (∀ types,
      Parser.step types (.operation x) = Parser.step types (.operation (unifyLineFeeds x))
      ∧ Parser.step types (.schema x) = Parser.step types (.schema (unifyLineFeeds x)))
    ∧ ∀ (w : World V) (file : Text), CommandLine.role file = .ok .word →
        w.disk.HoldsText (Path.ofText file) x →
        w.disk.readText (Path.ofText file) = .ok (unifyLineFeeds x)
        ∧ (Editor.diagnostics x = []
            ↔ (run w (operationLine file)).ending = .exit 0
              ∨ (run w (typesLine file)).ending = .exit 0)
        ∧ ((run w (operationLine file)).ending = .exit 0 →
            ∃ o printed, Document.operation? x = some o
              ∧ (run w (operationLine file)).stdout = Points.ofText printed
              ∧ Json.read? printed
                = some (operationData o (Document.nestedTypes x).entries)) := by
  have hlines := (lineTexts_unifyLineFeeds x).symm
  refine ⟨unifyLineFeeds_eq x, fun types => ⟨?_, ?_⟩,
    fun w file hword hholds => ⟨hholds.readText, ?_, ?_⟩⟩
  · exact congrArg (fun found => (found.2, Parser.Answer.operation found.1))
      (Document.scan_congr hlines types)
  · exact congrArg (fun definitions => (types, Parser.Answer.schema definitions))
      (Schema.definitions_congr hlines)
  · rw [run_operationLine hword, run_typesLine hword, exit_zero_iff_scanned rfl,
      exit_zero_iff_scanned rfl, scanned_iff hholds, scanned_iff hholds,
      Editor.diagnostics_eq_nil_iff]
    refine or_congr ?_ Iff.rfl
    exact exists_congr fun o => ⟨fun ho => ⟨ho, .inl rfl⟩, And.left⟩
  · rw [run_operationLine hword]
    exact read?_stdout rfl rfl rfl hholds

/-- A text with three kinds of line ends, two of them next to each other. -/
def mixedText : Text := "query Q \x7b\r\r\nid\rname\n\x7d\r\n".toList

/-- A directory with a document that holds `mixedText`. -/
def mixedDirectory : World Plain where
  directory := Path.ofText "/w".toList
  disk := FileTree.disk
    { current := ["w".toList]
      entries := [(["w".toList, "a.gql".toList], .file (Utf8.encode mixedText))] }
  outcome := .completed 0 []
  yaml := Plain.library [] .null

theorem agrees_with_editor_mixedText :
    CommandLine.role "a.gql".toList = .ok .word
      ∧ mixedDirectory.disk.HoldsText (Path.ofText "a.gql".toList) mixedText
      ∧ (run mixedDirectory (operationLine "a.gql".toList)).ending = .exit 0
      ∧ Editor.diagnostics mixedText = []
      ∧ ∃ o printed, Document.operation? mixedText = some o
        ∧ o.fields.map Field.name = ["id".toList, "name".toList]
        ∧ (run mixedDirectory (operationLine "a.gql".toList)).stdout = Points.ofText printed
        ∧ Json.read? printed
          = some (operationData o (Document.nestedTypes mixedText).entries) := by
  have hword : CommandLine.role "a.gql".toList = .ok .word := rfl
  have hevaluated : (Path.ofText "a.gql".toList).hasNull = false
      ∧ mixedDirectory.disk (Path.ofText "a.gql".toList) = .file (Utf8.encode mixedText)
      ∧ ((Document.operation? mixedText).map fun o => o.fields.map Field.name)
        = some ["id".toList, "name".toList] := by decide +kernel
  obtain ⟨hnull, hbytes, hnames⟩ := hevaluated
  have hholds : mixedDirectory.disk.HoldsText (Path.ofText "a.gql".toList) mixedText :=
    ⟨Path.hasNull_eq_false_iff.1 hnull, hbytes⟩
  obtain ⟨o, ho, hnames⟩ := Option.map_eq_some_iff.1 hnames
  obtain ⟨-, -, hagrees⟩ := agrees_with_editor mixedText
  obtain ⟨-, hdiagnostics, hprinted⟩ := hagrees mixedDirectory _ hword hholds
  have hexit : (run mixedDirectory (operationLine "a.gql".toList)).ending = .exit 0 := by
    rw [run_operationLine hword, exit_zero_iff_scanned rfl, scanned_iff hholds]
    exact ⟨o, ho, .inl rfl⟩
  obtain ⟨o', printed, ho', hstdout, hread⟩ := hprinted hexit
  rw [ho] at ho'
  cases ho'
  exact ⟨hword, hholds, hexit, hdiagnostics.2 (.inl hexit), o, printed, ho, hnames, hstdout, hread⟩

end Cli

end GqlScan
