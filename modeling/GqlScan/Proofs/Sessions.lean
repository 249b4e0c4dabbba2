import GqlScan.Editor
import GqlScan.Proofs.PathUris
import GqlScan.Proofs.Registration

/-!
# Documents kept apart

A session answers one step after another, and documents are told apart by their URIs with escapes
undone. The answer to a step needs one text only, the one stored last for the document that the step
is about, or the text of its file when nothing was stored; what was stored for other documents,
stored before or asked for in between is of no consequence. Within an answer every text is read by a
parser that nothing was asked before, so that no registered type outlives it.

The texts are kept by a library. Everything here rests on `Library.Keeps`, which says what the
library makes of one text put into it.

Main statements: `source_foldl_after`, which text a document has after some steps, and
`answers_apart`.
-/

namespace GqlScan.Editor

open Text

/-! ## Steps about a document -/

/-- Whether a step is about a document, in whatever spelling of its URI. -/
def Step.isAbout (uri : Text) (step : Step) : Bool := key step.uri == key uri

/-- The text that a step stores for a document. -/
def Step.storedFor? (uri : Text) : Step → Option Text
  | .store other content => if key other = key uri then some content else none
  | .save _ _ => none
  | .hover _ _ _ => none

theorem Step.storedFor?_of_not_isAbout {uri : Text} {step : Step} (h : step.isAbout uri = false) :
    step.storedFor? uri = none := by
  cases step with
  | store other content => exact if_neg (beq_eq_false_iff_ne.1 h)
  | save other outcome => rfl
  | hover other line column => rfl

/-- What a step stores for a document does not depend on the spelling of its URI. -/
theorem Step.storedFor?_congr (step : Step) {uri other : Text} (h : key other = key uri) :
    step.storedFor? other = step.storedFor? uri := by
  cases step with
  | store first content => rw [storedFor?, storedFor?, h]
  | save first outcome => rfl
  | hover first line column => rfl

/-- The text that some steps store last for a document. -/
def lastStored? (uri : Text) (steps : List Step) : Option Text :=
  (steps.filterMap (·.storedFor? uri)).getLast?

theorem lastStored?_cons (uri : Text) (step : Step) (steps : List Step) :
    lastStored? uri (step :: steps) = (lastStored? uri steps).or (step.storedFor? uri) := by
  unfold lastStored?
  cases hstored : step.storedFor? uri with
  | none => rw [List.filterMap_cons_none hstored, Option.or_none]
  | some content =>
    rw [List.filterMap_cons_some hstored]
    cases hlast : steps.filterMap (·.storedFor? uri) with
    | nil => rfl
    | cons first later =>
      rw [List.getLast?_cons_cons]
      cases hsome : (first :: later).getLast? with
      | none => cases List.getLast?_eq_none_iff.1 hsome
      | some last => rfl

section

variable {σ : Type} {documents : Library σ} {disk : Disk} {start s s' : σ} {uri : Text}

variable (documents start) in
/-- What a library keeps in a session in which one text is stored at most. -/
def alone (uri : Text) : Option Text → σ
  | none => start
  | some content => documents.put start uri content

/-! ## Answers -/

/-- The answers to some steps and those behind them. -/
theorem answers_append (w : Workspace) (s : σ) (before later : List Step) :
    answers documents w s (before ++ later)
      = answers documents w s before
        ++ answers documents w (before.foldl (after documents) s) later := by
  induction before generalizing s with
  | nil => rfl
  | cons step before ih => exact congrArg (_ :: ·) (ih (after documents s step))

theorem length_answers (w : Workspace) (s : σ) (steps : List Step) :
    (answers documents w s steps).length = steps.length := by
  induction steps generalizing s with
  | nil => rfl
  | cons step steps ih => exact congrArg (· + 1) (ih (after documents s step))

/-- The answer to a step in the middle of a session. -/
theorem getElem?_answers (w : Workspace) (s : σ) (before later : List Step) (step : Step) :
    (answers documents w s (before ++ step :: later))[before.length]?
      = some (answer documents w ((before ++ [step]).foldl (after documents) s) step) := by
  rw [answers_append, List.getElem?_append_right (Nat.le_of_eq (length_answers w s before)),
    length_answers, Nat.sub_self, List.foldl_append]
  rfl

theorem validate_congr (h : documents.source s uri = documents.source s' uri) :
    validate documents s uri = validate documents s' uri := by
  unfold validate
  rw [h]

theorem point_congr (h : documents.source s uri = documents.source s' uri) (line : Nat)
    (column : Int) : point documents s uri line column = point documents s' uri line column := by
  unfold point
  rw [h]

/-- **The answer to a step looks at the text of its document alone.** -/
theorem answer_congr (w : Workspace) {step : Step}
    (h : documents.source s step.uri = documents.source s' step.uri) :
    answer documents w s step = answer documents w s' step := by
  cases step with
  | store other content =>
    have hvalidate : validate documents s other = validate documents s' other := validate_congr h
    rw [answer, answer, hvalidate]
  | save other outcome => rfl
  | hover other line column =>
    have hpoint : point documents s other line column = point documents s' other line column :=
      point_congr h line column
    rw [answer, answer, hpoint]

/-- **What is answered when the text of a document has been stored:** its diagnostics when its path
has the suffix of documents, and nothing when it has not. A URI may also name no path. -/
inductive Publishes (uri content : Text) : Answer → Prop where
  | document {file : Path} {stem : Text} : Uri.toPath uri = .ok file → stem ≠ [] →
      file.name = stem ++ ".gql".toList →
      Publishes uri content (.told [.publish uri (diagnostics content)])
  | other {file : Path} : Uri.toPath uri = .ok file →
      (¬ ∃ stem, stem ≠ [] ∧ file.name = stem ++ ".gql".toList) → Publishes uri content (.told [])
  | noPath {fault : Uri.Fault} : Uri.toPath uri = .error fault →
      Publishes uri content (.failed (.uri fault) [])

/-- **What is answered at a line and column of a document,** given its text. -/
def described (source : Except ReadFault Text) (line : Nat) (column : Int) : Answer :=
  match source with
  | .ok content => .described (hover content line column)
  | .error fault => .failed (.source fault) []

theorem point_eq (s : σ) (uri : Text) (line : Nat) (column : Int) :
    point documents s uri line column = described (documents.source s uri) line column := by
  unfold point described
  cases documents.source s uri <;> rfl

/-- What is validated is published. -/
theorem publishes_validate {content : Text} (h : documents.source s uri = .ok content) :
    Publishes uri content (validate documents s uri) := by
  unfold validate
  cases hpath : Uri.toPath uri with
  | error fault =>
    have hdocument : Uri.isDocument uri = .error fault := by
      unfold Uri.isDocument
      rw [hpath]
      rfl
    rw [hdocument]
    exact .noPath hpath
  | ok file =>
    rw [Uri.isDocument_of_toPath hpath]
    cases hsuffix : file.isDocument with
    | true =>
      obtain ⟨stem, hstem, hname⟩ := Path.isDocument_iff.1 hsuffix
      dsimp only
      rw [h]
      exact .document hpath hstem hname
    | false =>
      refine .other hpath fun hname => ?_
      rw [Path.isDocument_iff.2 hname] at hsuffix
      cases hsuffix

/-! ## Texts -/

variable (h : documents.Keeps disk start)
include h

theorem source_put_self (s : σ) (uri content : Text) :
    documents.source (documents.put s uri content) uri = .ok content :=
  (h.source_put s uri content uri).trans (if_pos rfl)

theorem source_alone (uri : Text) (content? : Option Text) :
    documents.source (alone documents start uri content?) uri
      = content?.elim (documents.source start uri) .ok := by
  cases content? with
  | none => rfl
  | some content => exact source_put_self h start uri content

/-- **After a step a document has the text that the step stores for it,** or else the text that it
had before. -/
theorem source_after (s : σ) (uri : Text) (step : Step) :
    documents.source (after documents s step) uri
      = (step.storedFor? uri).elim (documents.source s uri) .ok := by
  cases step with
  | store other content =>
    refine (h.source_put s other content uri).trans ?_
    rw [Step.storedFor?]
    by_cases hkey : key other = key uri
    · rw [if_pos hkey.symm, if_pos hkey]
      rfl
    · rw [if_neg fun e => hkey e.symm, if_neg hkey]
      rfl
  | save other outcome => rfl
  | hover other line column => rfl

/-- **After some steps a document has the text that they store for it last.** -/
theorem source_foldl_after (s : σ) (uri : Text) (steps : List Step) :
    documents.source (steps.foldl (after documents) s) uri
      = (lastStored? uri steps).elim (documents.source s uri) .ok := by
  induction steps generalizing s with
  | nil => rfl
  | cons step steps ih =>
    rw [List.foldl_cons, ih, source_after h, lastStored?_cons]
    cases lastStored? uri steps <;> rfl

/-- Two sessions in which a document has the same text go on alike as far as the document is
concerned, when one of them takes the steps about the document alone. -/
theorem answers_filter (w : Workspace)
    (hagree : ∀ other, key other = key uri → documents.source s other = documents.source s' other)
    (steps : List Step) :
    ((steps.zip (answers documents w s steps)).filter fun p => p.1.isAbout uri).map Prod.snd
      = answers documents w s' (steps.filter (·.isAbout uri)) := by
  induction steps generalizing s s' with
  | nil => rfl
  | cons step steps ih =>
    have hzip : (step :: steps).zip (answers documents w s (step :: steps))
        = (step, answer documents w (after documents s step) step)
          :: steps.zip (answers documents w (after documents s step) steps) := rfl
    rw [hzip]
    cases habout : step.isAbout uri with
    | false =>
      simp only [List.filter_cons, habout, Bool.false_eq_true, if_false]
      refine ih fun other hkey => ?_
      rw [source_after h, step.storedFor?_congr hkey, Step.storedFor?_of_not_isAbout habout,
        Option.elim_none, hagree other hkey]
    | true =>
      have hafter : ∀ other, key other = key uri →
          documents.source (after documents s step) other
            = documents.source (after documents s' step) other := by
        intro other hkey
        rw [source_after h, source_after h, hagree other hkey]
      have hanswer := answer_congr w (hafter step.uri (beq_iff_eq.1 habout))
      simp only [List.filter_cons, habout, if_true, List.map_cons, hanswer, ih hafter, answers]

end

/-! ## Parsers -/

/-- A document is without complaint when an operation or a type is found in it. -/
theorem diagnostics_eq_nil_iff (content : Text) :
    diagnostics content = []
      ↔ (∃ o, Document.operation? content = some o) ∨ Schema.definitions content ≠ [] := by
  unfold diagnostics
  cases Document.operation? content with
  | some o => exact iff_of_true rfl (.inl ⟨o, rfl⟩)
  | none =>
    cases Schema.definitions content with
    | cons d ds => exact iff_of_true rfl (.inr (List.cons_ne_nil d ds))
    | nil => exact iff_of_false nofun fun h => h.elim (fun ⟨o, ho⟩ => by cases ho) fun h => h rfl

/-- What a parser was asked before has no part in the diagnostics. -/
theorem diagnostics_eq_nil_iff_step (content : Text) (types : NestedTypes) :
    diagnostics content = []
      ↔ (∃ o, (Parser.step types (.operation content)).2 = .operation (some o))
        ∨ (Parser.step types (.schema content)).2 ≠ .schema [] := by
  have hoperation : ∀ o, (Parser.step types (.operation content)).2 = .operation (some o)
      ↔ Document.operation? content = some o := by
    intro o
    rw [Parser.step_operation]
    exact ⟨Parser.Answer.operation.inj, congrArg Parser.Answer.operation⟩
  have hschema : (Parser.step types (.schema content)).2 = .schema []
      ↔ Schema.definitions content = [] :=
    ⟨Parser.Answer.schema.inj, congrArg Parser.Answer.schema⟩
  rw [diagnostics_eq_nil_iff, ne_eq, ne_eq, hschema]
  simp only [hoperation]

/-- A description of a word that is no type of the document is read off the answers of a parser that
was asked for the operation of this document and nothing else. -/
theorem describeInOperation_eq (content word : Text) :
    describeInOperation content word
      = (Document.operation? content).bind fun o =>
        if word = o.name then some (fieldList (o.kind.keyword ++ [' '] ++ word) o.fields)
        else ((Parser.after .empty [.operation content]).get? word).map (fieldList word) := by
  have htypes : Parser.after .empty [.operation content] = Document.nestedTypes content := rfl
  unfold describeInOperation
  rw [htypes]
  cases Document.operation? content with
  | none => rfl
  | some o =>
    cases (Document.nestedTypes content).get? word <;> rfl

/-! ## Sessions -/

/--
**A session keeps documents apart.**

Whatever library keeps the texts, and whatever steps come before and behind it: the answer to a step
is the answer in a session in which nothing was stored but the text stored last for the document of
the step, in whatever spelling of its URI, and nothing at all when none was. The answers to the
steps about one document are those of a session that consists of these steps alone. In particular
what is published of a document are the diagnostics of the text just stored, and what is described
at a place of it is found in the text stored last, or in the text of its file when none was. And
nothing is registered from one text to the next: diagnostics do not depend on what a parser was
asked before, and descriptions are read off a parser that was asked nothing else.
-/
theorem answers_apart {σ : Type} {documents : Library σ} {start : σ} (w : Workspace)
    (h : documents.Keeps w.disk start) :
    (∀ (before later : List Step) (step : Step),
      (answers documents w start (before ++ step :: later))[before.length]?
        = some (answer documents w
          (alone documents start step.uri (lastStored? step.uri (before ++ [step]))) step))
    ∧ (∀ (uri : Text) (steps : List Step),
      ((steps.zip (answers documents w start steps)).filter fun p => p.1.isAbout uri).map Prod.snd
        = answers documents w start (steps.filter (·.isAbout uri)))
    ∧ (∀ (before later : List Step) (uri content : Text),
      ∃ answer,
        (answers documents w start (before ++ .store uri content :: later))[before.length]?
          = some answer ∧ Publishes uri content answer)
    ∧ (∀ (before later : List Step) (uri : Text) (line : Nat) (column : Int),
      (answers documents w start (before ++ .hover uri line column :: later))[before.length]?
        = some (described
          ((lastStored? uri before).elim (w.disk.readText (documents.path uri)) .ok) line column))
    ∧ (∀ content types, diagnostics content = []
      ↔ (∃ o, (Parser.step types (.operation content)).2 = .operation (some o))
        ∨ (Parser.step types (.schema content)).2 ≠ .schema [])
    ∧ ∀ content word, describeInOperation content word
      = (Document.operation? content).bind fun o =>
        if word = o.name then some (fieldList (o.kind.keyword ++ [' '] ++ word) o.fields)
        else ((Parser.after .empty [.operation content]).get? word).map (fieldList word) := by
  refine ⟨fun before later step => ?_, fun uri steps => answers_filter h w (fun _ _ => rfl) steps,
    fun before later uri content => ?_, fun before later uri line column => ?_,
    diagnostics_eq_nil_iff_step, describeInOperation_eq⟩
  · rw [getElem?_answers]
    refine congrArg some (answer_congr w ?_)
    rw [source_foldl_after h, source_alone h]
  · rw [getElem?_answers, List.foldl_append]
    exact ⟨_, rfl, publishes_validate (source_put_self h _ uri content)⟩
  · rw [getElem?_answers, List.foldl_append, ← h.source_start, ← source_foldl_after h]
    exact congrArg some (point_eq _ uri line column)

/-- A library that keeps a list of texts, the last one in front. The file of a document is looked
for at the path of its URI. -/
def shelf (disk : Disk) : Library (List (Text × Text)) where
  put := fun texts uri content => (key uri, content) :: texts
  source := fun texts uri =>
    (texts.lookup (key uri)).elim
      (disk.readText ((Uri.toPath uri).toOption.getD ⟨.relative, []⟩)) .ok
  path := fun uri => (Uri.toPath uri).toOption.getD ⟨.relative, []⟩

theorem keeps_shelf (disk : Disk) : (shelf disk).Keeps disk [] where
  source_start := fun _ => rfl
  source_put := fun texts uri content other => by
    change ((List.lookup (key other) ((key uri, content) :: texts)).elim _ _) = _
    rw [List.lookup_cons]
    by_cases hkey : key other = key uri
    · rw [if_pos hkey, beq_iff_eq.2 hkey]
      rfl
    · rw [if_neg hkey, beq_eq_false_iff_ne.2 hkey]
      rfl

/-- A directory with a document that is not open. -/
def unopened : Workspace where
  disk := FileTree.disk
    { current := ["proj".toList]
      entries :=
        [(["proj".toList, "c.gql".toList], .file (Utf8.encode "type C \x7b\n\x7d\n".toList))] }
  directory := Path.ofText "/proj".toList
  root? := none

/-- A session about a document in two spellings of its URI, about another one and about one that is
not open. -/
def spellings : List Step :=
  [.store "file:///proj/a%20b.gql".toList "type A \x7b\n\x7d\n".toList,
    .store "file:///proj/d.gql".toList "type A @table \x7b\n\x7d\n".toList,
    .hover "file:///proj/a b.gql".toList 0 5,
    .hover "file:///proj/c.gql".toList 0 5]

theorem answers_apart_spellings :
    (shelf unopened.disk).Keeps unopened.disk []
      ∧ (answers (shelf unopened.disk) unopened [] spellings)[2]?
        = some (.described (some "**type A**\n".toList))
      ∧ (answers (shelf unopened.disk) unopened [] spellings)[3]?
        = some (.described (some "**type C**\n".toList)) := by
  obtain ⟨hstep, -⟩ := answers_apart unopened (keeps_shelf unopened.disk)
  have hfirst := hstep (spellings.take 2) (spellings.drop 3)
    (.hover "file:///proj/a b.gql".toList 0 5)
  have hsecond := hstep (spellings.take 3) [] (.hover "file:///proj/c.gql".toList 0 5)
  refine ⟨keeps_shelf _, hfirst.trans (congrArg some ?_), hsecond.trans (congrArg some ?_)⟩
  · decide +kernel
  · decide +kernel

end GqlScan.Editor
