import GqlScan.Proofs.CommandLines
import GqlScan.Proofs.Connectors
import GqlScan.Proofs.PathUris
import GqlScan.Proofs.Registration

/-!
# When the code generator is launched

A call launches the code generator only after everything before the launch has gone well: the
document was read, the scan that was asked for found something that could be printed, the connector
file of the project was accepted, and the document is one that code is generated for. Whatever goes
wrong before, nothing is launched and the call does not report success.

Main statement: `launches_iff_cleared`.
-/

namespace GqlScan

open Text

namespace Cli

open CommandLine (Settings)

variable {V : Type} {w : World V} {s : Settings}

/-! ## What is asked for -/

/-- The scan that is asked for finds something in a text, and what it finds can be printed: types
and JSON always, the outline of an operation when it ends. -/
def Shows (s : Settings) (content : Text) : Prop :=
  if s.schema then Schema.definitions content ≠ []
  else ∃ o, Document.operation? content = some o
    ∧ (s.json = true
      ∨ ∃ outline, Outline.ofOperation (Document.nestedTypes content) o = .ok outline)

/-- The document is a file that holds the UTF-8 of a text in which something is shown. -/
def Scanned (w : World V) (s : Settings) : Prop :=
  ∃ text, w.disk.HoldsText s.file text ∧ Shows s (unifyLineFeeds text)

/-- The project has a directory with a connector file that is accepted, and the document is one that
code is generated for. -/
structure Ready (w : World V) (s : Settings) (dir : Path) : Prop where
  project : s.projectDir? = some dir
  connector : w.disk.HasFile (dir.child "connector.yaml".toList)
  accepted : ∃ config,
    Connector.load w.yaml w.disk w.directory (dir.child "connector.yaml".toList) = .ok config
  suffix : ∃ stem, stem ≠ [] ∧ s.file.name = stem ++ ".gql".toList

/-- Everything that is checked in front of a launch in a project directory. -/
structure Cleared (w : World V) (s : Settings) (dir : Path) : Prop extends Ready w s dir where
  asked : s.codegen = true
  scanned : Scanned w s

/-- Nothing was launched, and no success is reported. -/
structure Report.Idle (r : Report) : Prop where
  calls : r.calls = []
  ending : r.ending ≠ .exit 0

theorem Report.idle_complain (message : Text) : (Report.complain message).Idle := ⟨rfl, nofun⟩

theorem Report.Idle.preceded {r : Report} (h : r.Idle) (stdout : Points) (stderr : Text) :
    (r.preceded stdout stderr).Idle := ⟨h.calls, h.ending⟩

/-! ## Scanning -/

/-- **What is shown is what is found.** -/
theorem shows_iff (s : Settings) (content : Text) :
    Shows s content ↔ ∃ text, finding s content = .found (.ok text) := by
  unfold Shows finding
  cases s.schema with
  | true =>
    rw [if_pos rfl, if_pos rfl]
    cases hdefs : Schema.definitions content with
    | nil => exact iff_of_false (fun h => h rfl) fun ⟨text, h⟩ => by cases h
    | cons d ds =>
      refine iff_of_true (List.cons_ne_nil d ds) ?_
      cases s.json with
      | true => exact ⟨_, rfl⟩
      | false => exact ⟨_, rfl⟩
  | false =>
    rw [if_neg Bool.false_ne_true, if_neg Bool.false_ne_true, Document.scan_empty]
    cases Document.operation? content with
    | none => exact iff_of_false (fun ⟨o, h, _⟩ => by cases h) fun ⟨text, h⟩ => by cases h
    | some o =>
      cases s.json with
      | true => exact iff_of_true ⟨o, rfl, .inl rfl⟩ ⟨_, rfl⟩
      | false =>
        dsimp only
        rw [if_neg Bool.false_ne_true]
        constructor
        · rintro ⟨o', ho, h | ⟨outline, houtline⟩⟩
          · cases h
          · cases ho
            exact ⟨outline, congrArg Finding.found houtline⟩
        · rintro ⟨text, htext⟩
          exact ⟨o, rfl, .inr ⟨text, Finding.found.inj htext⟩⟩

/-- A document that is scanned is printed, and what else happens follows the printing. -/
theorem perform_of_scanned (h : Scanned w s) :
    ∃ content text logs, w.disk.readText s.file = .ok content
      ∧ finding s content = .found (.ok text)
      ∧ perform w s = (if s.codegen then generate w s else { ending := .exit 0 }).preceded
        (Points.ofText (text ++ ['\n'])) logs := by
  obtain ⟨raw, hraw, hshows⟩ := h
  obtain ⟨text, htext⟩ := (shows_iff s _).1 hshows
  have hread := hraw.readText
  refine ⟨unifyLineFeeds raw, text,
    logText s ((notices s (unifyLineFeeds raw)).map Notice.record), hread, htext, ?_⟩
  unfold perform scan
  rw [if_pos (Disk.holds_of_hasFile hraw.hasFile), hread]
  dsimp only
  rw [htext]

/-- A call whose document is not scanned ends there. -/
theorem idle_perform (h : ¬ Scanned w s) : (perform w s).Idle := by
  unfold perform
  split
  · cases hread : w.disk.readText s.file with
    | error fault =>
      cases fault with
      | nullCharacter => exact ⟨rfl, nofun⟩
      | openFault fault => exact Report.idle_complain _
      | undecodable error => exact Report.idle_complain _
    | ok content =>
      obtain ⟨text, htext, rfl⟩ := Disk.readText_eq_ok_iff.1 hread
      change (scan w s (unifyLineFeeds text)).Idle
      unfold scan
      cases hfinding : finding s (unifyLineFeeds text) with
      | nothing sought => exact (Report.idle_complain _).preceded _ _
      | found printed =>
        cases printed with
        | error failure => exact ⟨rfl, nofun⟩
        | ok printed =>
          have hshows := (shows_iff s _).2 ⟨printed, hfinding⟩
          exact absurd ⟨text, htext, hshows⟩ h
  · exact Report.idle_complain _

/-! ## Launching -/

/-- What a launch in a project directory leaves behind is read off the run. -/
theorem launch_of_run {dir : Path} {run : Generator.Run}
    (h : Generator.afterSave w.disk w.directory s.file dir.toText Generator.defaultExecutable
      w.outcome = some run) :
    (launch w s dir).calls = run.calls
      ∧ ((launch w s dir).ending = .exit 0
        ↔ run.calls ≠ [] ∧ ∃ stderr, w.outcome = .completed 0 stderr) := by
  have hsuccess := (Generator.follows_of_afterSave h).success_iff
  unfold launch
  rw [h, ← hsuccess]
  dsimp only
  cases hresult : run.result with
  | error error =>
    refine ⟨rfl, iff_of_false nofun ?_⟩
    rintro ⟨r, ⟨⟩, -⟩
  | ok result =>
    refine ⟨rfl, ?_⟩
    dsimp only
    cases hsucceeds : result.success with
    | true => exact iff_of_true rfl ⟨result, rfl, hsucceeds⟩
    | false =>
      refine iff_of_false (fun h => by cases h) ?_
      rintro ⟨r, ⟨⟩, h⟩
      rw [hsucceeds] at h
      cases h

/-- In a project that is ready the generator is launched, once. -/
theorem generate_of_ready {dir : Path} (h : Ready w s dir)
    (hdir : Path.ofText dir.toText = dir) :
    (∃ call : Generator.Call, call.IsFor w.directory dir.toText ∧ (generate w s).calls = [call])
      ∧ ((generate w s).ending = .exit 0 ↔ ∃ stderr, w.outcome = .completed 0 stderr) := by
  have hfind : Connector.find? w.disk dir = some (dir.child "connector.yaml".toList) :=
    if_pos (Disk.isFile_iff.2 h.connector)
  obtain ⟨config, hload⟩ := h.accepted
  obtain ⟨run, hrun⟩ : ∃ run, Generator.afterSave w.disk w.directory s.file dir.toText
      Generator.defaultExecutable w.outcome = some run :=
    Generator.exists_afterSave_iff.2 (Path.isDocument_iff.2 h.suffix)
  have hlaunch := launch_of_run hrun
  have hgenerate : (generate w s).calls = (launch w s dir).calls
      ∧ (generate w s).ending = (launch w s dir).ending := by
    unfold generate
    rw [h.project]
    dsimp only
    rw [hfind]
    dsimp only
    rw [hload]
    exact ⟨rfl, rfl⟩
  rw [hgenerate.1, hgenerate.2, hlaunch.1, hlaunch.2]
  cases Generator.follows_of_afterSave hrun with
  | launched _ hcall => exact ⟨⟨_, hcall, rfl⟩, and_iff_right nofun⟩
  | missing hconnector _ =>
    rw [hdir] at hconnector
    exact absurd h.connector hconnector

/-- There is no launch without a connector file, nor for a file that is no document. -/
theorem idle_launch {dir : Path} (hdir : Path.ofText dir.toText = dir)
    (h : s.file.isDocument = false ∨ ¬ w.disk.HasFile (dir.child "connector.yaml".toList)) :
    (launch w s dir).Idle := by
  unfold launch Generator.afterSave
  rw [hdir]
  cases hsuffix : s.file.isDocument with
  | false =>
    rw [if_neg Bool.false_ne_true]
    exact Report.idle_complain _
  | true =>
    have hnone : Connector.find? w.disk dir = none := by
      rw [hsuffix] at h
      exact if_neg (mt Disk.isFile_iff.1 (h.resolve_left nofun))
    rw [if_pos rfl, hnone]
    exact ⟨rfl, nofun⟩

/-- Where the project is not ready nothing is launched. -/
theorem idle_generate (h : ∀ dir, ¬ Ready w s dir)
    (hdir : ∀ dir ∈ s.projectDir?, Path.ofText dir.toText = dir) : (generate w s).Idle := by
  have hgenerates := generates w s
  generalize generate w s = r at hgenerates ⊢
  cases hgenerates with
  | noDirectory _ => exact ⟨rfl, nofun⟩
  | noConnector hproject hfile => exact idle_launch (hdir _ hproject) (.inr hfile)
  | loaded hproject hfile hload =>
    -- all that is left to be wrong is the suffix of the document
    have hsuffix : s.file.isDocument = false := by
      rw [Bool.eq_false_iff]
      exact fun hsuffix => h _ ⟨hproject, hfile, ⟨_, hload⟩, Path.isDocument_iff.1 hsuffix⟩
    exact (idle_launch (hdir _ hproject) (.inl hsuffix)).preceded _ _
  | reported _ _ _ _ => exact Report.idle_complain _
  | unreported _ _ _ _ => exact ⟨rfl, nofun⟩

/-! ## Calls -/

/-- A call that is cleared launches the generator once, behind what it printed. -/
theorem perform_of_cleared {dir : Path} (h : Cleared w s dir)
    (hdir : Path.ofText dir.toText = dir) :
    (∃ call : Generator.Call, call.IsFor w.directory dir.toText ∧ (perform w s).calls = [call])
      ∧ ((perform w s).ending = .exit 0 ↔ ∃ stderr, w.outcome = .completed 0 stderr)
      ∧ ∃ content text, w.disk.readText s.file = .ok content
        ∧ finding s content = .found (.ok text)
        ∧ Points.ofText (text ++ ['\n']) <+: (perform w s).stdout := by
  obtain ⟨content, text, logs, hread, hfinding, hperform⟩ := perform_of_scanned h.scanned
  obtain ⟨hcalls, hending⟩ := generate_of_ready h.toReady hdir
  rw [h.asked, if_pos rfl] at hperform
  rw [hperform]
  exact ⟨hcalls, hending, content, text, hread, hfinding, List.prefix_append _ _⟩

/-- A call that asks for code and is not cleared launches nothing and does not succeed. -/
theorem idle_perform_of_not_cleared (hasked : s.codegen = true) (h : ∀ dir, ¬ Cleared w s dir)
    (hdir : ∀ dir ∈ s.projectDir?, Path.ofText dir.toText = dir) : (perform w s).Idle := by
  by_cases hscanned : Scanned w s
  · obtain ⟨content, text, logs, -, -, hperform⟩ := perform_of_scanned hscanned
    have hready : ∀ dir, ¬ Ready w s dir := fun dir hready => h dir ⟨hready, hasked, hscanned⟩
    rw [hperform, hasked, if_pos rfl]
    exact (idle_generate hready hdir).preceded _ _
  · exact idle_perform hscanned

theorem calls_perform_of_not_asked (h : s.codegen = false) : (perform w s).calls = [] := by
  by_cases hscanned : Scanned w s
  · obtain ⟨content, text, logs, -, -, hperform⟩ := perform_of_scanned hscanned
    rw [hperform, h]
    rfl
  · exact (idle_perform hscanned).calls

section

variable (hback : ∀ dir ∈ s.projectDir?, Path.ofText dir.toText = dir)
include hback

/-- A call is cleared and launches the generator once, or it is not and launches nothing. -/
theorem calls_perform :
    (∃ dir, Cleared w s dir ∧ ∃ call, (perform w s).calls = [call])
      ∨ (∀ dir, ¬ Cleared w s dir) ∧ (perform w s).calls = [] := by
  by_cases hcleared : ∃ dir, Cleared w s dir
  · obtain ⟨dir, hcleared⟩ := hcleared
    obtain ⟨⟨call, -, hcalls⟩, -⟩ := perform_of_cleared hcleared (hback dir hcleared.project)
    exact .inl ⟨dir, hcleared, call, hcalls⟩
  · have hnone := not_exists.1 hcleared
    refine .inr ⟨hnone, ?_⟩
    cases hasked : s.codegen with
    | true => exact (idle_perform_of_not_cleared hasked hnone hback).calls
    | false => exact calls_perform_of_not_asked hasked

theorem length_calls_perform_le : (perform w s).calls.length ≤ 1 := by
  rcases calls_perform (w := w) hback with ⟨dir, -, call, hcalls⟩ | ⟨-, hcalls⟩
  · exact Nat.le_of_eq (congrArg List.length hcalls)
  · rw [hcalls]
    exact Nat.zero_le 1

theorem calls_perform_ne_nil_iff : (perform w s).calls ≠ [] ↔ ∃ dir, Cleared w s dir := by
  rcases calls_perform (w := w) hback with ⟨dir, hcleared, call, hcalls⟩ | ⟨hnone, hcalls⟩
  · exact iff_of_true (hcalls ▸ List.cons_ne_nil _ _) ⟨dir, hcleared⟩
  · exact iff_of_false (fun h => h hcalls) fun ⟨dir, hcleared⟩ => hnone dir hcleared

/-- A call that asks for code succeeds when the generator was launched and did. -/
theorem exit_zero_iff (hasked : s.codegen = true) :
    (perform w s).ending = .exit 0
      ↔ (perform w s).calls ≠ [] ∧ ∃ stderr, w.outcome = .completed 0 stderr := by
  rw [calls_perform_ne_nil_iff hback]
  by_cases hcleared : ∃ dir, Cleared w s dir
  · rw [and_iff_right hcleared]
    obtain ⟨dir, hcleared⟩ := hcleared
    exact (perform_of_cleared hcleared (hback dir hcleared.project)).2.1
  · have hidle := idle_perform_of_not_cleared hasked (not_exists.1 hcleared) hback
    exact iff_of_false hidle.ending fun h => hcleared h.1

end

theorem run_of_scan {argv : List Text} (h : CommandLine.read w.directory argv = .scan s) :
    run w argv = perform w s := by
  unfold run
  rw [h]

/-- A call for help launches nothing, and neither does one that is refused. -/
theorem calls_run_of_not_scan {argv : List Text}
    (h : ∀ s, CommandLine.read w.directory argv ≠ .scan s) : (run w argv).calls = [] := by
  unfold run
  cases hread : CommandLine.read w.directory argv with
  | help => rfl
  | refuse refusal => rfl
  | scan s => exact absurd hread (h s)

/-- The directory of a project is the same after it has been written and read again. -/
theorem ofText_toText_of_read {directory : Path} (hw : directory.Written) {argv : List Text}
    (hread : CommandLine.read directory argv = .scan s) :
    ∀ dir ∈ s.projectDir?, Path.ofText dir.toText = dir := by
  intro dir hdir
  rcases (CommandLine.named_of_read hread).2 dir hdir with rfl | hwritten
  · exact Path.ofText_toText hw
  · exact Path.ofText_toText hwritten

/--
**When the code generator is launched.**

Whatever the disk, the command line, the library that reads YAML and the outcome of a launch are: a
call launches the generator once at most, and it does so exactly when its command line asks for it
and everything in front of the launch went well. Then the result of the scan stands at the front of
the output, the generator is given the path of the connector file from the root and without double
dots, and it runs in the project directory: the text that it is given for that directory names it. A
call that asks for code exits with 0 exactly when the generator was launched and completed with 0.

What a command line asks for is said by its settings. A document, any switches and perhaps a project
directory come to just these settings.
-/
theorem launches_iff_cleared (w : World V) (hw : w.directory.Written) :
    (∀ (file : Text) (flags : List CommandLine.Flag) (dir? : Option Text),
      file.head? ≠ some '-' → (∀ flag ∈ flags, CommandLine.IsSwitch flag) →
      (∀ dir ∈ dir?, dir.head? ≠ some '-') →
      CommandLine.read w.directory (CommandLine.line file flags dir?) = .scan
        { file := Path.ofText file, projectDir? := some (dir?.elim w.directory Path.ofText)
          schema := flags.contains .schema, json := flags.contains .json
          codegen := flags.contains .codegen, verbose := flags.contains .verbose })
    ∧ ∀ argv,
      (run w argv).calls.length ≤ 1
      ∧ ((run w argv).calls ≠ []
          ↔ ∃ s dir, CommandLine.read w.directory argv = .scan s ∧ Cleared w s dir)
      ∧ ∀ s, CommandLine.read w.directory argv = .scan s →
          (∀ dir, Cleared w s dir →
            (∃ call : Generator.Call, call.IsFor w.directory dir.toText
              ∧ (run w argv).calls = [call])
            ∧ Path.ofText dir.toText = dir
            ∧ ∃ content text, w.disk.readText s.file = .ok content
              ∧ finding s content = .found (.ok text)
              ∧ Points.ofText (text ++ ['\n']) <+: (run w argv).stdout)
          ∧ (s.codegen = true → ((run w argv).ending = .exit 0
              ↔ (run w argv).calls ≠ [] ∧ ∃ stderr, w.outcome = .completed 0 stderr)) := by
  refine ⟨fun file flags dir? hfile hflags hdir => ?_, fun argv => ?_⟩
  · exact CommandLine.read_line (CommandLine.role_of_head hfile) flags hflags dir?
      (fun dir hmem => CommandLine.role_of_head (hdir dir hmem)) w.directory
  by_cases hscan : ∃ s, CommandLine.read w.directory argv = .scan s
  · obtain ⟨s, hread⟩ := hscan
    have hback := ofText_toText_of_read hw hread
    have hunique : ∀ s', CommandLine.read w.directory argv = .scan s' → s' = s := by
      intro s' hread'
      rw [hread] at hread'
      exact (CommandLine.Request.scan.inj hread').symm
    rw [run_of_scan hread]
    refine ⟨length_calls_perform_le hback, (calls_perform_ne_nil_iff hback).trans ?_, ?_⟩
    · constructor
      · rintro ⟨dir, hcleared⟩
        exact ⟨s, dir, hread, hcleared⟩
      · rintro ⟨s', dir, hread', hcleared⟩
        exact ⟨dir, hunique s' hread' ▸ hcleared⟩
    · intro s' hread'
      rw [hunique s' hread']
      refine ⟨fun dir hcleared => ?_, exit_zero_iff hback⟩
      have hdir := hback dir hcleared.project
      obtain ⟨hcalls, -, hprinted⟩ := perform_of_cleared hcleared hdir
      exact ⟨hcalls, hdir, hprinted⟩
  · have hnone := not_exists.1 hscan
    have hcalls := calls_run_of_not_scan hnone
    refine ⟨?_, ?_, fun s hread => absurd hread (hnone s)⟩
    · rw [hcalls]
      exact Nat.zero_le 1
    · exact iff_of_false (fun h => h hcalls) fun ⟨s, dir, hread, _⟩ => hnone s hread

/-- A project with a document that holds one type, and a connector file with one target. -/
def readyProject : World Plain where
  directory := Path.ofText "/proj".toList
  disk := FileTree.disk
    { current := ["proj".toList]
      entries :=
        [(["proj".toList, "a.gql".toList], .file (Utf8.encode oneType)),
          (["proj".toList, "connector.yaml".toList], .file (Utf8.encode oneTarget))] }
  outcome := .completed 0 []
  yaml := Plain.library oneTarget oneTargetValue

/-- The command line that asks for the types of the document and for code. -/
def typesAndCodeLine : List Text := CommandLine.line "a.gql".toList [.schema, .codegen] none

theorem cleared_readyProject :
    Cleared readyProject typesAndCode (Path.ofText "/proj".toList) := by
  -- everything that is evaluated stands here
  have hfiles : (Path.ofText "a.gql".toList).hasNull = false
      ∧ readyProject.disk (Path.ofText "a.gql".toList) = .file (Utf8.encode oneType)
      ∧ readyProject.disk.isFile
          ((Path.ofText "/proj".toList).child "connector.yaml".toList) = true
      ∧ (Connector.load readyProject.yaml readyProject.disk readyProject.directory
          ((Path.ofText "/proj".toList).child "connector.yaml".toList)).isOk = true
      ∧ Schema.definitions (unifyLineFeeds oneType) ≠ []
      ∧ (Path.ofText "a.gql".toList).name = "a".toList ++ ".gql".toList := by decide +kernel
  obtain ⟨hnull, hbytes, hconnector, hload, hdefinitions, hname⟩ := hfiles
  refine ⟨⟨rfl, Disk.isFile_iff.1 hconnector, ?_, "a".toList, List.cons_ne_nil _ _, hname⟩, rfl,
    oneType, ⟨Path.hasNull_eq_false_iff.1 hnull, hbytes⟩, hdefinitions⟩
  cases hconfig : Connector.load readyProject.yaml readyProject.disk readyProject.directory
      ((Path.ofText "/proj".toList).child "connector.yaml".toList) with
  | ok config => exact ⟨config, rfl⟩
  | error failure =>
    rw [hconfig] at hload
    cases hload

theorem launches_in_readyProject :
    readyProject.directory.Written
      ∧ (run readyProject typesAndCodeLine).calls
        = [⟨["firebase", "data-connect", "codegen", "--config=/proj/connector.yaml"].map
            String.toList, "/proj".toList⟩]
      ∧ (run readyProject typesAndCodeLine).ending = .exit 0 := by
  have hwritten : readyProject.directory.Written := Path.written_ofText _
  obtain ⟨hline, hcall⟩ := launches_iff_cleared readyProject hwritten
  have hread : CommandLine.read readyProject.directory typesAndCodeLine = .scan typesAndCode :=
    hline "a.gql".toList [.schema, .codegen] none (by decide) (by decide) nofun
  obtain ⟨-, hlaunched, hcall⟩ := hcall typesAndCodeLine
  obtain ⟨hcalls, hexit⟩ := hcall typesAndCode hread
  obtain ⟨call, hfor, hcalls⟩ := (hcalls _ cleared_readyProject).1
  have hcall : call
      = ⟨["firebase", "data-connect", "codegen", "--config=/proj/connector.yaml"].map
          String.toList, "/proj".toList⟩ := by
    rw [Generator.Call.isFor_iff.1 hfor]
    decide +kernel
  refine ⟨hwritten, hcalls.trans (congrArg ([·]) hcall), ?_⟩
  exact (hexit rfl).2 ⟨hlaunched.2 ⟨_, _, hread, cleared_readyProject⟩, [], rfl⟩

end Cli

end GqlScan
