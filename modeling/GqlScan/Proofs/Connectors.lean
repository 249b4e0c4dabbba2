import GqlScan.Cli
import GqlScan.Proofs.Commands
import GqlScan.Proofs.ConnectorShapes

/-!
# Which connector files are reported

A connector file that cannot be used is reported as a fault of the configuration when the path
cannot be opened, when the text is no YAML, and when something is not the mapping it should be.
Three things are not: bytes that are no text, an error of another class in the library that reads
YAML, and an entry whose output directory is no text that names a place. The last is met in the
order of the entries, so an entry that is reported hides what is behind it. What is not reported
breaks off the program.

All of this is stated for whatever library reads YAML, and for whatever values it gives.

Main statement: `exits_iff_accounted`.
-/

namespace GqlScan

open Text

namespace Connector

/-! ## Reported failures -/

/-- A result that is had or whose failure is reported. -/
def Handled {α : Type} (r : Except Failure α) : Prop := ∀ f, r = .error f → f.isReported = true

section Handled

variable {α β : Type}

theorem handled_ok (a : α) : Handled (.ok a) := fun _ h => by cases h

theorem handled_error_iff {f : Failure} :
    Handled (.error f : Except Failure α) ↔ f.isReported = true :=
  ⟨fun h => h f rfl, fun h _ hf => Except.error.inj hf ▸ h⟩

theorem map_eq_ok_iff {r : Except Failure α} {g : α → β} {b : β} :
    (r >>= fun a => pure (g a)) = .ok b ↔ ∃ a, r = .ok a ∧ g a = b := by
  cases r with
  | ok a =>
    constructor
    · rintro ⟨⟩
      exact ⟨a, rfl, rfl⟩
    · rintro ⟨_, ⟨⟩, rfl⟩
      rfl
  | error f => exact iff_of_false (fun h => by cases h) fun ⟨a, ha, _⟩ => by cases ha

theorem map_eq_error_iff {r : Except Failure α} {g : α → β} {f : Failure} :
    (r >>= fun a => pure (g a)) = .error f ↔ r = .error f := by
  cases r with
  | ok a => exact iff_of_false (fun h => by cases h) fun h => by cases h
  | error found =>
    constructor <;>
    · rintro ⟨⟩
      rfl

theorem handled_map_iff {r : Except Failure α} (g : α → β) :
    Handled (r >>= fun a => pure (g a)) ↔ Handled r := by
  unfold Handled
  simp only [map_eq_error_iff]

theorem mapM_cons_eq (f : β → Except Failure α) (x : β) (xs : List β) :
    (x :: xs).mapM f = match f x with
      | .error e => .error e
      | .ok a => xs.mapM f >>= fun later => pure (a :: later) := by
  rw [List.mapM_cons]
  cases f x <;> rfl

/-- Of a list of attempts the first that fails decides. -/
theorem mapM_eq_error_iff {f : β → Except Failure α} {xs : List β} {e : Failure} :
    xs.mapM f = .error e ↔ ∃ before x later, xs = before ++ x :: later
      ∧ (∀ b ∈ before, (f b).isOk = true) ∧ f x = .error e := by
  induction xs with
  | nil =>
    refine iff_of_false (fun h => by cases h) ?_
    rintro ⟨before, x, later, hsplit, -⟩
    exact List.append_ne_nil_of_right_ne_nil before (List.cons_ne_nil x later) hsplit.symm
  | cons x xs ih =>
    rw [mapM_cons_eq]
    cases hx : f x with
    | error found =>
      constructor
      · rintro ⟨⟩
        exact ⟨[], x, xs, rfl, nofun, hx⟩
      · rintro ⟨before, y, later, hsplit, hbefore, hy⟩
        cases before with
        | nil =>
          cases hsplit
          rw [hx] at hy
          cases hy
          rfl
        | cons b before =>
          cases hsplit
          have hok := hbefore x List.mem_cons_self
          rw [hx] at hok
          cases hok
    | ok a =>
      refine map_eq_error_iff.trans (ih.trans ⟨?_, ?_⟩)
      · rintro ⟨before, y, later, rfl, hbefore, hy⟩
        exact ⟨x :: before, y, later, rfl, List.forall_mem_cons.2 ⟨by rw [hx]; rfl, hbefore⟩, hy⟩
      · rintro ⟨before, y, later, hsplit, hbefore, hy⟩
        cases before with
        | nil =>
          cases hsplit
          rw [hx] at hy
          cases hy
        | cons b before =>
          cases hsplit
          exact ⟨before, y, later, rfl, fun b hb => hbefore b (List.mem_cons_of_mem x hb), hy⟩

/-- A list of attempts is handled when the first that fails is. -/
theorem handled_mapM_iff {f : β → Except Failure α} {xs : List β} :
    Handled (xs.mapM f) ↔ ∀ before x later, xs = before ++ x :: later →
      (∀ b ∈ before, (f b).isOk = true) → Handled (f x) := by
  constructor
  · intro h before x later hsplit hbefore e he
    exact h e (mapM_eq_error_iff.2 ⟨before, x, later, hsplit, hbefore, he⟩)
  · intro h e he
    obtain ⟨before, x, later, hsplit, hbefore, hx⟩ := mapM_eq_error_iff.1 he
    exact h before x later hsplit hbefore e hx

end Handled

/-! ## Entries -/

section

variable {V : Type} (yaml : Yaml.Library V)

/-- The output directory that the fields of an entry ask for. -/
def asked (directory folder : Path) (fields : List (V × V)) : Except Failure (Option Place) :=
  (yaml.field? "outputDir".toList fields).elim (.ok none) (outputDir yaml directory folder)

theorem target_of_map {entry : V} {fields : List (V × V)} (h : yaml.view entry = .map fields)
    (directory folder : Path) (kind : V) :
    target yaml directory folder kind entry
      = asked yaml directory folder fields >>= fun dir? =>
          pure ⟨kind, dir?, yaml.field? "package".toList fields⟩ := by
  unfold target asked
  rw [h]
  dsimp only
  cases yaml.field? "outputDir".toList fields <;> rfl

section Targets

variable {yaml} {folder : Path} (hfolder : folder.NoNull)
include hfolder

theorem isOk_outputDir_iff (directory : Path) (v : V) :
    (outputDir yaml directory folder v).isOk = true ↔ NamesDirectory yaml v := by
  unfold outputDir NamesDirectory
  by_cases hfalsy : yaml.isFalsy v = true
  · rw [if_pos hfalsy]
    exact iff_of_true rfl (.inl ((isFalsy_iff yaml).1 hfalsy))
  · rw [if_neg hfalsy]
    rw [isFalsy_iff] at hfalsy
    rw [or_iff_right hfalsy]
    cases hview : yaml.view v with
    | null =>
      rw [hview] at hfalsy
      exact absurd .null hfalsy
    | str t =>
      have hplace : (∃ u, Yaml.View.str (V := V) t = .str u ∧ ∀ p ∈ u, ¬ p.Unfit)
          ↔ ∀ p ∈ t, ¬ p.Unfit := by simp
      rw [hplace, ← Place.isOk_find_iff hfolder directory]
      dsimp only
      cases Place.find directory folder t <;> rfl
    | _ => exact iff_of_false Bool.false_ne_true fun ⟨t, ht, _⟩ => by cases ht

theorem isOk_asked_iff (directory : Path) (fields : List (V × V)) :
    (asked yaml directory folder fields).isOk = true
      ↔ ∀ v, Holds yaml "outputDir".toList fields v → NamesDirectory yaml v := by
  simp only [← field?_eq_some_iff]
  unfold asked
  cases yaml.field? "outputDir".toList fields with
  | none => exact iff_of_true rfl nofun
  | some v =>
    refine (isOk_outputDir_iff hfolder directory v).trans ⟨?_, fun h => h v rfl⟩
    rintro h _ ⟨⟩
    exact h

theorem isOk_target_iff (directory : Path) (kind entry : V) :
    (target yaml directory folder kind entry).isOk = true ↔ Passes yaml entry := by
  cases hview : yaml.view entry with
  | null =>
    unfold target
    rw [hview]
    exact iff_of_true rfl (.null hview)
  | map fields =>
    rw [passes_iff_of_map yaml hview, ← isOk_asked_iff hfolder directory,
      target_of_map yaml hview]
    cases asked yaml directory folder fields <;> exact Iff.rfl
  | _ =>
    unfold target
    rw [hview]
    refine iff_of_false Bool.false_ne_true fun h => ?_
    cases h with
    | null hnull =>
      rw [hview] at hnull
      cases hnull
    | map hmap _ =>
      rw [hview] at hmap
      cases hmap

omit hfolder in
/-- What is wrong with an output directory is never reported. -/
theorem isReported_of_asked {directory : Path} {fields : List (V × V)} {f : Failure}
    (h : asked yaml directory folder fields = .error f) : f.isReported = false := by
  unfold asked at h
  cases hfield : yaml.field? "outputDir".toList fields with
  | none =>
    rw [hfield] at h
    cases h
  | some v =>
    rw [hfield, Option.elim_some] at h
    unfold outputDir at h
    split at h
    · cases h
    · split at h
      · cases h
      · split at h
        · cases h
        · cases h
          rfl
      · cases h
        rfl
      · cases h
        rfl
      · cases h
        rfl

/-- Of the entries that give no target those are reported that are no mappings. -/
theorem handled_target_iff {entry : V} (hentry : ¬ Passes yaml entry) (directory : Path)
    (kind : V) :
    Handled (target yaml directory folder kind entry) ↔ ¬ IsMapping yaml entry := by
  have hfails := mt (isOk_target_iff hfolder directory kind entry).1 hentry
  cases hview : yaml.view entry with
  | null => exact absurd (.null hview) hentry
  | map fields =>
    refine iff_of_false (fun h => ?_) fun h => h ⟨fields, hview⟩
    rw [target_of_map yaml hview] at hfails h
    rw [handled_map_iff] at h
    cases hasked : asked yaml directory folder fields with
    | ok dir? =>
      rw [hasked] at hfails
      exact hfails rfl
    | error f =>
      have hreported := h f hasked
      rw [isReported_of_asked hasked] at hreported
      cases hreported
  | _ =>
    unfold target
    rw [hview]
    refine iff_of_true (handled_error_iff.2 rfl) fun ⟨fields, hmap⟩ => ?_
    rw [hview] at hmap
    cases hmap

end Targets

/-! ## Documents -/

/-- The targets of all requests of some kinds. -/
def targetsOf (directory folder : Path) (kinds : List (V × V)) :
    Except Failure (List (Target V)) :=
  (requests yaml kinds).mapM fun request => target yaml directory folder request.1 request.2

/-- A document in which the first entry that gives no target, if there is one, is no mapping. -/
def WellDirected (v : V) : Prop :=
  ∀ kinds before kind entry later, Asks yaml v kinds →
    Requests yaml kinds (before ++ (kind, entry) :: later) →
    (∀ request ∈ before, Passes yaml request.2) → ¬ Passes yaml entry → ¬ IsMapping yaml entry

/-- The ways in which a document can be shaped. -/
theorem shape (v : V) :
    (∀ fields, ¬ TopLevel yaml v fields)
      ∨ ∃ fields, TopLevel yaml v fields
        ∧ ((∀ kinds, ¬ Lists yaml (yaml.field? "generate".toList fields) kinds)
          ∨ ∃ kinds, Lists yaml (yaml.field? "generate".toList fields) kinds) := by
  by_cases htop : ∃ fields, TopLevel yaml v fields
  · obtain ⟨fields, htop⟩ := htop
    refine .inr ⟨fields, htop, ?_⟩
    rw [← not_exists]
    exact (em _).symm
  · exact .inl (not_exists.1 htop)

variable {yaml} {path : Path} {v : V} {fields kinds : List (V × V)}

theorem ofValue_of_no_top (directory : Path) (h : ∀ fields, ¬ TopLevel yaml v fields) :
    ofValue yaml directory path v = .error (.notMapping path) := by
  have htop : topLevel? yaml v = none :=
    Option.eq_none_iff_forall_not_mem.2 fun fields hf =>
      h fields ((topLevel?_eq_some_iff yaml).1 hf)
  unfold ofValue
  rw [htop]
  rfl

theorem ofValue_of_no_list (directory : Path) (htop : TopLevel yaml v fields)
    (h : ∀ kinds, ¬ Lists yaml (yaml.field? "generate".toList fields) kinds) :
    ofValue yaml directory path v = .error (.generateNotMapping path) := by
  have hlists : kinds? yaml (yaml.field? "generate".toList fields) = none :=
    Option.eq_none_iff_forall_not_mem.2 fun kinds hk => h kinds ((kinds?_eq_some_iff yaml).1 hk)
  unfold ofValue
  rw [(topLevel?_eq_some_iff yaml).2 htop]
  dsimp only
  rw [hlists]
  rfl

theorem ofValue_of_lists (directory : Path) (htop : TopLevel yaml v fields)
    (hlists : Lists yaml (yaml.field? "generate".toList fields) kinds) :
    ofValue yaml directory path v
      = targetsOf yaml directory path.parent kinds >>= fun targets =>
        pure ⟨path, yaml.field? "connectorId".toList fields, targets⟩ := by
  unfold ofValue
  rw [(topLevel?_eq_some_iff yaml).2 htop]
  dsimp only
  rw [(kinds?_eq_some_iff yaml).2 hlists]
  rfl

theorem asks_of_lists (htop : TopLevel yaml v fields)
    (hlists : Lists yaml (yaml.field? "generate".toList fields) kinds) : Asks yaml v kinds :=
  .intro htop ((field?_eq_iff yaml).1 rfl) hlists

/-- A document asks for the kinds that it lists and for no others. -/
theorem asks_iff_of_lists (htop : TopLevel yaml v fields)
    (hlists : Lists yaml (yaml.field? "generate".toList fields) kinds) {others : List (V × V)} :
    Asks yaml v others ↔ others = kinds := by
  constructor
  · intro h
    obtain ⟨fields', htop', hlists'⟩ := (asks_iff yaml).1 h
    rw [(topLevel?_eq_some_iff yaml).2 htop] at htop'
    cases htop'
    rw [(kinds?_eq_some_iff yaml).2 hlists] at hlists'
    exact (Option.some.inj hlists').symm
  · rintro rfl
    exact asks_of_lists htop hlists

/-- The targets of some kinds are had or reported when the first entry that gives none is no
mapping. -/
theorem handled_targetsOf_iff {folder : Path} (hfolder : folder.NoNull)
    (directory : Path) :
    Handled (targetsOf yaml directory folder kinds)
      ↔ ∀ before kind entry later, Requests yaml kinds (before ++ (kind, entry) :: later) →
        (∀ request ∈ before, Passes yaml request.2) → ¬ Passes yaml entry →
        ¬ IsMapping yaml entry := by
  unfold targetsOf
  rw [handled_mapM_iff]
  simp only [isOk_target_iff hfolder, requests_eq_iff]
  constructor
  · intro h before kind entry later hsplit hbefore hentry
    exact (handled_target_iff hfolder hentry directory kind).1
      (h before (kind, entry) later hsplit hbefore)
  · intro h before request later hsplit hbefore
    by_cases hentry : Passes yaml request.2
    · have hok := (isOk_target_iff hfolder directory request.1 request.2).2 hentry
      intro f hf
      rw [hf] at hok
      cases hok
    · exact (handled_target_iff hfolder hentry directory request.1).2
        (h before request.1 request.2 later hsplit hbefore hentry)

theorem handled_ofValue_iff (hpath : path.NoNull) (directory : Path) (v : V) :
    Handled (ofValue yaml directory path v) ↔ WellDirected yaml v := by
  unfold WellDirected
  obtain hno | ⟨fields, htop, hno | ⟨kinds, hlists⟩⟩ := shape yaml v
  · rw [ofValue_of_no_top directory hno]
    refine iff_of_true (handled_error_iff.2 rfl) ?_
    rintro kinds before kind entry later ⟨htop, -, -⟩
    exact absurd htop (hno _)
  · rw [ofValue_of_no_list directory htop hno]
    refine iff_of_true (handled_error_iff.2 rfl) ?_
    intro kinds before kind entry later hasks
    obtain ⟨fields', htop', hlists⟩ := (asks_iff yaml).1 hasks
    rw [(topLevel?_eq_some_iff yaml).2 htop] at htop'
    cases htop'
    exact absurd ((kinds?_eq_some_iff yaml).1 hlists) (hno kinds)
  · rw [ofValue_of_lists directory htop hlists, handled_map_iff,
      handled_targetsOf_iff hpath.parent]
    simp only [asks_iff_of_lists htop hlists]
    constructor
    · rintro h _ before kind entry later rfl
      exact h before kind entry later
    · intro h before kind entry later
      exact h kinds before kind entry later rfl

/-! ## Files -/

variable (yaml) in
/-- A text that is no YAML, or a well-directed document. -/
def Legible : Yaml.Reading V → Prop
  | .value v => WellDirected yaml v
  | .notYaml _ => True
  | .raised _ _ => False

variable (yaml) in
/-- A path that holds no null character, and at which there is either no file or one that holds a
legible text. -/
structure Accounted (disk : Disk) (path : Path) : Prop where
  noNull : path.NoNull
  reads : ∀ bytes, disk path = .file bytes →
    ∃ text, bytes = Utf8.encode text ∧ Legible yaml (yaml.load (unifyLineFeeds text))

/-- **A connector file is loaded or reported exactly when it is accounted for.** -/
theorem handled_load_iff (disk : Disk) (directory path : Path) :
    Handled (load yaml disk directory path) ↔ Accounted yaml disk path := by
  unfold load Disk.readText
  cases hnull : path.hasNull with
  | true =>
    refine iff_of_false (fun h => ?_) fun h => ?_
    · have hreported : Failure.nullCharacter.isReported = true := handled_error_iff.1 h
      cases hreported
    · rw [Path.hasNull_eq_false_iff.2 h.noNull] at hnull
      cases hnull
  | false =>
    rw [Path.hasNull_eq_false_iff] at hnull
    rw [if_neg Bool.false_ne_true]
    cases hentry : disk path with
    | file bytes =>
      -- the only file there is decides
      have hreads : Accounted yaml disk path
          ↔ ∃ text, Utf8.decode bytes = .ok text
            ∧ Legible yaml (yaml.load (unifyLineFeeds text)) := by
        simp only [Utf8.decode_eq_ok_iff]
        constructor
        · exact fun h => h.reads bytes hentry
        · refine fun h => ⟨hnull, fun found hfound => ?_⟩
          rw [hentry] at hfound
          cases hfound
          exact h
      rw [hreads]
      cases hdecode : Utf8.decode bytes with
      | error e =>
        simp only [hdecode]
        refine iff_of_false (fun h => ?_) fun ⟨text, htext, _⟩ => by cases htext
        have hreported : (Failure.undecodable e).isReported = true := handled_error_iff.1 h
        cases hreported
      | ok text =>
        have htext : (∃ u, Except.ok (ε := Utf8.DecodeError) text = .ok u
              ∧ Legible yaml (yaml.load (unifyLineFeeds u)))
            ↔ Legible yaml (yaml.load (unifyLineFeeds text)) := by simp
        rw [htext]
        simp only [hdecode]
        cases yaml.load (unifyLineFeeds text) with
        | value v => exact handled_ofValue_iff hnull directory v
        | notYaml problem => exact iff_of_true (handled_error_iff.2 rfl) trivial
        | raised error message =>
          refine iff_of_false (fun h => ?_) id
          have hreported : (Failure.library error message).isReported = true :=
            handled_error_iff.1 h
          cases hreported
    | _ =>
      refine iff_of_true (handled_error_iff.2 rfl) ⟨hnull, fun bytes hbytes => ?_⟩
      rw [hentry] at hbytes
      cases hbytes

end

end Connector

/-! ## The program -/

namespace Cli

open Connector

section

variable {V : Type} (w : World V) (s : CommandLine.Settings)

/-- A launch has an exit code unless what the generator wrote is no text. -/
theorem exits_launch_iff (projectDir : Path) :
    (∃ code, (launch w s projectDir).ending = .exit code)
      ↔ (launch w s projectDir).calls = [] ∨ ∀ e, w.outcome ≠ .undecodable e := by
  unfold launch
  split
  · exact iff_of_true ⟨1, rfl⟩ (.inl rfl)
  · rename_i run hrun
    have hfollows := Generator.follows_of_afterSave hrun
    cases hresult : run.result with
    | ok result =>
      refine iff_of_true ⟨_, rfl⟩ ?_
      by_cases hcalls : run.calls = []
      · exact .inl hcalls
      · refine .inr fun e he => ?_
        rw [hfollows.result_eq_error_iff.2 ⟨hcalls, he⟩] at hresult
        cases hresult
    | error e =>
      obtain ⟨hcalls, he⟩ := hfollows.result_eq_error_iff.1 hresult
      refine iff_of_false (fun ⟨code, h⟩ => by cases h) ?_
      rintro (hnone | htext)
      · exact hcalls hnone
      · exact htext e he

/-- A launch does not break off with a failure of the connector file. -/
theorem ending_launch_ne (projectDir : Path) (failure : Failure) :
    (launch w s projectDir).ending ≠ .breakOff (.connector failure) := by
  unfold launch
  split
  · exact nofun
  · split <;> exact nofun

/-- The ways in which a call for the code generator goes. -/
inductive Generates : Report → Prop where
  | noDirectory : s.projectDir? = none → Generates { ending := .breakOff .noDirectory }
  | noConnector {dir : Path} : s.projectDir? = some dir →
      ¬ w.disk.HasFile (dir.child fileName) → Generates (launch w s dir)
  | loaded {dir : Path} {config : Config V} : s.projectDir? = some dir →
      w.disk.HasFile (dir.child fileName) →
      load w.yaml w.disk w.directory (dir.child fileName) = .ok config →
      Generates ((launch w s dir).preceded (outputLines config) [])
  | reported {dir : Path} {failure : Failure} : s.projectDir? = some dir →
      w.disk.HasFile (dir.child fileName) →
      load w.yaml w.disk w.directory (dir.child fileName) = .error failure →
      failure.isReported = true → Generates (.complain failure.message)
  | unreported {dir : Path} {failure : Failure} : s.projectDir? = some dir →
      w.disk.HasFile (dir.child fileName) →
      load w.yaml w.disk w.directory (dir.child fileName) = .error failure →
      failure.isReported = false → Generates { ending := .breakOff (.connector failure) }

/-- **A call for the code generator goes in one of these ways.** -/
theorem generates : Generates w s (generate w s) := by
  unfold generate find?
  cases hproject : s.projectDir? with
  | none => exact .noDirectory hproject
  | some dir =>
    dsimp only
    cases hfile : w.disk.isFile (dir.child fileName) with
    | false =>
      rw [if_neg Bool.false_ne_true]
      exact .noConnector hproject (Disk.isFile_eq_false_iff.1 hfile)
    | true =>
      rw [if_pos rfl]
      rw [Disk.isFile_iff] at hfile
      dsimp only
      cases hload : load w.yaml w.disk w.directory (dir.child fileName) with
      | ok config => exact .loaded hproject hfile hload
      | error failure =>
        dsimp only
        cases hreported : failure.isReported with
        | true => exact .reported hproject hfile hload hreported
        | false => exact .unreported hproject hfile hload hreported

variable {s} in
theorem exists_project_iff {dir : Path} (h : s.projectDir? = some dir) {P : Path → Prop} :
    (∃ d, s.projectDir? = some d ∧ P d) ↔ P dir := by
  rw [h]
  simp

/-- The code generator is asked for: there is an exit code when the project has a directory, its
connector file, if there is one, is loaded or reported, and nothing is launched that writes no
text. -/
theorem exits_generate_iff :
    (∃ code, (generate w s).ending = .exit code)
      ↔ (∃ dir, s.projectDir? = some dir ∧ (w.disk.HasFile (dir.child fileName) →
          Handled (load w.yaml w.disk w.directory (dir.child fileName))))
        ∧ ((generate w s).calls = [] ∨ ∀ e, w.outcome ≠ .undecodable e) := by
  have hgenerates := generates w s
  generalize generate w s = r at hgenerates ⊢
  cases hgenerates with
  | noDirectory hnone =>
    rw [hnone]
    exact iff_of_false (fun ⟨code, h⟩ => by cases h) fun ⟨⟨dir, h, _⟩, _⟩ => by cases h
  | noConnector hdir hfile =>
    rw [exists_project_iff hdir]
    exact (exits_launch_iff w s _).trans (and_iff_right fun h => absurd h hfile).symm
  | loaded hdir _ hload =>
    rw [exists_project_iff hdir, hload]
    exact (exits_launch_iff w s _).trans (and_iff_right fun _ => handled_ok _).symm
  | reported hdir _ hload hreported =>
    rw [exists_project_iff hdir, hload, handled_error_iff]
    exact iff_of_true ⟨1, rfl⟩ ⟨fun _ => hreported, .inl rfl⟩
  | unreported hdir hfile hload hreported =>
    rw [exists_project_iff hdir, hload, handled_error_iff, hreported]
    exact iff_of_false (fun ⟨code, h⟩ => by cases h) fun h => Bool.false_ne_true (h.1 hfile)

/-- The connector file breaks the program off when it is neither loaded nor reported. -/
theorem breaksOff_generate_iff :
    (∃ failure, (generate w s).ending = .breakOff (.connector failure))
      ↔ ∃ dir, s.projectDir? = some dir ∧ w.disk.HasFile (dir.child fileName)
        ∧ ¬ Handled (load w.yaml w.disk w.directory (dir.child fileName)) := by
  have hgenerates := generates w s
  generalize generate w s = r at hgenerates ⊢
  cases hgenerates with
  | noDirectory hnone =>
    rw [hnone]
    exact iff_of_false (fun ⟨failure, h⟩ => by cases h) fun ⟨dir, h, _⟩ => by cases h
  | noConnector hdir hfile =>
    rw [exists_project_iff hdir]
    exact iff_of_false (fun ⟨failure, h⟩ => ending_launch_ne w s _ failure h) fun h => hfile h.1
  | loaded hdir _ hload =>
    rw [exists_project_iff hdir, hload]
    exact iff_of_false (fun ⟨failure, h⟩ => ending_launch_ne w s _ failure h)
      fun h => h.2 (handled_ok _)
  | reported hdir _ hload hreported =>
    rw [exists_project_iff hdir, hload, handled_error_iff]
    exact iff_of_false (fun ⟨failure, h⟩ => by cases h) fun h => h.2 hreported
  | @unreported _ failure hdir hfile hload hreported =>
    rw [exists_project_iff hdir, hload, handled_error_iff, hreported]
    exact iff_of_true ⟨failure, rfl⟩ ⟨hfile, Bool.false_ne_true⟩

/--
**When a call for the code generator has an exit code.**

Whatever library reads YAML and whatever value it gives: the value is used or reported exactly when
it is well directed, and a connector file is loaded or reported exactly when it is accounted for.
Once a document has been scanned and printed, a call that asks for the code generator breaks off
because of the connector file exactly when there is one that is not accounted for. It has an exit
code exactly when its project has a directory, the connector file there, if there is one, is
accounted for, and no generator was launched whose output is no text.
-/
theorem exits_iff_accounted (content : Text) :
    (∀ (path : Path) (v : V), path.NoNull →
      (Handled (ofValue w.yaml w.directory path v) ↔ WellDirected w.yaml v))
    ∧ (∀ path : Path, Handled (load w.yaml w.disk w.directory path) ↔ Accounted w.yaml w.disk path)
    ∧ ∀ text : Text, s.codegen = true → finding s content = .found (.ok text) →
      ((∃ failure, (scan w s content).ending = .breakOff (.connector failure))
        ↔ ∃ dir, s.projectDir? = some dir
          ∧ w.disk.HasFile (dir.child "connector.yaml".toList)
          ∧ ¬ Accounted w.yaml w.disk (dir.child "connector.yaml".toList))
      ∧ ((∃ code, (scan w s content).ending = .exit code)
        ↔ (∃ dir, s.projectDir? = some dir
            ∧ (w.disk.HasFile (dir.child "connector.yaml".toList) →
              Accounted w.yaml w.disk (dir.child "connector.yaml".toList)))
          ∧ ((scan w s content).calls = [] ∨ ∀ e, w.outcome ≠ .undecodable e)) := by
  refine ⟨fun path v hpath => handled_ofValue_iff hpath w.directory v,
    handled_load_iff w.disk w.directory, fun text hcodegen hfinding => ?_⟩
  have hscan : (scan w s content).ending = (generate w s).ending
      ∧ (scan w s content).calls = (generate w s).calls := by
    unfold scan
    rw [hfinding, hcodegen]
    exact ⟨rfl, rfl⟩
  have hname : "connector.yaml".toList = fileName := rfl
  rw [hscan.1, hscan.2, breaksOff_generate_iff, exits_generate_iff, hname]
  constructor <;> simp only [handled_load_iff]

end

/-! ## Written values -/

/-- Values that are written out. -/
inductive Plain where
  | null
  | text (t : Points)
  | list (items : List Plain)
  | mapping (entries : List (Plain × Plain))

/-- What is seen of a written value. -/
def Plain.view : Plain → Yaml.View Plain
  | null => .null
  | text t => .str t
  | list items => .list items
  | mapping entries => .map entries

/-- A library that reads one text as one value. A text is shown as it is. -/
def Plain.library (source : Text) (v : Plain) : Yaml.Library Plain where
  load := fun found => if found = source then .value v else .notYaml []
  view := Plain.view
  shown
    | .text t => t.filterMap fun | .char c => some c | .half _ => none
    | _ => []

theorem Plain.load_library (source : Text) (v : Plain) :
    (library source v).load source = .value v := if_pos rfl

/-- A project with a connector file of the given bytes. -/
def project (yaml : Yaml.Library Plain) (bytes : List UInt8) : World Plain where
  directory := Path.ofText "/proj".toList
  disk := fun path =>
    if path = Path.ofText "/proj/connector.yaml".toList then .file bytes else .missing
  outcome := .completed 0 []
  yaml := yaml

/-- A connector file with one target. -/
def oneTarget : Text := "generate:\n  kotlinSdk:\n    outputDir: gen\n".toList

/-- A text as a written value. -/
def Plain.ofText (t : String) : Plain := .text (Points.ofText t.toList)

/-- What a connector file with one target says. -/
def oneTargetValue : Plain :=
  .mapping [(.ofText "generate", .mapping [(.ofText "kotlinSdk",
    .mapping [(.ofText "outputDir", .ofText "gen")])])]

/-- A project with a connector file that has one target. -/
def oneTargetProject : World Plain :=
  project (Plain.library oneTarget oneTargetValue) (Utf8.encode oneTarget)

/-- The settings of a call that prints the types of a document and asks for the code generator. -/
def typesAndCode : CommandLine.Settings where
  file := Path.ofText "a.gql".toList
  projectDir? := some (Path.ofText "/proj".toList)
  schema := true
  codegen := true

/-- A document with one type. -/
def oneType : Text := "type A \x7b\n\x7d\n".toList

theorem exits_of_oneTarget :
    WellDirected oneTargetProject.yaml oneTargetValue
      ∧ ∃ code, (scan oneTargetProject typesAndCode oneType).ending = .exit code := by
  obtain ⟨hvalue, hload, hscan⟩ := exits_iff_accounted oneTargetProject typesAndCode oneType
  have hfinding : finding typesAndCode oneType
      = .found (.ok (Outline.ofSchema (Schema.definitions oneType))) := by
    have hsome : (Schema.definitions oneType).isEmpty = false := by decide +kernel
    change (if (Schema.definitions oneType).isEmpty then Finding.nothing "type definitions".toList
      else Finding.found (.ok (Outline.ofSchema (Schema.definitions oneType)))) = _
    rw [hsome]
    rfl
  have handled_of_isOk : ∀ {α : Type} {r : Except Failure α}, r.isOk = true → Handled r := by
    intro α r h f hf
    rw [hf] at h
    cases h
  have hloads : (load oneTargetProject.yaml oneTargetProject.disk oneTargetProject.directory
      ((Path.ofText "/proj".toList).child "connector.yaml".toList)).isOk = true := by
    decide +kernel
  have hused : (ofValue oneTargetProject.yaml oneTargetProject.directory (Path.ofText [])
      oneTargetValue).isOk = true := by decide +kernel
  refine ⟨(hvalue (Path.ofText []) oneTargetValue nofun).1 (handled_of_isOk hused),
    (hscan _ rfl hfinding).2.2 ⟨⟨_, rfl, fun _ => ?_⟩, .inr nofun⟩⟩
  exact (hload _).1 (handled_of_isOk hloads)

/-- A connector file that is no text is not reported, although the library that reads YAML fails
with no error but that of a text that is no YAML. -/
theorem not_handled_brokenBytes :
    ¬ ∀ (yaml : Yaml.Library Plain) (disk : Disk) (directory path : Path),
      (∀ text error message, yaml.load text ≠ .raised error message) →
      Handled (load yaml disk directory path) := by
  intro hall
  have hbroken : (Utf8.decode [0xFF]).isOk = false := by decide +kernel
  have hhandled := hall (Plain.library [] .null) (project (Plain.library [] .null) [0xFF]).disk
    (Path.ofText "/proj".toList) (Path.ofText "/proj/connector.yaml".toList)
    fun text error message h => by
      change (if text = [] then Yaml.Reading.value Plain.null else .notYaml []) = _ at h
      split at h <;> cases h
  have hfile : (project (Plain.library [] .null) [0xFF]).disk
      (Path.ofText "/proj/connector.yaml".toList) = .file [0xFF] := by decide +kernel
  obtain ⟨text, htext, -⟩ := ((handled_load_iff _ _ _).1 hhandled).reads [0xFF] hfile
  rw [htext, Utf8.decode_encode] at hbroken
  cases hbroken

end Cli

end GqlScan
