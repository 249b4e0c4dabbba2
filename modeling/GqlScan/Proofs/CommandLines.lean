import GqlScan.CommandLine

/-!
# Command lines and the settings they come to

Every path in the settings of a call was read off a text, so writing it and reading it again gives
it back. And switches behind the document come to the settings that they name, in whatever order and
however often they are given; so does a project directory behind them.

Main statements: `Path.ofText_toText`, `CommandLine.named_of_read` and `CommandLine.read_line`.
-/

namespace GqlScan

open Text

/-! ## Paths and their texts -/

namespace Text

theorem splitOn_of_not_mem {c : Char} {t : Text} (h : c ∉ t) : splitOn c t = [t] := by
  induction t with
  | nil => rfl
  | cons d t ih =>
    have hd : d ≠ c := fun e => h (e ▸ List.mem_cons_self)
    rw [splitOn, if_neg hd, ih fun hm => h (List.mem_cons_of_mem d hm)]

theorem splitOn_cons_self (c : Char) (t : Text) : splitOn c (c :: t) = [] :: splitOn c t := by
  rw [splitOn, if_pos rfl]

theorem splitOn_append_cons {c : Char} {t : Text} (h : c ∉ t) (u : Text) :
    splitOn c (t ++ c :: u) = t :: splitOn c u := by
  induction t with
  | nil => exact splitOn_cons_self c u
  | cons d t ih =>
    have hd : d ≠ c := fun e => h (e ▸ List.mem_cons_self)
    rw [List.cons_append, splitOn, if_neg hd, ih fun hm => h (List.mem_cons_of_mem d hm)]

/-- Texts without the separator are cut apart as they were joined. -/
theorem splitOn_join {c : Char} {ts : List Text} (hne : ts ≠ []) (h : ∀ t ∈ ts, c ∉ t) :
    splitOn c (join [c] ts) = ts := by
  induction ts with
  | nil => exact absurd rfl hne
  | cons t ts ih =>
    have ht := h t List.mem_cons_self
    cases ts with
    | nil => exact splitOn_of_not_mem ht
    | cons u us =>
      rw [join, List.append_assoc, List.singleton_append, splitOn_append_cons ht,
        ih (List.cons_ne_nil u us) fun v hv => h v (List.mem_cons_of_mem t hv)]

/-- The pieces of a text do not hold the character it was cut at. -/
theorem not_mem_of_mem_splitOn {c : Char} {t piece : Text} (h : piece ∈ splitOn c t) :
    c ∉ piece := by
  induction t generalizing piece with
  | nil =>
    rw [List.mem_singleton.1 h]
    exact List.not_mem_nil
  | cons d t ih =>
    rw [splitOn] at h
    split at h
    · rcases List.mem_cons.1 h with rfl | h
      · exact List.not_mem_nil
      · exact ih h
    · rename_i hd
      split at h
      · rw [List.mem_singleton.1 h]
        exact fun hm => hd (List.mem_singleton.1 hm).symm
      · rename_i first later hsplit
        rcases List.mem_cons.1 h with rfl | h
        · intro hm
          rcases List.mem_cons.1 hm with hm | hm
          · exact hd hm.symm
          · exact ih (hsplit ▸ List.mem_cons_self) hm
        · exact ih (hsplit ▸ List.mem_cons_of_mem first h)

end Text

namespace Path

/-- A path that was read off a text. -/
def Written (p : Path) : Prop := ∃ t, p = ofText t

theorem written_ofText (t : Text) : (ofText t).Written := ⟨t, rfl⟩

/-- The components of a path that was read count, and hold no slash. -/
theorem Written.parts {p : Path} (h : p.Written) :
    ∀ part ∈ p.parts, isPart part = true ∧ '/' ∉ part := by
  obtain ⟨t, rfl⟩ := h
  intro part hpart
  obtain ⟨hmem, hcounts⟩ := List.mem_filter.1 hpart
  exact ⟨hcounts, not_mem_of_mem_splitOn hmem⟩

/-- The number of slashes that an anchor is written with. -/
def slashes : Anchor → Nat
  | .relative => 0
  | .slash => 1
  | .twoSlashes => 2

theorem text_eq (a : Anchor) : a.text = List.replicate (slashes a) '/' := by
  cases a <;> rfl

theorem anchorOf_slashes (a : Anchor) : anchorOf (slashes a) = a := by
  cases a <;> rfl

/-- Slashes in front of a text that does not start with one give the anchor, and no component. -/
theorem ofText_slashes_append {t : Text} (h : t.head? ≠ some '/') (n : Nat) :
    ofText (List.replicate n '/' ++ t) = ⟨anchorOf n, (splitOn '/' t).filter isPart⟩ := by
  have hlead : ((List.replicate n '/' ++ t).takeWhile (· == '/')).length = n := by
    induction n with
    | zero =>
      cases t with
      | nil => rfl
      | cons c t =>
        have hc : (c == '/') = false := beq_false_of_ne fun e => h (congrArg some e)
        rw [List.replicate_zero, List.nil_append, List.takeWhile_cons_of_neg (by rw [hc]; decide)]
        rfl
    | succ n ih => exact congrArg (· + 1) ih
  have hparts : (splitOn '/' (List.replicate n '/' ++ t)).filter isPart
      = (splitOn '/' t).filter isPart := by
    clear hlead
    induction n with
    | zero => rfl
    | succ n ih =>
      rw [List.replicate_succ, List.cons_append, splitOn_cons_self, List.filter_cons_of_neg
        (by decide), ih]
  unfold ofText
  rw [hlead, hparts]

theorem head?_join_ne {parts : List Text} (h : ∀ part ∈ parts, isPart part = true ∧ '/' ∉ part) :
    (Text.join ['/'] parts).head? ≠ some '/' := by
  cases parts with
  | nil => exact nofun
  | cons part rest =>
    obtain ⟨hcounts, hslash⟩ := h part List.mem_cons_self
    cases part with
    | nil => exact absurd hcounts (by decide)
    | cons c part =>
      have hc : some c ≠ some '/' := fun e => hslash (Option.some.inj e ▸ List.mem_cons_self)
      cases rest with
      | nil => exact hc
      | cons next rest => exact hc

/-- **A path that was read is read again from its text.** -/
theorem ofText_toText {p : Path} (h : p.Written) : ofText p.toText = p := by
  obtain ⟨anchor, parts⟩ := p
  have hparts := h.parts
  unfold toText
  by_cases hdot : anchor = .relative ∧ parts = []
  · obtain ⟨rfl, rfl⟩ := hdot
    rfl
  · rw [if_neg hdot, text_eq, ofText_slashes_append (head?_join_ne hparts), anchorOf_slashes]
    congr 1
    cases parts with
    | nil => rfl
    | cons part rest =>
      rw [splitOn_join (List.cons_ne_nil _ _) fun part hpart => (hparts part hpart).2]
      exact List.filter_eq_self.2 fun part hpart => (hparts part hpart).1

end Path

namespace CommandLine

/-! ## The paths that a command line names -/

/-- A path that is the current directory or was read off an argument. -/
def Named (directory p : Path) : Prop := p = directory ∨ p.Written

/-- Taken arguments whose paths are the current directory or were read off an argument. -/
structure Taken.Named (directory : Path) (t : Taken) : Prop where
  file : ∀ p ∈ t.file?, p.Written
  project : ∀ p ∈ t.projectDir?, CommandLine.Named directory p

section

variable {directory : Path} {t : Taken}

theorem Taken.Named.note (h : t.Named directory) (flag : Flag) (argument : Text) :
    (t.note flag argument).Named directory := by
  cases flag with
  | projectDir =>
    refine ⟨h.file, fun p hp => ?_⟩
    change p ∈ directory? argument at hp
    unfold directory? at hp
    split at hp
    · cases hp
    · cases hp
      exact .inr (Path.written_ofText argument)
  | help => exact ⟨h.file, h.project⟩
  | schema => exact ⟨h.file, h.project⟩
  | json => exact ⟨h.file, h.project⟩
  | codegen => exact ⟨h.file, h.project⟩
  | verbose => exact ⟨h.file, h.project⟩

theorem Taken.Named.noteAll (h : t.Named directory) (noted : List (Flag × Text)) :
    (noted.foldl (fun t (flag, argument) => t.note flag argument) t).Named directory := by
  induction noted generalizing t with
  | nil => exact h
  | cons entry noted ih => exact ih (h.note entry.1 entry.2)

theorem Taken.Named.noteCluster (h : t.Named directory) {c : Cluster} {rest later : List Argument}
    {t' : Taken} (hnote : t.noteCluster c rest = .ok (t', later)) : t'.Named directory := by
  have hnoted := h.noteAll c.noted
  unfold Taken.noteCluster at hnote
  dsimp only at hnote
  split at hnote
  · cases hnote
    exact hnoted
  · cases hnote
    exact hnoted.note _ _
  · cases hnote

/-- Taking arguments names no other paths. -/
theorem Taken.Named.take {args : List Argument} (h : t.Named directory) {t' : Taken}
    (htake : CommandLine.take t args = .ok t') : t'.Named directory := by
  fun_induction CommandLine.take t args with
  | case1 t args hhelp =>
    cases htake
    exact h
  | case2 t hhelp =>
    cases htake
    exact h
  | case3 t hhelp text rest hfile _ ih =>
    refine ih ⟨fun p hp => ?_, h.project⟩ htake
    cases hp
    exact Path.written_ofText text
  | case4 t hhelp text rest hfile ih => exact ih ⟨h.file, h.project⟩ htake
  | case5 t hhelp text rest hfile ih => exact ih h htake
  | case6 t hhelp text rest hfile ih => exact ih ⟨h.file, h.project⟩ htake
  | case7 t hhelp text rest ih => exact ih ⟨h.file, h.project⟩ htake
  | case8 t hhelp text spelling flag rest e he => cases htake
  | case9 t hhelp text spelling flag rest t'' later hnote _ ih =>
    exact ih (h.noteCluster hnote) htake
  | case10 t hhelp text spelling flag rest attached e he => cases htake
  | case11 t hhelp text spelling flag rest attached c hc e he => cases htake
  | case12 t hhelp text spelling flag rest attached c hc t'' later hnote _ ih =>
    exact ih (h.noteCluster hnote) htake

end

/-- The settings of a command line name the document by a text, and the project by a text or as the
current directory. -/
theorem named_of_read {directory : Path} {argv : List Text} {s : Settings}
    (h : read directory argv = .scan s) :
    s.file.Written ∧ ∀ dir ∈ s.projectDir?, Named directory dir := by
  unfold read at h
  cases hargs : arguments argv with
  | error refusal =>
    rw [hargs] at h
    cases h
  | ok args =>
    rw [hargs] at h
    dsimp only at h
    cases htake : take { projectDir? := some directory } args with
    | error refusal =>
      rw [htake] at h
      cases h
    | ok t =>
      rw [htake] at h
      have hstart : Taken.Named directory { projectDir? := some directory } := by
        refine ⟨nofun, fun p hp => ?_⟩
        cases hp
        exact .inl rfl
      have hnamed := hstart.take htake
      change t.request = .scan s at h
      unfold Taken.request at h
      split at h
      · cases h
      · split at h
        · cases h
        · rename_i file hfile
          split at h
          · cases h
            exact ⟨hnamed.file file hfile, hnamed.project⟩
          · cases h

/-! ## Switches -/

/-- The long spelling of an option. -/
def longSpelling : Flag → Text
  | .help => "--help".toList
  | .schema => "--schema".toList
  | .json => "--json".toList
  | .codegen => "--codegen".toList
  | .projectDir => "--project-dir".toList
  | .verbose => "--verbose".toList

/-- An option that turns something on. -/
def IsSwitch (flag : Flag) : Prop := flag ≠ .help ∧ flag ≠ .projectDir

instance (flag : Flag) : Decidable (IsSwitch flag) :=
  inferInstanceAs (Decidable (flag ≠ .help ∧ flag ≠ .projectDir))

/-- The argument that an option without attached text is. -/
def Flag.argument (flag : Flag) : Argument :=
  ⟨longSpelling flag, .option (longSpelling flag) flag none⟩

theorem role_longSpelling (flag : Flag) :
    longSpelling flag ≠ ['-', '-'] ∧ role (longSpelling flag) = .ok flag.argument.role := by
  cases flag <;> exact ⟨by decide, rfl⟩

theorem arguments_cons {t : Text} {r : Role} (hne : t ≠ ['-', '-']) (hr : role t = .ok r)
    (rest : List Text) :
    arguments (t :: rest) = (arguments rest).map fun later => ⟨t, r⟩ :: later := by
  rw [arguments, if_neg hne, hr]
  cases arguments rest <;> rfl

section

variable {t : Taken} (ht : t.helpAsked = false)
include ht

theorem take_switch {flag : Flag} (hflag : IsSwitch flag) (rest : List Argument) :
    take t (flag.argument :: rest) = take (t.note flag []) rest := by
  have hsingle : Cluster.single flag = { noted := [(flag, [])] } := by
    cases flag <;> first | rfl | exact absurd rfl hflag.2
  have hnote : t.noteCluster (Cluster.single flag) rest = .ok (t.note flag [], rest) := by
    rw [hsingle]
    rfl
  unfold Flag.argument
  rw [take, if_neg (by rw [ht]; exact Bool.false_ne_true)]
  dsimp only
  split
  · rename_i e he
    rw [hnote] at he
    cases he
  · rename_i t' later hlater
    rw [hnote] at hlater
    cases hlater
    rfl

theorem take_word (hfile : t.file? = none) (text : Text) (rest : List Argument) :
    take t (⟨text, .word⟩ :: rest)
      = take { t with file? := some (Path.ofText text) } (dropSeparator rest) := by
  rw [take, if_neg (by rw [ht]; exact Bool.false_ne_true)]
  dsimp only
  rw [hfile]
  rfl

end

/-- What is noted of some switches. -/
def Taken.noteSwitches (t : Taken) (flags : List Flag) : Taken :=
  { t with
    schema := t.schema || flags.contains .schema
    json := t.json || flags.contains .json
    codegen := t.codegen || flags.contains .codegen
    verbose := t.verbose || flags.contains .verbose }

theorem take_switches {t : Taken} (ht : t.helpAsked = false) {flags : List Flag}
    (hflags : ∀ flag ∈ flags, IsSwitch flag) (rest : List Argument) :
    take t (flags.map Flag.argument ++ rest) = take (t.noteSwitches flags) rest := by
  induction flags generalizing t with
  | nil =>
    unfold Taken.noteSwitches
    simp
  | cons flag flags ih =>
    have hflag := hflags flag List.mem_cons_self
    have hnoted : (t.note flag []).noteSwitches flags = t.noteSwitches (flag :: flags) := by
      cases flag <;>
        simp [Taken.noteSwitches, Taken.note, IsSwitch] at hflag ⊢
    have hhelp : (t.note flag []).helpAsked = false := by
      cases flag <;> first | exact ht | exact absurd rfl hflag.1
    rw [List.map_cons, List.cons_append, take_switch ht hflag,
      ih hhelp fun f hf => hflags f (List.mem_cons_of_mem flag hf), hnoted]

/-! ## Project directories -/

/-- The arguments that name a project directory. -/
def projectArguments : Option Text → List Text
  | none => []
  | some dir => [longSpelling .projectDir, dir]

/-- A command line with a document, some switches, and a project directory if there is one. -/
def line (file : Text) (flags : List Flag) (dir? : Option Text) : List Text :=
  file :: flags.map longSpelling ++ projectArguments dir?

/-- A text that does not start with a dash is no option. -/
theorem role_of_head {t : Text} (h : t.head? ≠ some '-') : role t = .ok .word := by
  unfold role
  split
  · exact absurd rfl h
  · rfl

theorem ne_separator {t : Text} (h : role t = .ok .word) : t ≠ ['-', '-'] := by
  rintro rfl
  cases h

/-- The arguments of `projectArguments` with their roles. -/
def readProject : Option Text → List Argument
  | none => []
  | some dir => [Flag.argument .projectDir, ⟨dir, .word⟩]

theorem arguments_project {dir? : Option Text} (h : ∀ dir ∈ dir?, role dir = .ok .word) :
    arguments (projectArguments dir?) = .ok (readProject dir?) := by
  cases dir? with
  | none => rfl
  | some dir =>
    have hdir := h dir rfl
    obtain ⟨hne, hrole⟩ := role_longSpelling .projectDir
    unfold projectArguments
    rw [arguments_cons hne hrole, arguments_cons (ne_separator hdir) hdir]
    rfl

theorem take_project {t : Taken} (ht : t.helpAsked = false) {dir? : Option Text}
    (h : ∀ dir ∈ dir?, role dir = .ok .word) :
    take t (readProject dir?)
      = .ok { t with
          projectDir? := dir?.elim t.projectDir? fun dir => some (Path.ofText dir) } := by
  have hidle : ∀ {u : Taken}, u.helpAsked = false → take u [] = .ok u := by
    intro u hu
    rw [take, if_neg (by rw [hu]; exact Bool.false_ne_true)]
  cases dir? with
  | none => exact hidle ht
  | some dir =>
    have hdirectory : directory? dir = some (Path.ofText dir) := if_neg (ne_separator (h dir rfl))
    have hnote : t.noteCluster (Cluster.single .projectDir) [⟨dir, .word⟩]
        = .ok (t.note .projectDir dir, []) := rfl
    unfold readProject Flag.argument
    rw [take, if_neg (by rw [ht]; exact Bool.false_ne_true)]
    dsimp only
    split
    · rename_i e he
      rw [hnote] at he
      cases he
    · rename_i t' later hlater
      rw [hnote] at hlater
      cases hlater
      have hhelp : (t.note .projectDir dir).helpAsked = false := ht
      rw [hidle hhelp, Taken.note, hdirectory]
      rfl

/-- **A document, some switches and a project directory come to the settings that they name.** -/
theorem read_line {file : Text} (hfile : role file = .ok .word) (flags : List Flag)
    (hflags : ∀ flag ∈ flags, IsSwitch flag) (dir? : Option Text)
    (hdir : ∀ dir ∈ dir?, role dir = .ok .word) (directory : Path) :
    read directory (line file flags dir?) =
      .scan
        { file := Path.ofText file, projectDir? := some (dir?.elim directory Path.ofText)
          schema := flags.contains .schema, json := flags.contains .json
          codegen := flags.contains .codegen, verbose := flags.contains .verbose } := by
  have hswitches : ∀ flags : List Flag,
      arguments (flags.map longSpelling ++ projectArguments dir?)
        = .ok (flags.map Flag.argument ++ readProject dir?) := by
    intro flags
    induction flags with
    | nil => exact arguments_project hdir
    | cons flag flags ih =>
      obtain ⟨hne, hrole⟩ := role_longSpelling flag
      rw [List.map_cons, List.cons_append, arguments_cons hne hrole, ih]
      rfl
  have hargs : arguments (line file flags dir?)
      = .ok (⟨file, .word⟩ :: (flags.map Flag.argument ++ readProject dir?)) := by
    unfold line
    rw [List.cons_append, arguments_cons (ne_separator hfile) hfile, hswitches]
    rfl
  have hseparator : dropSeparator (flags.map Flag.argument ++ readProject dir?)
      = flags.map Flag.argument ++ readProject dir? := by
    cases flags with
    | nil => cases dir? <;> rfl
    | cons flag flags => rfl
  unfold read
  rw [hargs]
  dsimp only
  rw [take_word rfl rfl, hseparator, take_switches rfl hflags, take_project rfl hdir]
  cases dir? <;> simp [Taken.request, Taken.noteSwitches]

end CommandLine

end GqlScan
