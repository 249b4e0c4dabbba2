import GqlScan.Path
import GqlScan.Text.Digit
import GqlScan.Text.Quoted

/-!
# The command line

One word names the document; the rest are options. A long option may be shortened as long as it
stays unambiguous. An option may carry its argument behind an equals sign, a short one also directly
behind its letter; short options without an argument may be run together. After two dashes every
word counts as a word. Numbers with a minus sign and words with a space in them are no options.

Arguments are first told apart one by one and then taken from left to right. An ambiguous option is
therefore refused before anything else, and help is given as soon as it is asked for.
-/

namespace GqlScan.CommandLine

open Text

/-! ## Options -/

/-- The options. -/
inductive Flag where
  | help
  | schema
  | json
  | codegen
  | projectDir
  | verbose
  deriving DecidableEq, Repr

/-- The spellings of the options. -/
def spellings : List (Text × Flag) :=
  [("-h".toList, .help), ("--help".toList, .help), ("-s".toList, .schema),
    ("--schema".toList, .schema), ("--json".toList, .json), ("--codegen".toList, .codegen),
    ("-p".toList, .projectDir), ("--project-dir".toList, .projectDir), ("-v".toList, .verbose),
    ("--verbose".toList, .verbose)]

/-- Whether an option takes an argument. -/
def Flag.takesArgument : Flag → Bool
  | .projectDir => true
  | .help | .schema | .json | .codegen | .verbose => false

/-- The name of an option in a complaint: its spellings. -/
def Flag.name (f : Flag) : Text :=
  join ['/'] ((spellings.filter (·.2 == f)).map Prod.fst)

/-- Why a command line is refused. -/
inductive Refusal where
  | ambiguous (argument : Text) (candidates : List Text)
  | ignoredArgument (flag : Flag) (argument : Text)
  | missingArgument (flag : Flag)
  | missingFile
  | unrecognised (arguments : List Text)
  deriving DecidableEq, Repr

/-- The wording of a refusal. -/
def Refusal.message : Refusal → Text
  | ambiguous argument candidates =>
    "ambiguous option: ".toList ++ argument ++ " could match ".toList ++ join [',', ' '] candidates
  | ignoredArgument flag argument =>
    "argument ".toList ++ flag.name ++ ": ignored explicit argument ".toList ++ quoted argument
  | missingArgument flag => "argument ".toList ++ flag.name ++ ": expected one argument".toList
  | missingFile => "the following arguments are required: file".toList
  | unrecognised arguments => "unrecognized arguments: ".toList ++ join [' '] arguments

/-! ## Telling arguments apart -/

/-- What an argument is. -/
inductive Role where
  | word
  /-- the first pair of dashes -/
  | separator
  /-- an option, with the text that it carries -/
  | option (spelling : Text) (flag : Flag) (attached? : Option Text)
  | unknown
  deriving DecidableEq, Repr

/-- An argument with its role. -/
structure Argument where
  text : Text
  role : Role
  deriving DecidableEq, Repr

/-- A text without a line feed at its end. -/
def dropFinalLineFeed (t : Text) : Text := if t.getLast? = some '\n' then t.dropLast else t

/-- Whether a text is a number with a minus sign: digits, or digits around a point of which the
ones before it may be missing. A line feed may follow. -/
def isNegativeNumber (t : Text) : Bool :=
  match dropFinalLineFeed t with
  | '-' :: digits =>
    let whole := digits.takeWhile isDecimalDigit
    match digits.dropWhile isDecimalDigit with
    | [] => !whole.isEmpty
    | '.' :: part => !part.isEmpty && part.all isDecimalDigit
    | _ => false
  | _ => false

/-- The long options that start with a shortened one, with what the argument carries. -/
def completions (argument : Text) : List Role :=
  let attached? := if '=' ∈ argument then some (after '=' argument) else none
  (spellings.filter fun s => (before '=' argument).isPrefixOf s.1).map fun s =>
    .option s.1 s.2 attached?

/-- The role of an argument that starts with a dash and is no spelling of an option. -/
def dashRole (argument : Text) : Except Refusal Role :=
  match spellings.lookup (before '=' argument) with
  | some flag =>
    if '=' ∈ argument then .ok (.option (before '=' argument) flag (some (after '=' argument)))
    else .ok (.option argument flag none)
  | none =>
    let candidates :=
      if argument.take 2 = ['-', '-'] then completions argument
      else
        match spellings.lookup (argument.take 2) with
        | some flag => [.option (argument.take 2) flag (some (argument.drop 2))]
        | none => []
    match candidates with
    | [role] => .ok role
    | [] =>
      if isNegativeNumber argument || argument.contains ' ' then .ok .word else .ok .unknown
    | several =>
      .error (.ambiguous argument (several.filterMap fun
        | .option spelling _ _ => some spelling
        | _ => none))

/-- The role of an argument before any pair of dashes. -/
def role (argument : Text) : Except Refusal Role :=
  match argument with
  | '-' :: _ :: _ => dashRole argument
  | _ => .ok .word

/-- The arguments of a command line with their roles. -/
def arguments : List Text → Except Refusal (List Argument)
  | [] => .ok []
  | t :: rest =>
    if t = ['-', '-'] then .ok (⟨t, .separator⟩ :: rest.map fun u => ⟨u, .word⟩)
    else do
      let r ← role t
      let later ← arguments rest
      return ⟨t, r⟩ :: later

/-! ## Taking arguments -/

/-- What the command line asks for. There is no project directory when the option for it was given a
pair of dashes, which counts for nothing in front of an argument. -/
structure Settings where
  file : Path
  projectDir? : Option Path
  schema : Bool := false
  json : Bool := false
  codegen : Bool := false
  verbose : Bool := false
  deriving DecidableEq, Repr

/-- What has been taken so far, with the arguments for which there was no use. -/
structure Taken where
  file? : Option Path := none
  projectDir? : Option Path
  schema : Bool := false
  json : Bool := false
  codegen : Bool := false
  verbose : Bool := false
  helpAsked : Bool := false
  unused : List Text := []
  deriving DecidableEq, Repr

/-- The directory that an argument names, none for a pair of dashes. -/
def directory? (argument : Text) : Option Path :=
  if argument = ['-', '-'] then none else some (Path.ofText argument)

/-- Note an option, with its argument if it takes one. -/
def Taken.note (t : Taken) (flag : Flag) (argument : Text) : Taken :=
  match flag with
  | .help => { t with helpAsked := true }
  | .schema => { t with schema := true }
  | .json => { t with json := true }
  | .codegen => { t with codegen := true }
  | .projectDir => { t with projectDir? := directory? argument }
  | .verbose => { t with verbose := true }

/-- What options written together come to: the options with their arguments, and a last one that
still needs an argument. -/
structure Cluster where
  noted : List (Flag × Text) := []
  waiting? : Option Flag := none
  deriving DecidableEq, Repr

/-- A cluster with a further option in front. -/
def Cluster.cons (flag : Flag) (c : Cluster) : Cluster := { c with noted := (flag, []) :: c.noted }

/-- The cluster of an option without an attached text. -/
def Cluster.single (flag : Flag) : Cluster :=
  if flag.takesArgument then { waiting? := some flag } else { noted := [(flag, [])] }

/-- The cluster of an option and the text attached to it: its argument, or behind a short option
that takes none, further short options. The text behind the last of those is its argument as it
stands, also when it starts with an equals sign. -/
def cluster (isShort : Bool) (flag : Flag) (attached : Text) : Except Refusal Cluster :=
  if flag.takesArgument then .ok { noted := [(flag, attached)] }
  else
    match attached with
    | [] => .error (.ignoredArgument flag [])
    | c :: more =>
      match if isShort then spellings.lookup ['-', c] else none with
      | none => .error (.ignoredArgument flag attached)
      | some next =>
        if more.isEmpty then .ok ((Cluster.single next).cons flag)
        else (cluster isShort next more).map (Cluster.cons flag)

/-- Whether a spelling is that of a short option. -/
def isShort (spelling : Text) : Bool := spelling.length == 2

/-- Note the options of a cluster, and for the one that waits the word that follows. -/
def Taken.noteCluster (t : Taken) (c : Cluster) (rest : List Argument) :
    Except Refusal (Taken × List Argument) :=
  let noted := c.noted.foldl (fun t (flag, argument) => t.note flag argument) t
  match c.waiting?, rest with
  | none, _ => .ok (noted, rest)
  | some flag, ⟨word, .word⟩ :: later => .ok (noted.note flag word, later)
  | some flag, _ => .error (.missingArgument flag)

theorem length_noteCluster_le {t t' : Taken} {c : Cluster} {rest later : List Argument}
    (h : t.noteCluster c rest = .ok (t', later)) : later.length ≤ rest.length := by
  unfold Taken.noteCluster at h
  dsimp only at h
  split at h
  · cases h; exact Nat.le_refl _
  · cases h; exact Nat.le_succ _
  · cases h

/-- The arguments without a pair of dashes in front. -/
def dropSeparator : List Argument → List Argument
  | ⟨_, .separator⟩ :: rest => rest
  | rest => rest

theorem length_dropSeparator_le (args : List Argument) :
    (dropSeparator args).length ≤ args.length := by
  unfold dropSeparator
  split <;> simp

/-- Take arguments from left to right, until help is asked for. The first word is the document;
the pair of dashes goes with it when it stands next to it. Behind the pair of dashes there are only
words, so the argument after it becomes the document if there is none yet. -/
def take (t : Taken) (arguments : List Argument) : Except Refusal Taken :=
  if t.helpAsked then .ok t
  else
    match arguments with
    | [] => .ok t
    | ⟨text, .word⟩ :: rest =>
      if t.file?.isNone then
        have := length_dropSeparator_le rest
        take { t with file? := some (Path.ofText text) } (dropSeparator rest)
      else take { t with unused := t.unused ++ [text] } rest
    | ⟨text, .separator⟩ :: rest =>
      if t.file?.isNone && !rest.isEmpty then take t rest
      else take { t with unused := t.unused ++ [text] } rest
    | ⟨text, .unknown⟩ :: rest => take { t with unused := t.unused ++ [text] } rest
    | ⟨_, .option spelling flag attached?⟩ :: rest =>
      match attached? with
      | none =>
        match h : t.noteCluster (Cluster.single flag) rest with
        | .error e => .error e
        | .ok (t', later) =>
          have := length_noteCluster_le h
          take t' later
      | some attached =>
        match cluster (isShort spelling) flag attached with
        | .error e => .error e
        | .ok c =>
          match h : t.noteCluster c rest with
          | .error e => .error e
          | .ok (t', later) =>
            have := length_noteCluster_le h
            take t' later
termination_by arguments.length

/-! ## The whole command line -/

/-- What a command line comes to. -/
inductive Request where
  | scan (settings : Settings)
  | help
  | refuse (refusal : Refusal)
  deriving DecidableEq, Repr

/-- The request of what was taken. A missing document is complained about before arguments that
were of no use. -/
def Taken.request (t : Taken) : Request :=
  if t.helpAsked then .help
  else
    match t.file? with
    | none => .refuse .missingFile
    | some file =>
      if t.unused.isEmpty then
        .scan
          { file := file, projectDir? := t.projectDir?, schema := t.schema, json := t.json
            codegen := t.codegen, verbose := t.verbose }
      else .refuse (.unrecognised t.unused)

/-- Read a command line. The project directory is the current one unless another is named. -/
def read (directory : Path) (argv : List Text) : Request :=
  match arguments argv with
  | .error refusal => .refuse refusal
  | .ok args =>
    match take { projectDir? := some directory } args with
    | .error refusal => .refuse refusal
    | .ok t => t.request

/-! ## Texts -/

/-- The line that shows how the program is called. -/
def usage : Text :=
  "usage: dcgql [-h] [-s] [--json] [--codegen] [-p PROJECT_DIR] [-v] file\n".toList

/-- The help text. -/
def help : Text :=
  usage ++ "
Scan GraphQL operations and schema types in a .gql document

positional arguments:
  file                  Path to the GraphQL document

options:
  -h, --help            show this help message and exit
  -s, --schema          Scan schema type blocks instead of an operation
  --json                Print the result as JSON
  --codegen             Run the Data Connect code generator for the project
                        after scanning
  -p PROJECT_DIR, --project-dir PROJECT_DIR
                        Project directory holding connector.yaml (default:
                        current directory)
  -v, --verbose         Enable debug logging
".toList

/-- What is printed when a command line is refused. -/
def Refusal.report (r : Refusal) : Text := usage ++ "dcgql: error: ".toList ++ r.message ++ ['\n']

end GqlScan.CommandLine
