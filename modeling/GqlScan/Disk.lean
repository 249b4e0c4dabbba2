import GqlScan.Path
import GqlScan.Text.Lines
import GqlScan.Text.Quoted
import GqlScan.Text.Utf8

/-!
# Disks

What a program sees of the files around it: for every path, what is found there. A `FileTree` is
one such disk, given by its files and directories and a current directory; unlike `Path.absolute`
it follows a double dot only out of a directory that exists.
-/

namespace GqlScan

open Text

/-- What is found at a path. -/
inductive Entry where
  | missing
  /-- some component before the last is a file -/
  | notDirectory
  | directory
  | file (bytes : List UInt8)
  deriving DecidableEq, Repr

/-- What is found at each path. -/
abbrev Disk := Path → Entry

/-- Why a path cannot be opened as a file. -/
inductive OpenFault where
  | missing
  | notDirectory
  | isDirectory
  deriving DecidableEq, Repr

namespace OpenFault

/-- The number of a fault. -/
def number : OpenFault → Nat
  | missing => 2
  | notDirectory => 20
  | isDirectory => 21

/-- The wording of a fault. -/
def reason : OpenFault → Text
  | missing => "No such file or directory".toList
  | notDirectory => "Not a directory".toList
  | isDirectory => "Is a directory".toList

/-- The report of a fault at a path. -/
def message (f : OpenFault) (p : Path) : Text :=
  "[Errno ".toList ++ Text.ofNat f.number ++ "] ".toList ++ f.reason ++ ": ".toList
    ++ quoted p.toText

end OpenFault

/-- Why the text of a file cannot be had. -/
inductive ReadFault where
  | openFault (fault : OpenFault)
  | undecodable (error : Utf8.DecodeError)
  /-- the path holds the null character -/
  | nullCharacter
  deriving DecidableEq, Repr

/-- The wording of the complaint about a null character in a path. -/
def nullCharacterMessage : Text := "embedded null byte".toList

/-- The report of a fault in reading a path. -/
def ReadFault.message (p : Path) : ReadFault → Text
  | .openFault fault => fault.message p
  | .undecodable error => error.message
  | .nullCharacter => nullCharacterMessage

namespace Disk

/-- Whether there is a file at a path. A path with the null character names nothing. -/
def isFile (disk : Disk) (p : Path) : Bool :=
  match disk p with
  | .file _ => !p.hasNull
  | .missing | .notDirectory | .directory => false

/-- Whether there is a file or a directory at a path. -/
def holds (disk : Disk) (p : Path) : Bool :=
  match disk p with
  | .file _ | .directory => !p.hasNull
  | .missing | .notDirectory => false

/-- The text of a file: its bytes decoded strictly, with line feeds for all line ends. -/
def readText (disk : Disk) (p : Path) : Except ReadFault Text :=
  if p.hasNull then .error .nullCharacter
  else
    match disk p with
    | .missing => .error (.openFault .missing)
    | .notDirectory => .error (.openFault .notDirectory)
    | .directory => .error (.openFault .isDirectory)
    | .file bytes =>
      match Utf8.decode bytes with
      | .ok text => .ok (unifyLineFeeds text)
      | .error e => .error (.undecodable e)

end Disk

/-! ## File trees -/

/-- A file or a directory. -/
inductive Node where
  | file (bytes : List UInt8)
  | directory
  deriving DecidableEq, Repr

/-- Files and directories by the components of their absolute paths, and the current directory.
Directories on the way to an entry exist without being listed. -/
structure FileTree where
  current : List Text
  entries : List (List Text × Node)

namespace FileTree

/-- What stands at the end of the components of an absolute path without double dots. -/
def node? (tree : FileTree) (parts : List Text) : Option Node :=
  match tree.entries.lookup parts with
  | some node => some node
  | none =>
    if parts.isPrefixOf tree.current || tree.entries.any fun e => parts.isPrefixOf e.1 then
      some .directory
    else none

/-- Walk on from a place that exists. -/
def walk (tree : FileTree) (place : List Text) : List Text → Entry
  | [] =>
    match tree.node? place with
    | some (.file bytes) => .file bytes
    | some .directory => .directory
    | none => .missing
  | part :: rest =>
    match tree.node? place with
    | some .directory => tree.walk (Path.enter Path.up place part) rest
    | some (.file _) => .notDirectory
    | none => .missing

/-- The disk that a tree makes up. -/
def disk (tree : FileTree) : Disk := fun p =>
  tree.walk [] (Path.join ⟨.slash, tree.current⟩ p).parts

end FileTree

end GqlScan
