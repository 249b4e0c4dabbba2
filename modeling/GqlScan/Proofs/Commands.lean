import GqlScan.Generator
import GqlScan.Proofs.AbsolutePaths
import GqlScan.Proofs.Files

/-!
# What is launched

`Call.IsFor` writes out the launch of the code generator for a folder: four words, of which the last
holds the path of the connector file from the root and without double dots. A run after a document
was saved makes this one launch if the connector file is there, and its result is that of the
launch; else it makes none and fails.

Main statements: `Call.isFor_iff` and `follows_of_afterSave`.
-/

namespace GqlScan

open Text

namespace Generator

/-! ## Launches -/

/-- The components on the way to the connector file of a folder, which is written out and seen from
a directory. -/
def connectorParts (directory : Path) (folder : Text) : List Text :=
  (if folder.head? = some '/' then [] else directory.parts)
    ++ (splitOn '/' folder).filter (fun part => part != [] && part != ['.'])
    ++ ["connector.yaml".toList]

/-- A launch of the code generator for the connector file of a folder. It is given the path of the
file from the root, without double dots, and runs in the folder. -/
structure Call.IsFor (directory : Path) (folder : Text) (call : Call) : Prop where
  command : ∃ parts, Path.Resolves ['.', '.'] (connectorParts directory folder) parts
    ∧ call.command
      = ["firebase".toList, "data-connect".toList, "codegen".toList,
          "--config=".toList ++ parts.flatMap ('/' :: ·)]
  directory : call.directory = folder

/-- The path of the connector file of a folder, seen from a directory. -/
theorem parts_join_child (directory : Path) (folder : Text) :
    (directory.join ((Path.ofText folder).child Connector.fileName)).parts
      = connectorParts directory folder := by
  have hname : Path.ofText Connector.fileName = ⟨.relative, ["connector.yaml".toList]⟩ := by decide
  have hchild : (Path.ofText folder).child Connector.fileName
      = { Path.ofText folder with
          parts := (Path.ofText folder).parts ++ ["connector.yaml".toList] } := by
    unfold Path.child
    rw [hname]
    rfl
  have hanchor := Path.anchor_ofText_eq_relative_iff folder
  rw [hchild]
  unfold Path.join connectorParts
  by_cases hhead : folder.head? = some '/'
  · rw [if_pos hhead, if_neg fun h => hanchor.1 h hhead]
    rfl
  · rw [if_neg hhead, if_pos (hanchor.2 hhead), List.append_assoc]
    rfl

/-- The path of the connector file of a folder as it is given to the generator. -/
theorem toText_absolute (directory : Path) (folder : Text) :
    (directory.absolute ((Path.ofText folder).child Connector.fileName)).toText
      = (Path.resolve ['.', '.'] (connectorParts directory folder)).flatMap ('/' :: ·) := by
  unfold Path.absolute
  rw [parts_join_child]
  refine Path.toText_slash ?_
  -- the name of the file is no double dot, so it is the last component
  unfold connectorParts
  rw [Path.resolve_append]
  exact List.append_ne_nil_of_right_ne_nil _ (List.cons_ne_nil _ _)

/-- **There is one launch for a folder, and it is the one that is made.** -/
theorem Call.isFor_iff {directory : Path} {folder : Text} {call : Call} :
    call.IsFor directory folder
      ↔ call = ⟨Generator.command defaultExecutable
          (directory.absolute ((Path.ofText folder).child Connector.fileName)), folder⟩ := by
  unfold Generator.command
  rw [toText_absolute]
  constructor
  · rintro ⟨⟨parts, hparts, hcommand⟩, hdirectory⟩
    obtain ⟨command, folder'⟩ := call
    dsimp only at hcommand hdirectory
    rw [hcommand, hdirectory, Path.resolves_iff.1 hparts]
    rfl
  · rintro rfl
    exact ⟨⟨_, Path.resolves_resolve _, rfl⟩, rfl⟩

/-! ## Outcomes -/

/-- There is no result exactly when the output of the generator is no text. -/
theorem result_eq_error_iff {o : Outcome} {e : Utf8.DecodeError} :
    o.result = .error e ↔ o = .undecodable e := by
  cases o with
  | completed exit stderr =>
    unfold Outcome.result
    dsimp only
    split <;> exact iff_of_false nofun nofun
  | failed error => exact iff_of_false nofun nofun
  | undecodable found =>
    constructor <;>
    · rintro ⟨⟩
      rfl

/-- Only a launch that completes with the exit code zero succeeds. -/
theorem success_iff (o : Outcome) :
    (∃ r, o.result = .ok r ∧ r.success = true) ↔ ∃ stderr, o = .completed 0 stderr := by
  cases o with
  | completed exit stderr =>
    unfold Outcome.result
    dsimp only
    by_cases hexit : exit = 0
    · rw [if_pos hexit, hexit]
      exact iff_of_true ⟨_, rfl, rfl⟩ ⟨stderr, rfl⟩
    · rw [if_neg hexit]
      refine iff_of_false ?_ ?_
      · rintro ⟨r, ⟨⟩, ⟨⟩⟩
      · rintro ⟨stderr', ⟨⟩⟩
        exact hexit rfl
  | failed error =>
    refine iff_of_false ?_ nofun
    rintro ⟨r, ⟨⟩, ⟨⟩⟩
  | undecodable error => exact iff_of_false nofun nofun

/-! ## Runs -/

/-- What is made of a project folder in which a document was saved: one launch with what comes of
it, or a failure without a launch when there is no connector file. -/
inductive Follows (disk : Disk) (directory : Path) (folder : Text) (outcome : Outcome) :
    Run → Prop where
  | launched {call : Call} {logs : List Log.Record} :
      disk.HasFile ((Path.ofText folder).child "connector.yaml".toList) →
      call.IsFor directory folder →
      Follows disk directory folder outcome ⟨outcome.result, [call], logs⟩
  | missing {result : Result} {logs : List Log.Record} :
      ¬ disk.HasFile ((Path.ofText folder).child "connector.yaml".toList) →
      result.success = false →
      Follows disk directory folder outcome ⟨.ok result, [], logs⟩

variable {disk : Disk} {directory file : Path} {folder : Text} {outcome : Outcome} {run : Run}

/-- **After a document was saved there is one launch, or no connector file.** -/
theorem follows_of_afterSave
    (h : afterSave disk directory file folder defaultExecutable outcome = some run) :
    Follows disk directory folder outcome run := by
  unfold afterSave Connector.find? at h
  split at h
  · cases hconnector : disk.isFile ((Path.ofText folder).child Connector.fileName) with
    | true =>
      rw [hconnector] at h
      cases h
      exact .launched (Disk.isFile_iff.1 hconnector) (Call.isFor_iff.2 rfl)
    | false =>
      rw [hconnector] at h
      cases h
      exact .missing (Disk.isFile_eq_false_iff.1 hconnector) rfl
  · cases h

/-- For a document something is always made of saving it. -/
theorem exists_afterSave_iff {executable : Text} :
    (∃ run, afterSave disk directory file folder executable outcome = some run)
      ↔ file.isDocument = true := by
  unfold afterSave
  cases file.isDocument with
  | true =>
    rw [if_pos rfl]
    refine iff_of_true ?_ rfl
    split
    · exact ⟨_, rfl⟩
    · exact ⟨_, rfl⟩
  | false => exact iff_of_false nofun Bool.false_ne_true

namespace Follows

variable (h : Follows disk directory folder outcome run)
include h

/-- The error that is passed on is that of a launch. -/
theorem result_eq_error_iff {e : Utf8.DecodeError} :
    run.result = .error e ↔ run.calls ≠ [] ∧ outcome = .undecodable e := by
  cases h with
  | launched _ _ => exact Generator.result_eq_error_iff.trans (and_iff_right nofun).symm
  | missing _ _ => exact iff_of_false nofun fun h => h.1 rfl

/-- Only a launch succeeds. -/
theorem success_iff :
    (∃ r, run.result = .ok r ∧ r.success = true)
      ↔ run.calls ≠ [] ∧ ∃ stderr, outcome = .completed 0 stderr := by
  cases h with
  | launched _ _ => exact (Generator.success_iff outcome).trans (and_iff_right nofun).symm
  | missing _ hfails =>
    refine iff_of_false ?_ fun h => h.1 rfl
    rintro ⟨r, ⟨⟩, hsuccess⟩
    rw [hfails] at hsuccess
    cases hsuccess

end Follows

end Generator

end GqlScan
