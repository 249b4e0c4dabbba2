import GqlScan.Text.Basic

/-!
# Log records

What the scanners and the generator launch report beside their results: a level, the part of the
program that speaks and a message.
-/

namespace GqlScan.Log

open Text

/-- Levels, from the least to the most severe. -/
inductive Level where
  | debug
  | info
  | warning
  | error
  deriving DecidableEq, Repr

/-- The severity of a level. -/
def Level.rank : Level → Nat
  | .debug => 0
  | .info => 1
  | .warning => 2
  | .error => 3

/-- The name of a level. -/
def Level.name : Level → Text
  | .debug => "DEBUG".toList
  | .info => "INFO".toList
  | .warning => "WARNING".toList
  | .error => "ERROR".toList

/-- One report. -/
structure Record where
  level : Level
  source : Text
  message : Text
  deriving DecidableEq, Repr

/-- A record as a line of a log. -/
def Record.line (r : Record) : Text := r.level.name ++ [' '] ++ r.source ++ ": ".toList ++ r.message

/-- The records that are at least as severe as a level. -/
def atLeast (level : Level) (records : List Record) : List Record :=
  records.filter fun r => level.rank ≤ r.level.rank

end GqlScan.Log
