/-
Log records. Nothing in this library writes a log; whatever an operation has
to say is a list of records beside its result.
-/
namespace GrammarExplorer.Log

inductive Level
  | debug
  | warn
  deriving Repr, DecidableEq

def Level.name : Level → String
  | debug => "DEBUG"
  | warn => "WARN"

/-- A message, how much it matters, and the part of the program it is
from. -/
structure Record where
  level : Level
  target : String
  message : String
  deriving Repr, DecidableEq

/-- The parts of the program that have something to say. -/
def grammarTarget : String := "treevis::grammar"
def concreteTarget : String := "treevis::grammar::concrete"
def linearizationTarget : String := "treevis::linearize"
def derivationTarget : String := "treevis::derivation"
def sessionTarget : String := "treevis::session"
def commandTarget : String := "treevis"

/-- The record as a line of text. The lines of a longer message are set in
by four blanks after the first. -/
def Record.line (r : Record) : String :=
  let level := match r.level with
    | .debug => "DEBUG"
    | .warn => "WARN "
  "[" ++ level ++ " " ++ r.target ++ "] " ++ "\n    ".intercalate (r.message.splitOn "\n") ++ "\n"

end GrammarExplorer.Log
