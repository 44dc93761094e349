import Pushdown.Report.Command

/-!
# The command line

Reads the files that a command names and prints its answer.
-/

namespace Pushdown

/-- The text that a traversal comes from. -/
def readSource : TextSource → IO String
  | .file path => IO.FS.readFile path
  | .text text => pure text

/-- The answer of a request. -/
def answer (form : ReportFormat) : Request → IO (Except String String)
  | .explain config source => do
      let config ← config.mapM fun path => IO.FS.readFile path
      let source ← readSource source
      pure ((explainReport form config source).mapError ExplainError.message)
  | .config path => do
      let config ← IO.FS.readFile path
      pure ((configReport form config).mapError GraphError.message)

end Pushdown

/-- Answer the command of some words; a fault is told on the error stream. -/
def main (words : List String) : IO UInt32 := do
  let answer ← match Pushdown.Command.ofWords words with
    | .ok command => Pushdown.answer command.form command.request
    | .error fault => pure (.error fault.message)
  match answer with
  | .ok text => do
      IO.println text
      pure 0
  | .error text => do
      IO.eprintln ("Error: " ++ text)
      pure 1
