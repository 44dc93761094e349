import Pushdown.Report.Configuration
import Pushdown.Report.Explanation
import Pushdown.Store.Memory

/-!
# Commands

What can be asked on a command line: the explanation of a traversal, or the report on a
configuration. The options stand anywhere among the words.

## Operations

* `Command.ofWords`: the command of some words;
* `explainReport`, `configReport`: the answers, from texts that were read.
-/

namespace Pushdown

/-- Where a text comes from. -/
inductive TextSource where
  | file (path : String)
  | text (text : String)
deriving DecidableEq

/-- What is asked. -/
inductive Request where
  | explain (config : Option String) (source : TextSource)
  | config (path : String)
deriving DecidableEq

/-- A request and the form of its answer. -/
structure Command where
  form : ReportFormat
  request : Request
deriving DecidableEq

/-- What is wrong with a command line. -/
inductive CommandFault where
  | noCommand
  | unknownCommand (word : String)
  | noValue (option : String)
  | unknownForm (word : String)
  | unknownOption (option : String)
  | extraWord (word : String)
  | noTraversal
  | twoTraversals
  | noConfiguration
deriving DecidableEq

/-- The text of a fault. -/
def CommandFault.message : CommandFault → String
  | noCommand => "no command given; use explain or config"
  | unknownCommand word => "unknown command " ++ word
  | noValue option => "no value given for " ++ option
  | unknownForm word => "unknown format " ++ word ++ "; use table or json"
  | unknownOption option => "unknown option " ++ option
  | extraWord word => "unexpected argument " ++ word
  | noTraversal => "no traversal given; pass it as an argument or with --file"
  | twoTraversals => "a traversal is given twice, as an argument and with --file"
  | noConfiguration => "no configuration file given"

/-- The options and the plain words of a command line. -/
structure Words where
  form : ReportFormat
  config : Option String
  file : Option String
  plain : List String

namespace Words

/-- Options by their names, with the words they set. -/
def setOption (words : Words) (option value : String) : Except CommandFault Words :=
  if option = "--format" then
    match ReportFormat.ofName? value with
    | some form => .ok { words with form := form }
    | none => .error (.unknownForm value)
  else if option = "--config" ∨ option = "-c" then .ok { words with config := some value }
  else if option = "--file" ∨ option = "-f" then .ok { words with file := some value }
  else .error (.unknownOption option)

/-- Sort words into options and plain words. -/
def collect (words : Words) : List String → Except CommandFault Words
  | [] => .ok words
  | [word] =>
      if Text.startsWith word "-" then .error (.noValue word)
      else .ok { words with plain := words.plain ++ [word] }
  | word :: value :: rest =>
      if Text.startsWith word "-" then
        match words.setOption word value with
        | .ok words => words.collect rest
        | .error fault => .error fault
      else collect { words with plain := words.plain ++ [word] } (value :: rest)

/-- The traversal to explain. -/
def source (words : Words) : List String → Except CommandFault TextSource
  | [] =>
      match words.file with
      | some path => .ok (.file path)
      | none => .error .noTraversal
  | [text] => if words.file.isSome then .error .twoTraversals else .ok (.text text)
  | _ :: word :: _ => .error (.extraWord word)

/-- What the plain words ask. -/
def request (words : Words) : Except CommandFault Request :=
  match words.plain with
  | [] => .error .noCommand
  | "explain" :: rest => (words.source rest).map (.explain words.config)
  | ["config"] => .error .noConfiguration
  | ["config", path] => .ok (.config path)
  | "config" :: _ :: word :: _ => .error (.extraWord word)
  | word :: _ => .error (.unknownCommand word)

end Words

/-- The command of some words. -/
def Command.ofWords (words : List String) : Except CommandFault Command := do
  let words ← Words.collect ⟨.table, none, none, []⟩ words
  let request ← words.request
  pure ⟨words.form, request⟩

/-- The configuration of a text, or the one with nothing set. -/
def configOf : Option String → Result GraphConfig
  | some text => GraphConfig.ofText text
  | none => .ok .initial

/-- The answer of a request for an explanation. -/
def explainReport (form : ReportFormat) (config : Option String) (source : String) :
    Except ExplainError String :=
  match configOf config with
  | .error fault => .error (.graph fault)
  | .ok config => (explain Store.empty config source).map fun explanation => explanation.text form

/-- The answer of a request for a report on a configuration. -/
def configReport (form : ReportFormat) (config : String) : Result String := do
  let config ← GraphConfig.ofText config
  let config ← config.validate
  pure (config.report form)

end Pushdown
