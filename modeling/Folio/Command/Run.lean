import Folio.Command.Arguments
import Folio.Convert.Input
import Folio.Convert.Markdown
import Folio.Settings.Source

/-!
# Running the command

A run loads the settings, reads the input, converts it, and only then touches the file system. A
fault that is one of the user's input is reported in the log and ends the run with status 1; other
faults stop it.
-/

set_option autoImplicit false
set_option relaxedAutoImplicit false

namespace Folio

/-- What a command works with. -/
structure System where
  environment : Environment := []
  homes : Homes := fun _ => none
  files : FileTree
  web : Web
  package : Packager

/-- Why a run does not come to its end. -/
inductive CommandFault
  | noHome
  | settings (fault : SettingsFault)
  | input (fault : InputFault)
  | conversion (failure : Failure)
  | output (fault : OutputFault)
  deriving DecidableEq, Repr

namespace CommandFault

/-- The text that reports a fault. -/
def message : CommandFault → String
  | noHome => SettingsFault.noHome.message
  | settings fault => fault.message
  | input fault => fault.message
  | conversion failure => failure.message
  | output fault => fault.message

/-- Whether a fault is one of the user's input. -/
def isReported : CommandFault → Bool
  | noHome => false
  | settings fault => fault.isReported
  | input fault => fault.isReported
  | conversion (.conversion _ _) => true
  | conversion (.settings _) => true
  | conversion _ => false
  | output _ => false

end CommandFault

/-- What a run leaves: the log, the requests made, the files, the document if it has been saved and
where, and the status or the fault that stopped the run. -/
structure RunOutcome where
  log : List LogRecord := []
  requests : List String := []
  files : FileTree
  saved : Option (PurePath × Document) := none
  result : Except CommandFault Nat

/-- The paths of the input and of the document. -/
def System.paths (system : System) (arguments : Arguments) :
    Except CommandFault (PurePath × PurePath) :=
  match (PurePath.ofString arguments.input).expanded? system.homes with
  | none => .error .noHome
  | some input =>
    match outputPath system.files input arguments.output with
    | .error fault => .error (.output fault)
    | .ok output => .ok (input, output)

/-- What converting the input leaves, before anything is written. -/
structure Converted where
  log : List LogRecord := []
  requests : List String := []
  result : Except CommandFault Document

/-- Converts the input of a run. -/
def System.convert (system : System) (arguments : Arguments) (input output : PurePath) : Converted :=
  match Settings.load system.environment system.homes system.files arguments.config with
  | .error fault => { result := .error (.settings fault) }
  | .ok settings =>
    let reading : LogRecord := ⟨.info, "Reading " ++ input.toString⟩
    match readMarkdown system.files input with
    | .error fault => { log := [reading], result := .error (.input fault) }
    | .ok text =>
      let (s, result) := convertMarkdown
        { settings, web := system.web, files := system.files, assetRoot := some input.parent } text
      { log := [reading, ⟨.debug, "Markdown length: " ++ toString text.length ++ " chars"⟩,
          ⟨.info, "Rendering DOCX to " ++ output.toString⟩] ++ s.log
        requests := s.requests
        result := result.mapError .conversion }

/-- Runs the command. -/
def System.run (system : System) (arguments : Arguments) : RunOutcome :=
  match system.paths arguments with
  | .error fault => { files := system.files, result := .error fault }
  | .ok (input, output) =>
    let c := system.convert arguments input output
    match c.result with
    | .error fault =>
      if fault.isReported then
        { log := c.log ++ [⟨.error, fault.message⟩], requests := c.requests, files := system.files,
          result := .ok 1 }
      else
        { log := c.log, requests := c.requests, files := system.files, result := .error fault }
    | .ok document =>
      match writeOutput system.files output (system.package document) with
      | (files, some fault) =>
        { log := c.log, requests := c.requests, files, result := .error (.output fault) }
      | (files, none) =>
        { log := c.log ++ [⟨.info, "Done. Saved to " ++ output.toString⟩], requests := c.requests,
          files, saved := some (output, document), result := .ok 0 }

/-- The records of a log that are shown; debugging records only on request. -/
def shownLog (verbose : Bool) (log : List LogRecord) : List LogRecord :=
  if verbose then log else log.filter fun r => r.level ≠ .debug

/-- What a command leaves whatever it asks for. Only a run has a log. -/
def System.execute (system : System) : Command → RunOutcome
  | .help => { files := system.files, result := .ok 0 }
  | .misused => { files := system.files, result := .ok 2 }
  | .run arguments =>
    let outcome := system.run arguments
    { outcome with log := shownLog arguments.verbose outcome.log }

end Folio
