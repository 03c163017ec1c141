/-
  PromptForms.CommandLine
  ───────────────────────
  **THE COMMAND LINE.**

      run [--host HOST] [--port PORT]        runs the server
      db init                                creates the tables
      worker [--workers N]                   runs a worker of the queue
      pipeline run SUBMISSION [--rerun]      runs the pipeline of one submission

  A long option may be shortened as long as it is clear, and its value may follow an
  equals sign.  Everything after `--` is an argument.  Usage errors have the exit
  code 2, a request for help has 0.

      parse          a command line as a command, or an exit code
      Command.exitCode, Server.ofSettings    what a command does
-/
import PromptForms.Number.Numeral
import PromptForms.Run.Runner
import PromptForms.Settings

namespace PromptForms.CommandLine

/-! ## §1. Words. -/

/-- An option of a command, by its long name; an option without a value is a flag. -/
structure OptionSpec where
  name : String
  hasValue : Bool
  deriving DecidableEq, Repr

/-- Every command has the option that asks for help. -/
def helpOption : OptionSpec := ⟨"--help", false⟩

/-- The short name of the help option. -/
def shortHelp : String := "-h"

/-- What a word of the command line is. -/
inductive Word where
  | argument
  | option (spec : OptionSpec) (value : Option String)
  /-- The short help option with letters right after it. -/
  | letters (more : List Char)
  | unknownOption
  | ambiguous
  deriving DecidableEq, Repr

/-- Does a text look like a negative number? -/
def looksNegative (word : String) : Bool :=
  match word.toList with
  | '-' :: rest =>
    let whole := rest.takeWhile Char.isDigit
    let after := rest.dropWhile Char.isDigit
    match after with
    | [] => !whole.isEmpty
    | '.' :: fraction => !fraction.isEmpty && fraction.all Char.isDigit
    | _ => false
  | _ => false

/-- A word before its equals sign, and what follows it. -/
def splitValue (word : String) : String × Option String :=
  let cs := word.toList
  match cs.dropWhile (· != '=') with
  | [] => (word, none)
  | _ :: value => (String.ofList (cs.takeWhile (· != '=')), some (String.ofList value))

/-- What a word is that starts with a dash and names no option in full. -/
def unclearWord (specs : List OptionSpec) (word : String) : Word :=
  let (front, value) := splitValue word
  let fallback : Word :=
    if looksNegative word || word.toList.contains ' ' then .argument else .unknownOption
  if word.startsWith "--" then
    match specs.filter fun spec => spec.name.startsWith front with
    | [] => fallback
    | [spec] => .option spec value
    | _ => .ambiguous
  else if word.startsWith shortHelp then .letters (word.toList.drop 2)
  else fallback

/-- What a word is, given the options of a command. -/
def classify (specs : List OptionSpec) (word : String) : Word :=
  let (front, value) := splitValue word
  let named (name : String) : Option OptionSpec :=
    if name = shortHelp then some helpOption else specs.find? (·.name == name)
  if !word.startsWith "-" || word = "-" then .argument
  else match named word, value, named front with
    | some spec, _, _ => .option spec none
    | none, some _, some spec => .option spec value
    | none, _, _ => unclearWord specs word

/-- Is one of the words before `--` ambiguous? -/
def anyAmbiguous (specs : List OptionSpec) (words : List String) : Bool :=
  (words.takeWhile (· != "--")).any fun word => classify specs word == .ambiguous

/-! ## §2. Commands without further commands. -/

/-- The exit code of a usage error. -/
def usage : Nat := 2

/-- The exit code of the short help option with letters right after it.  It may be repeated, and
other letters do not matter, but it takes no value and no dash. -/
def codeOfLetters (more : List Char) : Nat :=
  match more.dropWhile (· == 'h') with
  | '-' :: _ | '=' :: _ => usage
  | _ => 0

/-- What has been read of a command line. -/
structure Reading where
  /-- The values of options, the last one of each; a flag has the empty value. -/
  options : Dictionary String := []
  argument : Option String := none
  /-- Is the argument the last word so far? -/
  endsInArgument : Bool := false
  /-- Has a word been left over? -/
  leftOver : Bool := false
  deriving DecidableEq, Repr

/-- Why a command line is not carried out: its exit code. -/
abbrev Stop := Except Nat

/-- A test that the value of an option or an argument must pass. -/
abbrev Accept := (name value : String) → Bool

namespace Reading

/-- One more value of an option. -/
def withOption (r : Reading) (accept : Accept) (name value : String) : Stop Reading :=
  if accept name value then
    .ok { r with options := r.options.set name value, endsInArgument := false }
  else .error usage

/-- One more argument; at most `most` of them are wanted. -/
def withArgument (r : Reading) (accept : Accept) (most : Nat) (value : String) : Stop Reading :=
  if most = 0 || r.argument.isSome then .ok { r with leftOver := true }
  else if accept "" value then .ok { r with argument := some value, endsInArgument := true }
  else .error usage

/-- The arguments after `--`. -/
def withArguments (r : Reading) (accept : Accept) (most : Nat) (values : List String) :
    Stop Reading :=
  values.foldlM (fun (r : Reading) value => r.withArgument accept most value) r

end Reading

/-- Reads the words of a command that wants at most `most` arguments. -/
def readWords (specs : List OptionSpec) (accept : Accept) (most : Nat) (r : Reading) :
    List String → Stop Reading
  | [] => .ok r
  | "--" :: rest =>
    if rest.isEmpty && !r.endsInArgument then .ok { r with leftOver := true }
    else r.withArguments accept most rest
  | word :: rest =>
    match classify specs word with
    | .argument => do readWords specs accept most (← r.withArgument accept most word) rest
    | .ambiguous => .error usage
    | .unknownOption => readWords specs accept most { r with leftOver := true } rest
    | .letters more => .error (codeOfLetters more)
    | .option spec value =>
      if spec.hasValue then
        match value with
        | some text => do
          readWords specs accept most (← r.withOption accept spec.name text) rest
        | none =>
          match rest with
          | text :: after =>
            if classify specs text == .argument then do
              readWords specs accept most (← r.withOption accept spec.name text) after
            else .error usage
          | [] => .error usage
      else if value.isSome then .error usage
      else if spec = helpOption then .error 0
      else do readWords specs accept most (← r.withOption accept spec.name "") rest

/-- Reads a command without further commands. -/
def readCommand (specs : List OptionSpec) (accept : Accept) (most : Nat) (words : List String) :
    Stop Reading :=
  let all := helpOption :: specs
  if anyAmbiguous all words then .error usage
  else do
    let r ← readWords all accept most {} words
    if r.argument.isNone && most ≠ 0 then .error usage
    else return r

/-! ## §3. Commands. -/

/-- What a command line asks for. -/
inductive Command where
  | serve (host : Option String) (port : Option Int)
  | createTables
  | work (workers : Option Int)
  | runPipeline (submission : Int) (again : Bool)
  /-- The help of a command that lacks a further command; it has an exit code. -/
  | showHelp (code : Nat)
  deriving DecidableEq, Repr

/-- The integer that a text shows. -/
def intOf? (text : String) : Option Int :=
  match Numeral.readInt text with
  | .value i => some i
  | _ => none

/-- The value of an integer option. -/
def Reading.intOption (r : Reading) (name : String) : Option Int :=
  (r.options.lookup name).bind intOf?

/-- A command with the words that follow its name, and whether words are left over. -/
abbrev Parser := List String → Stop (Command × Bool)

/-- Finds the further command among the words and reads it; without one there is help with a
code.  Options other than the one for help are left over. -/
def choose (parsers : List (String × Parser)) (codeOfHelp : Nat) (leftOver : Bool) : Parser
  | [] => .ok (.showHelp codeOfHelp, leftOver)
  | "--" :: _ => .error usage
  | word :: rest =>
    match classify [helpOption] word with
    | .argument => match parsers.lookup word with
      | some parser => (parser rest).map fun result => (result.1, result.2 || leftOver)
      | none => .error usage
    | .option _ none => .error 0
    | .letters more => .error (codeOfLetters more)
    | .option _ (some _) | .ambiguous => .error usage
    | .unknownOption => choose parsers codeOfHelp true rest

/-- Reads `run`. -/
def parseServe : Parser := fun words => do
  let accept : Accept := fun name value => name != "--port" || (intOf? value).isSome
  let r ← readCommand [⟨"--host", true⟩, ⟨"--port", true⟩] accept 0 words
  return (.serve (r.options.lookup "--host") (r.intOption "--port"), r.leftOver)

/-- Reads `db init`. -/
def parseCreateTables : Parser := fun words => do
  let r ← readCommand [] (fun _ _ => true) 0 words
  return (.createTables, r.leftOver)

/-- Reads `worker`. -/
def parseWork : Parser := fun words => do
  let r ← readCommand [⟨"--workers", true⟩] (fun _ value => (intOf? value).isSome) 0 words
  return (.work (r.intOption "--workers"), r.leftOver)

/-- Reads `pipeline run`. -/
def parseRunPipeline : Parser := fun words => do
  let accept : Accept := fun name value => name != "" || (intOf? value).isSome
  let r ← readCommand [⟨"--rerun", false⟩] accept 1 words
  match r.argument.bind intOf? with
  | some submission => return (.runPipeline submission (r.options.hasKey "--rerun"), r.leftOver)
  | none => .error usage

/-- The commands. -/
def parsers : List (String × Parser) :=
  [("run", parseServe), ("db", choose [("init", parseCreateTables)] 0 false),
    ("worker", parseWork), ("pipeline", choose [("run", parseRunPipeline)] 0 false)]

/-- A command line as a command, or an exit code. -/
def parse (words : List String) : Stop Command := do
  let (command, leftOver) ← choose parsers 1 false words
  if leftOver then .error usage else return command

/-! ## §4. What commands do. -/

/-- How a server is started. -/
structure Server where
  target : String := "formchain.api.app:app"
  host : String
  port : Int
  reload : Bool
  logLevel : String
  deriving DecidableEq, Repr

/-- The server that a command asks for; what it leaves open is taken from the settings. -/
def Server.ofSettings (settings : Settings) (host : Option String) (port : Option Int) : Server :=
  let firstHost := (host.toList ++ [settings.host]).find? fun h => !h.isEmpty
  let firstPort := (port.toList ++ [settings.port]).find? fun p => p != 0
  { host := firstHost.getD "127.0.0.1", port := firstPort.getD 8000, reload := settings.debug
    logLevel := if settings.debug then "info" else "warning" }

/-- Runs the pipeline of a submission; the exit code tells whether the submission is
completed. -/
def runPipeline (r : Runner) (submission : Int) (again : Bool) : Job Nat := do
  match ← Job.outcome (if again then r.rerun submission else r.run submission) with
  | .ok row => return if row.status = .completed then 0 else 1
  | .error (.domain _) => return 1
  | .error failure => throw failure

end PromptForms.CommandLine
