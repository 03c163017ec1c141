/-
  PromptForms.Main
  ────────────────
  **THE PROGRAM.**

  The program reads its command line and carries the command out.  The server takes
  requests from standard input, one document a line, and writes one answer a line; what
  it stores lives as long as the process, and so does its clock.  No generator has a key
  here, so every step of a pipeline fails with the reason.

      serveLine    one request and its answer, and what the world is afterwards
      main         the program
-/
import PromptForms.CommandLine
import PromptForms.Generation.Messages
import PromptForms.Web.Dispatch

namespace PromptForms

/-! ## §1. Surroundings. -/

/-- A generator without a key, and nothing that happens between statements. -/
def keyless : Plan.Surroundings Unit :=
  { answer := fun _ w s => (Generation.Client.withoutKey, w, s)
    react := fun _ w s => (w, s) }

/-- A world in which nothing has happened. -/
def freshWorld : World := { tokens := fun k => s!"form-{k + 1}" }

/-- The runner that settings describe. -/
def runnerOf (settings : Settings) : Runner :=
  { process := 0
    executor :=
      { defaultModel := settings.defaultModel, timeout := .real settings.generationTimeout
        mode := if settings.templateStrict then .strict else .lenient } }

/-! ## §2. The server. -/

/-- A text member of a document. -/
def textMember (document : Json) (name default : String) : String :=
  match document.get? name with
  | some (.str s) => s
  | _ => default

/-- A request from its document: the method, the path, and the body as a document. -/
def requestOf (document : Json) : Web.HttpRequest :=
  { method := textMember document "method" "GET", target := textMember document "path" "/"
    headers := [("content-type", "application/json")]
    body := ((document.get? "body").map Json.write).getD "" }

/-- The document of an outcome. -/
def outcomeDocument : Except Failure Web.Answer → Json
  | .ok a => .obj [("status", .int a.status), ("body", a.body.getD .null)]
  | .error failure => failure.toJson

/-- One request and its answer; runs that it leaves are carried out before the next one. -/
def serveLine (trigger : Trigger) (r : Runner) (line : String) (w : World) : String × World :=
  match Json.read line with
  | .error _ => ((outcomeDocument (.ok (.detail 400 "no document"))).write, w)
  | .ok document =>
    let (outcome, w, _) := (Web.serve trigger r (requestOf document)).run keyless w ()
    ((outcomeDocument outcome).write, w)

/-- Answers requests until the input ends. -/
partial def serve (trigger : Trigger) (r : Runner) (input output : IO.FS.Stream) (w : World) :
    IO Unit := do
  let line ← input.getLine
  if line.isEmpty then return
  let milliseconds ← IO.monoMsNow
  let (answer, w) := serveLine trigger r line { w with now := ⟨(milliseconds : Int) * 1000⟩ }
  output.putStrLn answer
  output.flush
  serve trigger r input output w

/-! ## §3. Commands. -/

/-- Carries out a command; the answer is its exit code. -/
def carryOut (settings : Settings) : CommandLine.Command → IO UInt32
  | .showHelp code => do
    IO.println "usage: run | db init | worker | pipeline run SUBMISSION"
    return UInt32.ofNat code
  | .createTables => return 0
  | .work _ => return 0
  | .serve .. => do
    serve settings.trigger (runnerOf settings) (← IO.getStdin) (← IO.getStdout) freshWorld
    return 0
  | .runPipeline submission again =>
    let job := CommandLine.runPipeline (runnerOf settings) submission again
    match job.run.run keyless freshWorld () with
    | (.ok code, _, _) => return UInt32.ofNat code
    | (.error _, _, _) => return 1

end PromptForms

/-- The program. -/
def main (words : List String) : IO UInt32 :=
  match PromptForms.CommandLine.parse words, (PromptForms.Settings.check []).orFail with
  | .error code, _ => return UInt32.ofNat code
  | .ok command, .ok settings => PromptForms.carryOut settings command
  | .ok _, .error _ => return 1
