/-
  PromptForms.Settings
  ────────────────────
  **SETTINGS.**

  Every setting has a default.  A setting may be given directly, or by an environment
  variable whose name is `FORMCHAIN_` and the name of the setting, in any case; what is
  given directly counts more.  Unknown names are ignored.

      Settings, Settings.check    the settings and how they are read
      Settings.load               direct values and the environment together
      databaseUrl, asyncDatabaseUrl, amqpUrl, logDirectory?    what follows from them
-/
import PromptForms.Schema.Scalar

namespace PromptForms

open Schema

/-! ## §1. The settings. -/

/-- The databases, by the driver that talks to them. -/
inductive DatabaseDriver where
  | sqlite | postgres | postgresAsync
  deriving DecidableEq, Repr

/-- The word for a driver. -/
def DatabaseDriver.name : DatabaseDriver → String
  | sqlite => "sqlite"
  | postgres => "postgresql+psycopg2"
  | postgresAsync => "postgresql+asyncpg"

/-- How a run starts after a submission has been accepted. -/
inductive Trigger where
  /-- In the process that answers, after the answer. -/
  | inline
  /-- In a worker, by a message. -/
  | queue
  deriving DecidableEq, Repr

/-- The word for a trigger. -/
def Trigger.name : Trigger → String
  | .inline => "inline"
  | .queue => "queue"

/-- All settings. -/
structure Settings where
  port : Int
  host : String
  rootUrl : String
  debug : Bool
  /-- None stands for a directory below the home directory. -/
  storagePath : Option String
  rabbitLogin : String
  rabbitPassword : String
  rabbitHost : String
  rabbitPort : Int
  rabbitExchange : String
  databaseDriver : DatabaseDriver
  databaseHost : String
  databasePort : Int
  databaseName : String
  databaseUser : String
  databasePassword : String
  anthropicKey : Option String
  defaultModel : String
  generationTimeout : Binary64
  generationMaxTokens : Int
  templateStrict : Bool
  trigger : Trigger
  queue : String
  workerConcurrency : Int
  logLevel : String
  logToFile : Bool
  logDir : Option String
  logRotation : String
  logRetention : String
  logFormat : Option String
  logSerialize : Bool

namespace Settings

/-! ## §2. Reading settings. -/

/-- Reads a driver. -/
def checkDriver : Json → Checked DatabaseDriver :=
  oneOf ([DatabaseDriver.sqlite, .postgres, .postgresAsync].map fun d => (d.name, d))

/-- Reads a trigger. -/
def checkTrigger : Json → Checked Trigger :=
  oneOf ([Trigger.inline, .queue].map fun t => (t.name, t))

/-- The default time for one generation, in seconds. -/
def defaultTimeout : Binary64 := (Binary64.ofInt? 120).getD .nan

/-- Reads the settings among given values. -/
def check (m : Members) : Checked Settings :=
  Settings.mk <$> m.optional "port" 8000 int <*> m.optional "host" "127.0.0.1" text <*>
    m.optional "root_url" "/" text <*> m.optional "debug" false bool <*>
    m.given "storage_path" text <*>
    m.optional "rabbitmq_login" "guest" text <*> m.optional "rabbitmq_password" "guest" text <*>
    m.optional "rabbitmq_host" "localhost" text <*> m.optional "rabbitmq_port" 5672 int <*>
    m.optional "rabbitmq_exchange" "formchain" text <*>
    m.optional "database_driver" .sqlite checkDriver <*>
    m.optional "database_host" "localhost" text <*> m.optional "database_port" 5432 int <*>
    m.optional "database_name" "formchain" text <*>
    m.optional "database_username" "postgres" text <*>
    m.optional "database_password" "postgres" text <*>
    m.nullable "anthropic_api_key" text <*>
    m.optional "generation_default_model" "claude-sonnet-4-5" text <*>
    m.optional "generation_timeout" defaultTimeout real <*>
    m.optional "generation_max_tokens" 4096 int <*>
    m.optional "template_strict" false bool <*>
    m.optional "pipeline_trigger" .inline checkTrigger <*>
    m.optional "pipeline_queue" "formchain.pipeline" text <*>
    m.optional "pipeline_worker_concurrency" 4 int <*>
    m.optional "log_level" "INFO" text <*> m.optional "log_to_file" false bool <*>
    m.nullable "log_dir" text <*> m.optional "log_rotation" "20 MB" text <*>
    m.optional "log_retention" "1 week" text <*> m.nullable "log_format" text <*>
    m.optional "log_serialize" false bool

/-- A text in lower case, as far as it is ASCII. -/
def lowered (s : String) : List Char := s.toList.map Char.toLower

/-- The front of the name of an environment variable, in lower case. -/
def environmentFront : List Char := "formchain_".toList

/-- The setting that an environment variable gives, by its name in lower case. -/
def settingName? (variableName : String) : Option String :=
  let cs := lowered variableName
  if environmentFront.isPrefixOf cs then some (String.ofList (cs.drop environmentFront.length))
  else none

/-- What the environment gives. -/
def ofEnvironment (environment : Dictionary String) : Members :=
  Dictionary.ofPairs (environment.filterMap fun pair =>
    (settingName? pair.1).map fun name => (name, .str pair.2))

/-- The settings of a process. -/
def load (direct : Members) (environment : Dictionary String) : Checked Settings :=
  check ((ofEnvironment environment).setAll direct)

/-! ## §3. What follows from them. -/

/-- The address of the database. -/
def databaseUrl (s : Settings) : String :=
  match s.databaseDriver with
  | .sqlite => s!"sqlite:///{s.databaseName}.db"
  | driver => s!"{driver.name}://{s.databaseUser}:{s.databasePassword}@" ++
      s!"{s.databaseHost}:{s.databasePort}/{s.databaseName}"

/-- The address of the database for a driver that does not block. -/
def asyncDatabaseUrl (s : Settings) : String :=
  match s.databaseDriver with
  | .sqlite => s!"sqlite+aiosqlite:///{s.databaseName}.db"
  | .postgres =>
    s.databaseUrl.replace DatabaseDriver.postgres.name DatabaseDriver.postgresAsync.name
  | .postgresAsync => s.databaseUrl

/-- The address of the message broker. -/
def amqpUrl (s : Settings) : String :=
  s!"amqp://{s.rabbitLogin}:{s.rabbitPassword}@{s.rabbitHost}:{s.rabbitPort}/"

/-- The slashes in front of a path: two stay two, more become one. -/
def rootOf (path : String) : String :=
  let slashes := (path.toList.takeWhile (· == '/')).length
  if slashes = 0 then "" else if slashes = 2 then "//" else "/"

/-- The parts of a path that count: neither empty nor a single point. -/
def partsOf (path : String) : List String :=
  (Text.pieces '/' path).filter fun part => part != "" && part != "."

/-- The path of some parts below another one. -/
def pathBelow (path : String) (more : List String) : String :=
  let shown := rootOf path ++ "/".intercalate (partsOf path ++ more)
  if shown.isEmpty then "." else shown

/-- The directory of the log files, if it does not lie below the home directory. -/
def logDirectory? (s : Settings) : Option String :=
  let own := s.logDir.getD ""
  if own.isEmpty then s.storagePath.map fun path => pathBelow path ["logs"]
  else some (pathBelow own [])

/-! ## §4. The document of the settings. -/

/-- The document of the settings together with what follows from them. -/
def toJson (s : Settings) : Json :=
  .obj ((s.storagePath.map fun path => ("storage_path", Json.str path)).toList ++
    [("port", .int s.port), ("host", .str s.host), ("root_url", .str s.rootUrl),
      ("debug", .bool s.debug), ("rabbitmq_login", .str s.rabbitLogin),
      ("rabbitmq_password", .str s.rabbitPassword), ("rabbitmq_host", .str s.rabbitHost),
      ("rabbitmq_port", .int s.rabbitPort), ("rabbitmq_exchange", .str s.rabbitExchange),
      ("database_driver", .str s.databaseDriver.name), ("database_host", .str s.databaseHost),
      ("database_port", .int s.databasePort), ("database_name", .str s.databaseName),
      ("database_username", .str s.databaseUser), ("database_password", .str s.databasePassword),
      ("anthropic_api_key", .ofOption .str s.anthropicKey),
      ("generation_default_model", .str s.defaultModel),
      ("generation_timeout", .real s.generationTimeout),
      ("generation_max_tokens", .int s.generationMaxTokens),
      ("template_strict", .bool s.templateStrict), ("pipeline_trigger", .str s.trigger.name),
      ("pipeline_queue", .str s.queue),
      ("pipeline_worker_concurrency", .int s.workerConcurrency),
      ("log_level", .str s.logLevel), ("log_to_file", .bool s.logToFile),
      ("log_dir", .ofOption .str s.logDir), ("log_rotation", .str s.logRotation),
      ("log_retention", .str s.logRetention), ("log_format", .ofOption .str s.logFormat),
      ("log_serialize", .bool s.logSerialize), ("database_url", .str s.databaseUrl),
      ("amqp_url", .str s.amqpUrl), ("async_url", .str s.asyncDatabaseUrl),
      ("log_dir_path", .ofOption .str s.logDirectory?)])

end Settings

end PromptForms
