import ReviewGate.Fault
import ReviewGate.Log
import ReviewGate.Rule.Table
import ReviewGate.Text.Lowercase

/-! Settings: what they are when nothing is said, and how they are read from the environment and from
sections of options. Options are taken as they come; whether they are fit for use is checked
apart. -/
namespace ReviewGate

/-- How the forge is reached. -/
structure ForgeSettings where
  token : Value
  baseUrl : Value
  repository : Value
  timeout : Value

/-- What is analysed. -/
structure AnalysisSettings where
  extensions : Value
  window : Value
  workers : Value

/-- Where reviews are stored, and how the summary on a pull request is found and replaced. -/
structure ArtifactSettings where
  directory : Value
  marker : Value
  recreate : Value

/-- How the tests are run, and where their outcome is kept. -/
structure TestSettings where
  command : Value
  directory : Value
  resultsFile : Value

/-- What is logged, how and where. -/
structure LogSettings where
  level : Value
  layout : Value
  file : Value
  maxSize : Value
  backups : Value

structure Settings where
  forge : ForgeSettings
  analysis : AnalysisSettings
  artifacts : ArtifactSettings
  tests : TestSettings
  log : LogSettings
  debug : Value

namespace Settings

/-- Options of a section by name. -/
abbrev Options := List (String × Value)

def option (options : Options) (name : String) : Value :=
  ((options.find? fun (n, _) => n == name).map Prod.snd).getD .null

def forgeDefaults : Options :=
  [("token", .null), ("api_base_url", .str "https://api.github.com"), ("repository", .null),
    ("timeout_seconds", .int 30)]

def analysisDefaults : Options :=
  [("file_extensions", .list [.str ".cs"]), ("step2_window", .int Rule.defaultWindow),
    ("max_workers", .int 1)]

def artifactDefaults : Options :=
  [("directory", .str "artifacts"), ("sticky_marker", .str "<!-- Sticky Pull Request Comment -->"),
    ("recreate_sticky", .bool true)]

def testDefaults : Options :=
  [("command", .str "dotnet test --verbosity normal"), ("working_directory", .str "."),
    ("results_file", .str "test-results.txt")]

def logDefaults : Options :=
  [("level", .str "INFO"), ("format", .str LogLayout.standard),
    ("file_path", .null), ("max_file_size", .int 10485760), ("backup_count", .int 5)]

def forgeOf (o : Options) : ForgeSettings :=
  ⟨option o "token", option o "api_base_url", option o "repository", option o "timeout_seconds"⟩

def analysisOf (o : Options) : AnalysisSettings :=
  ⟨option o "file_extensions", option o "step2_window", option o "max_workers"⟩

def artifactsOf (o : Options) : ArtifactSettings :=
  ⟨option o "directory", option o "sticky_marker", option o "recreate_sticky"⟩

def testsOf (o : Options) : TestSettings :=
  ⟨option o "command", option o "working_directory", option o "results_file"⟩

def logOf (o : Options) : LogSettings :=
  ⟨option o "level", option o "format", option o "file_path", option o "max_file_size",
    option o "backup_count"⟩

def default : Settings where
  forge := forgeOf forgeDefaults
  analysis := analysisOf analysisDefaults
  artifacts := artifactsOf artifactDefaults
  tests := testsOf testDefaults
  log := logOf logDefaults
  debug := .bool false

/-! ### Sections -/

/-- The options of a section, given ones before the others. All keys must be texts, and options of the
named owner. -/
def readOptions (owner : String) (defaults : Options) (part : Value) : Except Misuse Options :=
  match part with
  | .map entries =>
    match entries.mapM optionOf? with
    | none => .error .optionNotText
    | some given =>
      match given.find? fun (name, _) => !(defaults.any fun (n, _) => n == name) with
      | some (name, _) => .error (.unknownOption owner name)
      | none => .ok (given ++ defaults)
  | v => .error (.notOptions owner v.kind)
where
  optionOf? : Value × Value → Option (String × Value)
    | (.str name, v) => some (name, v)
    | _ => none

/-- The value of a section, which has no options if it is left out. -/
def sectionOf (document : Value) (name : String) : Except Misuse Value :=
  document.getOr name (.map [])

/-- The settings in a document of sections. -/
def ofDocument (document : Value) : Except Misuse Settings := do
  let forge ← readOptions "GitHubConfig" forgeDefaults (← sectionOf document "github")
  let analysis ← readOptions "AnalysisConfig" analysisDefaults (← sectionOf document "analysis")
  let artifacts ← readOptions "ArtifactConfig" artifactDefaults (← sectionOf document "artifacts")
  let tests ← readOptions "TestConfig" testDefaults (← sectionOf document "tests")
  let log ← readOptions "LoggingConfig" logDefaults (← sectionOf document "logging")
  let debug ← document.getOr "debug" (.bool false)
  return ⟨forgeOf forge, analysisOf analysis, artifactsOf artifacts, testsOf tests, logOf log, debug⟩

/-! ### Environment -/

/-- The variables of an environment. -/
abbrev Environment := List (String × String)

/-- The variables that are for options. -/
def variableNames : List String :=
  ["GITHUB_TOKEN", "GITHUB_API_URL", "GITHUB_REPOSITORY", "GITHUB_TIMEOUT", "REVIEW_FILE_EXTENSIONS",
    "STEP2_WINDOW", "SCAN_WORKERS", "ARTIFACTS_DIR", "STICKY_MARKER", "RECREATE_STICKY",
    "TEST_COMMAND", "TEST_WORKDIR", "TEST_RESULTS_FILE", "LOG_LEVEL", "LOG_FORMAT", "LOG_FILE",
    "LOG_MAX_SIZE", "LOG_BACKUP_COUNT", "DEBUG"]

def setting? (env : Environment) (name : String) : Option String :=
  (env.find? fun (n, _) => n == name).map Prod.snd

/-- The text of a variable, or of the option that it is for. -/
def textIn (env : Environment) (name : String) (o : Value) : Value :=
  ((setting? env name).map Value.str).getD o

/-- The whole number in a variable, or that of the option that it is for. -/
def numberIn (env : Environment) (name : String) (o : Value) : Except Fault Value :=
  match setting? env name with
  | none => .ok o
  | some text => ((Number.readInt text).mapError .integer).map .int

/-- Whether a variable says that something holds. -/
def switchIn (env : Environment) (name : String) (o : Value) : Value :=
  match setting? env name with
  | none => o
  | some text => .bool (Text.lower text == "true")

/-- The items of a list with commas between them, without blanks around them and without the empty
ones. -/
def listItems (text : String) : List String :=
  ((Text.pieces ',' text.toList).map fun item => String.ofList (Text.stripChars item)).filter (· != "")

def listIn (env : Environment) (name : String) (o : Value) : Value :=
  match setting? env name with
  | none => o
  | some text => .list ((listItems text).map .str)

/-- The settings in an environment. -/
def ofEnvironment (env : Environment) : Except Fault Settings := do
  let s := default
  let timeout ← numberIn env "GITHUB_TIMEOUT" s.forge.timeout
  let window ← numberIn env "STEP2_WINDOW" s.analysis.window
  let workers ← numberIn env "SCAN_WORKERS" s.analysis.workers
  let maxSize ← numberIn env "LOG_MAX_SIZE" s.log.maxSize
  let backups ← numberIn env "LOG_BACKUP_COUNT" s.log.backups
  return {
    forge := {
      token := textIn env "GITHUB_TOKEN" s.forge.token
      baseUrl := textIn env "GITHUB_API_URL" s.forge.baseUrl
      repository := textIn env "GITHUB_REPOSITORY" s.forge.repository
      timeout := timeout }
    analysis := {
      extensions := listIn env "REVIEW_FILE_EXTENSIONS" s.analysis.extensions
      window := window
      workers := workers }
    artifacts := {
      directory := textIn env "ARTIFACTS_DIR" s.artifacts.directory
      marker := textIn env "STICKY_MARKER" s.artifacts.marker
      recreate := switchIn env "RECREATE_STICKY" s.artifacts.recreate }
    tests := {
      command := textIn env "TEST_COMMAND" s.tests.command
      directory := textIn env "TEST_WORKDIR" s.tests.directory
      resultsFile := textIn env "TEST_RESULTS_FILE" s.tests.resultsFile }
    log := {
      level := textIn env "LOG_LEVEL" s.log.level
      layout := textIn env "LOG_FORMAT" s.log.layout
      file := textIn env "LOG_FILE" s.log.file
      maxSize := maxSize
      backups := backups }
    debug := switchIn env "DEBUG" s.debug }

/-! ### Showing -/

/-- The settings as a document, without the token. -/
def shown (s : Settings) : Except Misuse Value := do
  let extensions ← s.analysis.extensions.items
  return .record [
    ("github", .record [("api_base_url", s.forge.baseUrl), ("repository", s.forge.repository),
      ("timeout_seconds", s.forge.timeout)]),
    ("analysis", .record [("file_extensions", .list extensions), ("step2_window", s.analysis.window),
      ("max_workers", s.analysis.workers)]),
    ("artifacts", .record [("directory", s.artifacts.directory), ("sticky_marker", s.artifacts.marker),
      ("recreate_sticky", s.artifacts.recreate)]),
    ("tests", .record [("command", s.tests.command), ("working_directory", s.tests.directory),
      ("results_file", s.tests.resultsFile)]),
    ("logging", .record [("level", s.log.level), ("format", s.log.layout), ("file_path", s.log.file),
      ("max_file_size", s.log.maxSize), ("backup_count", s.log.backups)]),
    ("debug", s.debug)]

end Settings

end ReviewGate
