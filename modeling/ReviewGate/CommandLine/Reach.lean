import ReviewGate.CommandLine.Run

/-! The paths of the files that a command line may read or write, known from the words and the settings
before it runs. -/
namespace ReviewGate.CommandLine

/-- The file with the settings, if one is named. -/
def settingsPaths (i : Invocation) : List Path :=
  match i.config with
  | some path => if path = "" then [] else [.ofText path]
  | none => []

/-- The path that an option gives, if it gives one. -/
def pathsIn (o : Value) : List Path :=
  (Settings.pathOf o).toOption.toList

/-- The log file and the numbered files that it is moved to. -/
def logPaths (s : LogSettings) : List Path :=
  (pathsIn s.file).flatMap fun p =>
    let file := Settings.direct p
    file :: (List.range (s.backups.asInt?.getD 0).toNat).map fun n => LogFile.numbered file (n + 1)

/-- The files of a stored review. -/
def reviewPaths (s : ArtifactSettings) : List Path :=
  (pathsIn s.directory).flatMap fun d =>
    [Artifacts.typeFile, Artifacts.bodyFile, Artifacts.messageFile, Artifacts.commentsFile,
      Artifacts.flagsFile, Artifacts.pullRequestFile].map d.child

/-- The files that a task names. -/
def namedPaths : Task → List Path
  | .analyze _ change _ =>
    (change.paths.getD []).map fun p => (Path.ofText change.checkout).follow (Text.strip p)
  | _ => []

/-- The paths that matter once there are settings. -/
def paths (s : Settings) (i : Invocation) : List Path :=
  logPaths s.log ++ reviewPaths s.artifacts ++ pathsIn s.tests.resultsFile ++ namedPaths i.task

end ReviewGate.CommandLine
