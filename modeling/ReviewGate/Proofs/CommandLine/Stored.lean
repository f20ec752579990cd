import ReviewGate.Proofs.Artifacts.Beside
import ReviewGate.Proofs.CommandLine.Analyze

/-! What the command that analyses a change stores can be read by the command that posts it, except for
the number of a pull request that is not positive: it is stored and refused. -/
namespace ReviewGate

variable {s t m n : Runner}

/-- Whether the log file, if there is one, is that of the settings. -/
def Journal.IsOf (j : Journal) (settings : Settings) : Prop :=
  ∀ layout f, j.file = some (layout, f) → settings.log.file.isGiven = true ∧
    ∃ path, Settings.pathOf settings.log.file = .ok path ∧ f.path = Settings.direct path

namespace Settings

variable {settings : Settings}

end Settings

namespace Artifacts

variable {directory : Path} {number : Option Int}

/-- Whether a review that is stored in a directory can be read from it: the log spares the files that are
checked, and those of them that not every review has are not there. -/
structure Awaits (directory : Path) (s : Runner) : Prop where
  hasLog : s.HasLog
  spared : SparesChecked directory s.journal
  noComments : s.shelf directory commentsFile = none
  noNumber : s.shelf directory pullRequestFile = none

theorem Awaits.of_onlyLogs (h : Awaits directory s) (honly : s.OnlyLogs t) (hlog : s.KeepsLog t) :
    Awaits directory t where
  hasLog := hlog h.hasLog
  spared := honly.journal ▸ h.spared
  noComments := honly.files.vacant _ (h.spared _ (by decide)) h.noComments
  noNumber := honly.files.vacant _ (h.spared _ (by decide)) h.noNumber

theorem Awaits.holds (h : Awaits directory s) {payload : Payload} {result : Option AnalysisResult}
    (hpaths : result.isSome → ∀ f ∈ payload.comments, Text.isBlankText f.path = false)
    {written : List Path} (hwrite : write directory payload result number s = (.ok written, t)) :
    t.journal = s.journal ∧ t.HasLog ∧ Holds directory number t :=
  holds_of_write h.hasLog h.spared h.noComments h.noNumber hpaths hwrite

end Artifacts

namespace Reviewer

variable {r : Reviewer} {change : ChangeSelection} {number : Option Int} {a : Analysis}

end Reviewer

namespace CommandLine

variable {env : Settings.Environment} {config : Option String} {settings : Settings} {r : Reviewer}
  {gate : Option Bool} {change : ChangeSelection} {number : Option Int} {store : Path}

end CommandLine

end ReviewGate
