import ReviewGate.Pool
import ReviewGate.Review.Result
import ReviewGate.Rule.Table

/-! Scanning files: the findings of a table of rules in one file, and in a list of files, which workers may
share among themselves. -/
namespace ReviewGate

/-- The finding of a rule in a line. -/
def Rule.findingAt (r : Rule) (path : String) (line : Nat) : Option Finding :=
  if h : 0 < line then some ⟨path, line, r.category, r.comment, h, r.comment_given⟩ else none

/-- The findings of one rule in a file, from the top down. -/
def Rule.scan (r : Rule) (file : ChangedFile) : List Finding :=
  (r.matchLines file.lines).filterMap (r.findingAt file.path)

/-- The findings in a file, rule by rule. -/
def scan (rules : List Rule) (file : ChangedFile) : List Finding :=
  rules.flatMap (·.scan file)

/-- The findings in each of some files. -/
def scanEach (rules : List Rule) (files : List ChangedFile) : List (ChangedFile × List Finding) :=
  files.map fun f => (f, scan rules f)

/-- All findings together, file by file. -/
def AnalysisResult.ofScans (scans : List (ChangedFile × List Finding)) : AnalysisResult :=
  ⟨scans.flatMap Prod.snd, scans.length⟩

/-- The findings in files, file by file. -/
def aggregate (rules : List Rule) (files : List ChangedFile) : AnalysisResult :=
  .ofScans (scanEach rules files)

/-- Who scans files: how many workers there are, and what happens among them. -/
structure Crew where
  workers : Nat
  events : List Pool.Event

namespace Crew

/-- The findings in each of some files. Neither a single worker nor a single file needs a pool. -/
def scanAll (c : Crew) (rules : List Rule) (files : List ChangedFile) : List (List Finding) :=
  if c.workers = 1 ∨ files.length ≤ 1 then files.map (scan rules)
  else Pool.share c.workers c.events (scan rules) files

/-- The findings that a crew makes in each of some files. -/
def scanEach (c : Crew) (rules : List Rule) (files : List ChangedFile) :
    List (ChangedFile × List Finding) :=
  files.zip (c.scanAll rules files)

/-- The findings that a crew makes in files, file by file. -/
def aggregate (c : Crew) (rules : List Rule) (files : List ChangedFile) : AnalysisResult :=
  .ofScans (c.scanEach rules files)

end Crew

end ReviewGate
