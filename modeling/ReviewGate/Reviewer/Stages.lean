import ReviewGate.Changes
import ReviewGate.Posting.Review
import ReviewGate.Reviewer.Basic
import ReviewGate.TestGate

/-! The stages of a review: running the tests, analysing the change and storing the review, and posting
the stored review. -/
namespace ReviewGate

/-- Which files to analyse: those at the given paths in a checkout or, without paths, those that differ
between two commits. -/
structure ChangeSelection where
  checkout : String
  paths : Option (List String)
  base : Option String
  head : Option String

/-- What came of an analysis: the review, the result unless the tests failed, and the files that were
written. -/
structure Analysis where
  payload : Payload
  result : Option AnalysisResult
  written : List Path

namespace Reviewer

/-- Runs the tests and keeps the outcome. -/
def runTests (r : Reviewer) : Job Bool := do
  let s := r.settings.tests
  let passed ← TestGate.runTests s.command s.directory none
  let _ ← TestGate.writeResults (← Job.use (Settings.pathOf s.resultsFile)) passed
  return passed

/-- A commit that must be named. -/
def commit (name : Option String) : Job String := do
  match name with
  | some c => if c = "" then Job.refuse .noCommits else return c
  | none => Job.refuse .noCommits

/-- The files to analyse. -/
def collect (r : Reviewer) (change : ChangeSelection) : Job (List ChangedFile) := do
  let checkout ← Job.use (Checkout.make change.checkout r.settings.analysis.extensions)
  match change.paths with
  | some paths => checkout.loadFiles (checkout.select paths)
  | none =>
    let base ← commit change.base
    let head ← commit change.head
    let files ← checkout.collect base head
    if files.isEmpty then Job.log .warning source "No changed files to analyze"
    return files

/-- Stores the review of a change whose tests failed. -/
def rejectUntested (r : Reviewer) (number : Option Int) : Job Analysis := do
  let written ← Artifacts.write r.store .failingTests none number
  return ⟨.failingTests, none, written⟩

/-- Analyses a change whose tests passed, and stores its review. -/
def analyzeChange (r : Reviewer) (change : ChangeSelection) (number : Option Int) : Job Analysis := do
  let files ← r.collect change
  let result ← r.analyze files
  let payload ← judge result
  let written ← Artifacts.write r.store payload (some result) number
  Job.log .info source ("Analysis stage completed: " ++ payload.verdict.name ++ " (0.00s)")
  return ⟨payload, some result, written⟩

/-- Stores the review of a change. -/
def runAnalysis (r : Reviewer) (testsPassed : Bool) (change : ChangeSelection)
    (number : Option Int) : Job Analysis :=
  if testsPassed then r.analyzeChange change number else r.rejectUntested number

/-- The stored review. -/
def readStored (r : Reviewer) : Job StoredReview := do
  match ← Job.catching Fault.isArtifact (Artifacts.read r.store) with
  | .ok review => return review
  | .error e =>
    Job.log .error source ("Cannot post review: " ++ e.message)
    throw e

/-- The given client, or one with the settings, which must then have a token. -/
def clientFor (r : Reviewer) (client : Option Forge.Client) : Job Forge.Client := do
  let s := r.settings.forge
  match client with
  | some c => return c
  | none =>
    if !s.token.isGiven then Job.refuse .noTokenForPosting
    Forge.Client.connect s.token s.baseUrl s.timeout

/-- Posts the stored review. -/
def runPosting (r : Reviewer) (client : Option Forge.Client) (run number : Option Int)
    (details : Option String) : Job Posting := do
  if !r.settings.forge.repository.isGiven then Job.refuse .noRepositoryForPosting
  let review ← r.readStored
  let c ← r.clientFor client
  let s := r.settings.artifacts
  let poster ← Job.ofExcept (Poster.make c r.settings.forge.repository s.marker s.recreate)
  poster.post review run number details

end Reviewer

end ReviewGate
