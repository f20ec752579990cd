import ReviewGate.Forge.Endpoint
import ReviewGate.Json.Reader
import ReviewGate.Runner

/-! Talking to the forge: requests go out as long as the budget allows, every reply sets the budget
anew, and a reply that is a refusal is a fault. -/
namespace ReviewGate.Forge

def source : String := "code_review_trainer.github.client"

/-- How many things the forge lists at once. -/
def pageSize : Nat := 100

/-- How the forge is reached, and who is asking. -/
structure Client where
  token : Value
  baseUrl : String
  timeout : Value

namespace Client

/-- An address without the slashes at its end. -/
def baseOf : Value → Except Misuse String
  | .str s => .ok (Text.dropTrailing '/' s)
  | .bytes _ => .error .bytesNeeded
  | v => .error (.noAttribute v.kind "rstrip")

def make (token baseUrl timeout : Value) : Except Fault Client :=
  if !token.isGiven then .error (.refused .noToken)
  else
    match baseOf baseUrl with
    | .ok base => .ok ⟨token, base, timeout⟩
    | .error m => .error (.misuse m)

/-- A new client, with the budget of a new client. -/
def connect (token baseUrl timeout : Value) : Job Client := do
  let c ← Job.ofExcept (make token baseUrl timeout)
  modify fun s => { s with budget := .initial s.now }
  return c

/-- What is sent along with every request. -/
def headers (c : Client) : List (String × String) :=
  [("Authorization", "token " ++ c.token.text), ("Accept", "application/vnd.github.v3+json"),
    ("User-Agent", "Code-Review-Trainer/1.0")]

/-- A request without parameters and content. -/
def request (c : Client) (method path : String) : Request :=
  ⟨method, c.baseUrl ++ "/" ++ Text.dropLeading '/' path, c.timeout, none, none⟩

/-- A request about something in a repository. -/
def requestFor (c : Client) (r : Repository) (method : String) (e : Endpoint) : Request :=
  c.request method (r.path ++ e.path)

end Client

/-! ### The budget -/

def remainingHeader : String := "X-RateLimit-Remaining"

def resetHeader : String := "X-RateLimit-Reset"

/-- Refuses to go on while the budget is low. -/
def holdBack : Job Unit := do
  let s ← get
  if s.budget.isLow s.now then
    Job.log .warning source
      ("Rate limit low (" ++ Number.intText s.budget.remaining ++ "), resets in " ++
        Number.intText (s.budget.reset - s.now) ++ ".0s")
    throw (.rateLimited s.budget.reset)

/-- Refuses a time whose year is not in the calendar; the year is shown as a number of 32 bits. -/
def checkYear (seconds : Int) : Except Fault Unit :=
  let (year, _, _) := Calendar.dateOfDays (seconds.fdiv 86400)
  if 1 ≤ year && year ≤ 9999 then .ok ()
  else if -Number.twoTo 31 ≤ year - 1900 && year - 1900 < Number.twoTo 31 then
    .error (.refused (.time (.year (year.bmod (Number.twoTo 32)))))
  else .error .clockTooLarge

/-- A number of seconds that is a time: it has 64 bits, and both it and the time a day before it are in
the calendar. -/
def checkTime (seconds : Int) : Except Fault Int :=
  if seconds < -Number.twoTo 63 || Number.twoTo 63 ≤ seconds then .error .clockOverflow
  else do
    checkYear seconds
    checkYear (seconds - 86400)
    return seconds

/-- The whole number in a header, if the reply has it. -/
def headerNumber (r : Reply) (name : String) : Except Fault (Option Int) :=
  match r.header? name with
  | none => .ok none
  | some text => ((Number.readInt text).mapError .integer).map some

/-- Sets the budget to what a reply says about it: first what remains, then the time of the reset. -/
def noteBudget (r : Reply) : Job Unit := do
  match ← Job.ofExcept (headerNumber r remainingHeader) with
  | none => pure ()
  | some n => modify fun s => { s with budget := { s.budget with remaining := n } }
  match ← Job.ofExcept (headerNumber r resetHeader) with
  | none => pure ()
  | some n =>
    let time ← Job.ofExcept (checkTime n)
    modify fun s => { s with budget := { s.budget with reset := time } }

/-! ### Requests and replies -/

/-- Hands a request to the session of the client and waits for what comes of it in the end: the session
repeats some requests on its own. -/
def transmit (r : Request) : Job Outcome := fun s =>
  let a := s.network.answer r
  (.ok a.outcome,
    { s with network := s.network.next r, now := s.now + a.elapsed, requests := s.requests ++ [r] })

/-- The value in the body of a reply. -/
def Reply.json (r : Reply) : Except Fault Value :=
  match Json.read r.room r.body with
  | .ok v => .ok v
  | .error (.malformed m) => .error (.notJson m)
  | .error (.number f) => .error (.integer f)
  | .error (.tooDeep b) => .error (.tooDeep b)

/-- The seconds to wait after a refusal that does not say for how long it holds. -/
def patience : Int := 3600

/-- The time until which a refusal holds, the budget being set to what it says. -/
def resetOf (r : Reply) : Job Int := do
  let s ← get
  return if (r.header? resetHeader).isSome then s.budget.reset else s.now + patience

/-- The reply, unless it is a refusal. -/
def accept (r : Reply) : Job Reply := do
  if r.status = 429 then throw (.rateLimited (← resetOf r))
  else if r.isOk then return r
  else
    let data ← if r.body = "" then pure (.map []) else Job.ofExcept r.json
    let description ← Job.use (data.getOr "message" (.str "Unknown error"))
    throw (.answer r.status data description)

/-- Sends a request: the reply, if there is one and it is not a refusal. -/
def send (r : Request) : Job Reply := do
  holdBack
  match ← transmit r with
  | .broken description =>
    Job.log .error source ("Request failed: " ++ description)
    throw (.transport description)
  | .reply reply =>
    noteBudget reply
    accept reply

/-- Sends a request for a value. -/
def ask (r : Request) : Job Value := do
  Job.ofExcept (← send r).json

end ReviewGate.Forge
