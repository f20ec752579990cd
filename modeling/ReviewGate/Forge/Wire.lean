import ReviewGate.Json.Malformed
import ReviewGate.Text.Lowercase
import ReviewGate.Value.Basic

/-! What goes between the program and the forge, the service that holds the pull requests, as the library
shows it that sends the requests. -/
namespace ReviewGate.Forge

/-- A request, with the time that it may take in seconds. -/
structure Request where
  method : String
  url : String
  timeout : Value
  params : Option Value
  json : Option Value

/-- A reply: its status, its headers, its body, whether the library takes it for a success, and how deep
the body may be nested where it is read. A status is three digits long, and of those from 600 on, which mean
nothing, no more is known. -/
structure Reply where
  status : Int
  headers : List (String × String)
  body : String
  isOk : Bool
  room : Json.Room
  isOk_iff : status < 600 → (isOk = true ↔ status < 400)

namespace Reply

/-- A reply of which the library takes only those for failures that say so, with room for any body. -/
def of (status : Int) (headers : List (String × String)) (body : String) : Reply where
  status := status
  headers := headers
  body := body
  isOk := status < 400 || 600 ≤ status
  room := .endless
  isOk_iff h := by
    have hlow : decide (600 ≤ status) = false := decide_eq_false (by omega)
    rw [hlow, Bool.or_false, decide_eq_true_eq]

/-- The value of a header, whatever the case of its name. The headers are those of the reply as a whole: each
name has one value, in which those of repeated lines are joined, and of several spellings of a name the last
one counts. -/
def header? (r : Reply) (name : String) : Option String :=
  (r.headers.reverse.find? fun (n, _) => Text.lower n == Text.lower name).map Prod.snd

end Reply

/-- What comes of a request: a reply, or a failure on the way with a description. -/
inductive Outcome where
  | reply (r : Reply)
  | broken (description : String)

/-- What comes of a request, and the seconds that the clock moves until it does. -/
structure Answer where
  outcome : Outcome
  elapsed : Int

/-- The forge as a session of the library shows it: it is down, or it answers the next request and goes on in
a way that may depend on that request. What the library does on its own to get an answer is behind it; how a
session repeats requests is said by `Retry.session`. -/
inductive Network where
  | down
  | up (answer : Request → Answer) (next : Request → Network)

namespace Network

/-- The failure of a request that nothing answers. -/
def noAnswer : String := "no more responses"

def answer : Network → Request → Answer
  | .down, _ => ⟨.broken noAnswer, 0⟩
  | .up answer _, r => answer r

def next : Network → Request → Network
  | .down, _ => .down
  | .up _ next, r => next r

/-- The network that gives the listed answers one after the other, whatever is asked. -/
def script : List Outcome → Network
  | [] => .down
  | o :: more => .up (fun _ => ⟨o, 0⟩) fun _ => script more

end Network

/-- How many requests the forge still accepts, and when that number is set anew. The clock of the machine is
one line of time, that of UTC, in seconds. -/
structure Budget where
  remaining : Int
  reset : Int
  deriving DecidableEq

/-- The budget of a new client. -/
def Budget.initial (now : Int) : Budget := ⟨5000, now⟩

/-- At most this many requests are kept in reserve until the budget is set anew. -/
def Budget.reserve : Int := 10

/-- Whether requests must wait: the budget is used up, and the clock has not come to the time of the reset,
both being times in seconds on the one line of time. -/
def Budget.isLow (b : Budget) (now : Int) : Bool :=
  b.remaining ≤ reserve && now < b.reset

end ReviewGate.Forge
