import ReviewGate.Forge.Wire
import ReviewGate.Text.Capital

/-! How a session repeats requests on its own. A reply with which the forge says that it is out of order, or
that the request is to come again later, is not passed on while the request may be repeated, which does no
harm for some methods. -/
namespace ReviewGate.Forge.Retry

/-- How often a request is repeated at most. -/
def limit : Nat := 3

/-- The statuses with which the forge says that it is out of order. -/
def statuses : List Int := [500, 502, 503, 504]

/-- The statuses with which the forge may say when a request is to come again. -/
def laterStatuses : List Int := [413, 429, 503]

def laterHeader : String := "Retry-After"

/-- The methods of requests that may be sent again. -/
def methods : List String := ["DELETE", "GET", "HEAD", "OPTIONS", "PUT", "TRACE"]

def mayRepeat (method : String) : Bool :=
  methods.contains (Text.capitals method)

/-- Whether a request is repeated for the status of its reply alone. -/
def applies (method : String) (status : Int) : Bool :=
  mayRepeat method && statuses.contains status

/-- Whether a reply says when its request is to come again. -/
def isLater (q : Request) (r : Reply) : Bool :=
  mayRepeat q.method && laterStatuses.contains r.status && (r.header? laterHeader).getD "" != ""

/-- What is said of a request that has been repeated often enough. -/
def exhausted (status : Int) : Outcome :=
  .broken ("too many " ++ Number.intText status ++ " error responses")

/-- What comes of a request in a session. -/
abbrev Attempt := Request → Answer × Network

/-- The answer to a request that is repeated after another answer. -/
def again (before : Answer) (more : Answer × Network) : Answer × Network :=
  (⟨more.1.outcome, before.elapsed + more.1.elapsed⟩, more.2)

/-- A session on what is at the other end of the wire, and what comes in it of a request that may still be
repeated a number of times. Where the wire breaks, it does so for good. -/
def onWire : Network → Network × (Nat → Attempt)
  | .down => (.down, fun _ q => (Network.down.answer q, .down))
  | .up answer next =>
    let attempt (repeats : Nat) : Attempt := fun q =>
      let a := answer q
      let rest := onWire (next q)
      match a.outcome, repeats with
      | .broken _, _ => (a, rest.1)
      | .reply r, 0 =>
        if applies q.method r.status then (⟨exhausted r.status, a.elapsed⟩, rest.1) else (a, rest.1)
      | .reply r, repeats + 1 =>
        if applies q.method r.status || isLater q r then again a (rest.2 repeats q) else (a, rest.1)
    (.up (fun q => (attempt limit q).1) fun q => (attempt limit q).2, attempt)

/-- The network as a session shows it. -/
def session (wire : Network) : Network :=
  (onWire wire).1

end ReviewGate.Forge.Retry
