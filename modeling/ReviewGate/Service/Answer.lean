import ReviewGate.AnalysisRequest
import ReviewGate.Json.Encoded
import ReviewGate.Reviewer.Basic
import ReviewGate.Service.Target

/-! The analysis as a service: a request with files is answered with their review. No answer depends on
an earlier request. -/
namespace ReviewGate.Service

def source : String := "code_review_trainer.server"

structure Request where
  method : String
  target : String
  contentType : String
  body : List UInt8

/-- An answer: its status and the value that it holds, if it holds one. -/
structure Response where
  status : Nat
  json : Option Value

/-- What can be asked for: whether the service is there, an analysis, and the files that belong to the
service, of which there are none. -/
inductive Route where
  | health
  | analyze
  | asset
  deriving DecidableEq

namespace Route

def methods : Route → List String
  | health => ["GET", "HEAD", "OPTIONS"]
  | analyze => ["POST", "OPTIONS"]
  | asset => ["GET", "HEAD", "OPTIONS"]

def assetsPath : String := "/static/"

/-- Whether a path leads to a file that belongs to the service. -/
def isAsset (path : String) : Bool :=
  match Text.dropStart? assetsPath.toList path.toList with
  | some (c :: _) => c != '/'
  | _ => false

def ofPath? (path : String) : Option Route :=
  if path = "/api/v1/health" then some health
  else if path = "/api/v1/analyze" then some analyze
  else if isAsset path then some asset
  else none

end Route

/-! ### Answers -/

/-- An answer without a value. -/
def bare (status : Nat) : Response := ⟨status, none⟩

def rejection (reason : String) : Response :=
  ⟨400, some (.record [("error", .str reason), ("status", .str "failed")])⟩

def healthAnswer : Value :=
  .record [("status", .str "healthy"), ("service", .str "code-review-trainer"),
    ("version", .str "1.0.0")]

/-- Whether content of a type is JSON: the type without its parameters, in letters of any case. -/
def isJson (contentType : String) : Bool :=
  let type := Text.lower (Text.strip (String.ofList (contentType.toList.takeWhile (· != ';'))))
  type == "application/json" || (Text.startsWith type "application/" && Text.endsWith type "+json")

/-- The value in the body of a request, which must be said to be JSON, and must not be nothing. -/
def valueOf? (q : Request) : Option Value :=
  if isJson q.contentType then
    match Json.readBytes q.body with
    | some .null => none
    | v => v
  else none

/-- The answer to a request for an analysis. -/
def analysisAnswer (r : Reviewer) (q : Request) : Job Response := do
  match valueOf? q with
  | none => return rejection "Request body must be JSON"
  | some v =>
    match AnalysisRequest.ofValue v with
    | .error report => return rejection report.message
    | .ok request =>
      let payload ← r.review request.changedFiles request.testsPassed
      Job.log .info source
        ("Analyzed " ++ toString request.files.length ++ " files: " ++ payload.verdict.name)
      return ⟨200, some (.record (payload.entries ++ [("status", .str "completed")]))⟩

/-- The answer to a request for something that is there. An answer to `HEAD` leaves the value out. -/
def routeAnswer (r : Reviewer) (q : Request) (route : Route) (method : String) : Job Response :=
  if !route.methods.contains method then return bare 405
  else if method = "OPTIONS" then return bare 200
  else
    match route with
    | .health => return ⟨200, some (if method = "HEAD" then .null else healthAnswer)⟩
    | .analyze => analysisAnswer r q
    | .asset => return bare 404

/-- The answer to a request for something that is not there: where a path with single slashes leads
somewhere, the sender is told so. -/
def missingAnswer (path method : String) : Response :=
  match Route.ofPath? (String.ofList (mergeSlashes path.toList)) with
  | none => bare 404
  | some route => if route.methods.contains method then bare 308 else bare 405

/-- The answer to a request, whatever happens on the way. -/
def answer (r : Reviewer) (q : Request) : Job Response := do
  let path := pathOf q.target
  let method := Text.capitals q.method
  match Route.ofPath? path with
  | none => return missingAnswer path method
  | some route =>
    match ← Job.catching (fun _ => true) (routeAnswer r q route method) with
    | .ok response => return response
    | .error _ => return bare 500

end ReviewGate.Service
