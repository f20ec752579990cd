import ReviewGate.Fault

/-! Repositories of the forge, and what in them a request is about. -/
namespace ReviewGate.Forge

/-- A repository with its owner. -/
structure Repository where
  owner : String
  name : String
  deriving DecidableEq

namespace Repository

/-- Owner and name stand on the two sides of the first slash. -/
def ofValue (v : Value) : Except Fault Repository :=
  match Value.isIn (.str "/") v with
  | .error m => .error (.misuse m)
  | .ok false => .error (.refused .repositoryForm)
  | .ok true =>
    match v with
    | .str s =>
      match Text.cut? '/' s.toList with
      | some (owner, name) => .ok ⟨String.ofList owner, String.ofList name⟩
      | none => .error (.refused .repositoryForm)
    | v => .error (.misuse (.noAttribute v.kind "split"))

/-- The way to a repository. -/
def path (r : Repository) : String :=
  "/repos/" ++ r.owner ++ "/" ++ r.name

/-- A repository as the log shows it. -/
def text (r : Repository) : String :=
  r.owner ++ "/" ++ r.name

end Repository

/-- What a request is about. Numbers are taken as the forge gives them. -/
inductive Endpoint where
  | run (id : Value)
  | pulls
  | comments (issue : Value)
  | comment (id : Value)
  | reviews (pull : Value)
  | issues

/-- The way to an endpoint from its repository. -/
def Endpoint.path : Endpoint → String
  | .run id => "/actions/runs/" ++ id.text
  | .pulls => "/pulls"
  | .comments issue => "/issues/" ++ issue.text ++ "/comments"
  | .comment id => "/issues/comments/" ++ id.text
  | .reviews pull => "/pulls/" ++ pull.text ++ "/reviews"
  | .issues => "/issues"

end ReviewGate.Forge
