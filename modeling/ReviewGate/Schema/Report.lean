import ReviewGate.Text.Search

/-! What is wrong with a value that should have been a record: one complaint for each field that does
not fit, with its place. -/
namespace ReviewGate.Schema

/-- A step towards a part of a value: to a field of a record or to an item of a list. -/
inductive Place where
  | field (name : String)
  | item (index : Nat)
  deriving DecidableEq

def Place.text : Place → String
  | .field name => name
  | .item index => toString index

/-- What is wrong with a part of a value. -/
inductive Problem where
  | missing
  | notText
  | notInteger
  | unreadableInteger
  | integerTooLong
  | fraction
  | notFinite
  | notBoolean
  | unreadableBoolean
  | notList
  | notRecord (name : String)
  | refused (reason : String)
  deriving DecidableEq

/-- The short name of a problem. -/
def Problem.code : Problem → String
  | .missing => "missing"
  | .notText => "string_type"
  | .notInteger => "int_type"
  | .unreadableInteger => "int_parsing"
  | .integerTooLong => "int_parsing_size"
  | .fraction => "int_from_float"
  | .notFinite => "finite_number"
  | .notBoolean => "bool_type"
  | .unreadableBoolean => "bool_parsing"
  | .notList => "list_type"
  | .notRecord _ => "model_type"
  | .refused _ => "value_error"

def Problem.message : Problem → String
  | .missing => "Field required"
  | .notText => "Input should be a valid string"
  | .notInteger => "Input should be a valid integer"
  | .unreadableInteger => "Input should be a valid integer, unable to parse string as an integer"
  | .integerTooLong => "Unable to parse input string as an integer, exceeded maximum size"
  | .fraction => "Input should be a valid integer, got a number with a fractional part"
  | .notFinite => "Input should be a finite number"
  | .notBoolean => "Input should be a valid boolean"
  | .unreadableBoolean => "Input should be a valid boolean, unable to interpret input"
  | .notList => "Input should be a valid list"
  | .notRecord name => "Input should be a valid dictionary or instance of " ++ name
  | .refused reason => "Value error, " ++ reason

/-- A problem and the way to it from the whole value. -/
structure Complaint where
  location : List Place
  problem : Problem
  deriving DecidableEq

/-- The complaints of a complaint one level down. -/
def Complaint.within (place : Place) (c : Complaint) : Complaint :=
  ⟨place :: c.location, c.problem⟩

def Complaint.lines (c : Complaint) : List String :=
  let detail := "  " ++ c.problem.message ++ " [type=" ++ c.problem.code ++ "]"
  match c.location with
  | [] => [detail]
  | location => [Text.join "." (location.map Place.text), detail]

/-- All complaints about a value that should have been the named record. -/
structure Report where
  record : String
  complaints : List Complaint
  deriving DecidableEq

def Report.message (r : Report) : String :=
  let count := r.complaints.length
  let title :=
    toString count ++ " validation error" ++ (if count = 1 then "" else "s") ++ " for " ++ r.record
  Text.join "\n" (title :: r.complaints.flatMap Complaint.lines)

end ReviewGate.Schema
