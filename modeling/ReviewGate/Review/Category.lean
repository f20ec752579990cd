/-! The kinds of disabled code that a review looks for. -/
namespace ReviewGate

/-- What a piece of disabled code would have done. -/
inductive Category where
  | nullCheck
  | validation
  | documentation
  | exceptionHandling
  | logging
  | stepTwoBlock
  deriving DecidableEq

namespace Category

def all : List Category :=
  [nullCheck, validation, documentation, exceptionHandling, logging, stepTwoBlock]

def name : Category → String
  | nullCheck => "null_check"
  | validation => "validation"
  | documentation => "documentation"
  | exceptionHandling => "exception_handling"
  | logging => "logging"
  | stepTwoBlock => "step2_block"

def ofName? (s : String) : Option Category :=
  all.find? fun c => c.name == s

/-- The categories that a summary shows for a finding of this one. A block of the second step may
hide documentation as well as logging, so it counts for both. -/
def flagged : Category → List Category
  | stepTwoBlock => [documentation, logging]
  | c => [c]

/-- The categories of a summary, in the order in which it lists them. -/
def summaryOrder : List Category :=
  [nullCheck, validation, documentation, exceptionHandling, logging]

end Category

end ReviewGate
