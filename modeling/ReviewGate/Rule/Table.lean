import ReviewGate.Rule.Basic

/-! The table of rules. It is applied in order, and all that differs from one table to another is how
far the last rule looks after its anchor. -/
namespace ReviewGate

namespace Rule

/-- The line that announces the second step of an exercise. -/
def stepTwoMarker : String := "STEP 2: AFTER TESTS PASS"

/-- How far the last rule looks after its anchor when nothing is said. -/
def defaultWindow : Int := 30

def nullCheck : Rule where
  name := "null_check"
  category := .nullCheck
  patterns :=
    [[.text "//", .blanks, .text "if", .blanks, .text "(", .anything, .blanks, .text "==", .blanks,
      .text "null)"]]
  comment :=
    "Missing null check: This appears to be a commented-out null check. " ++
      "For proper error handling, uncomment this code to validate inputs before processing."
  reach := .everyLine
  comment_given := Text.isBlankText_append (by decide +kernel) _

def validation : Rule where
  name := "validation"
  category := .validation
  patterns :=
    [[.text "//", .blanks, .text "if", .blanks, .text "(!", .anything, .text ".IsValid"],
      [.text "//", .blanks, .text "validator.Validate"]]
  comment :=
    "Missing input validation: This commented code contains important input validation logic. " ++
      "Uncomment it to ensure proper validation of inputs."
  reach := .everyLine
  comment_given := Text.isBlankText_append (by decide +kernel) _

def documentationMarker : Rule where
  name := "documentation_marker"
  category := .documentation
  patterns := [[.text "Uncomment for DOCUMENTATION issue"]]
  comment :=
    "Missing documentation: XML documentation is required for public methods and classes. " ++
      "Uncomment the documentation comments."
  reach := .everyLine
  comment_given := Text.isBlankText_append (by decide +kernel) _

def documentationBlock : Rule where
  name := "documentation_block"
  category := .documentation
  patterns := [[.text "/*", .anything, .text "/// <summary>"]]
  comment :=
    "Missing documentation: XML documentation is block-commented. " ++
      "Uncomment this documentation block to properly document the code."
  reach := .firstLine
  comment_given := Text.isBlankText_append (by decide +kernel) _

def exceptionTry : Rule where
  name := "exception_try"
  category := .exceptionHandling
  patterns := [[.text "//", .blanks, .text "try"]]
  comment :=
    "Missing exception handling: Uncomment this try block to properly handle exceptions."
  reach := .everyLine
  comment_given := by decide +kernel

def exceptionCatch : Rule where
  name := "exception_catch"
  category := .exceptionHandling
  patterns := [[.text "//", .blanks, .text "catch"]]
  comment :=
    "Missing exception handling: Uncomment this catch block to properly handle exceptions."
  reach := .everyLine
  comment_given := by decide +kernel

def loggingComment : String :=
  "Missing logging: Proper logging is important for production monitoring and debugging. " ++
    "Uncomment these logging statements."

def loggingMarker : Rule where
  name := "logging_marker"
  category := .logging
  patterns := [[.text "Uncomment for LOGGING issue"]]
  comment := loggingComment
  reach := .everyLine
  comment_given := Text.isBlankText_append (by decide +kernel) _

def loggingBlock : Rule where
  name := "logging_block"
  category := .logging
  patterns := [[.text "/*", .anything, .text "_logger.Log"]]
  comment := loggingComment
  reach := .everyLine
  comment_given := Text.isBlankText_append (by decide +kernel) _

def stepTwoBlock (window : Int) : Rule where
  name := "step2_block"
  category := .stepTwoBlock
  patterns := [[.text "/*"]]
  comment :=
    "Code quality issues in STEP 2: There are block-commented sections in STEP 2 that should be " ++
      "uncommented. These may include logging and documentation."
  reach := .window stepTwoMarker window
  comment_given := Text.isBlankText_append (by decide +kernel) _

end Rule

/-- The rules that look at single lines, in the order in which they are applied. -/
def lineRules : List Rule :=
  [Rule.nullCheck, Rule.validation, Rule.documentationMarker, Rule.documentationBlock,
    Rule.exceptionTry, Rule.exceptionCatch, Rule.loggingMarker, Rule.loggingBlock]

/-- All rules in the order in which they are applied. -/
def ruleTable (window : Int) : List Rule :=
  lineRules ++ [Rule.stepTwoBlock window]

/-- The table for a window that has at least one line. -/
def buildRules (window : Int) : Except Refusal (List Rule) :=
  if window ≤ 0 then .error .windowNotPositive else .ok (ruleTable window)

end ReviewGate
