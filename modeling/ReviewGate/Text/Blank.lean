/-! The blank characters, and texts with the blanks at their ends removed. -/
namespace ReviewGate.Text

/-- The characters that count as blank: the white space of all scripts together with the four
separators of the control range. -/
def isBlank (c : Char) : Bool :=
  (9 ≤ c.toNat && c.toNat ≤ 13) || (28 ≤ c.toNat && c.toNat ≤ 32) ||
    c.toNat == 0x85 || c.toNat == 0xA0 || c.toNat == 0x1680 ||
    (0x2000 ≤ c.toNat && c.toNat ≤ 0x200A) ||
    c.toNat == 0x2028 || c.toNat == 0x2029 || c.toNat == 0x202F || c.toNat == 0x205F ||
    c.toNat == 0x3000

def dropBlankStart (cs : List Char) : List Char :=
  cs.dropWhile isBlank

/-- The characters up to the last one that is not blank. -/
def dropBlankEnd : List Char → List Char
  | [] => []
  | c :: rest =>
    match dropBlankEnd rest with
    | [] => if isBlank c then [] else [c]
    | kept => c :: kept

def stripChars (cs : List Char) : List Char :=
  dropBlankEnd (dropBlankStart cs)

/-- A text without the blanks at its two ends. -/
def strip (s : String) : String :=
  String.ofList (stripChars s.toList)

/-- A text without the blanks at its end. -/
def stripEnd (s : String) : String :=
  String.ofList (dropBlankEnd s.toList)

/-- Whether a text is empty or holds blanks only. -/
def isBlankText (s : String) : Bool :=
  s.toList.all isBlank

/-- A text is not blank if its first part is not. -/
theorem isBlankText_append {s : String} (h : isBlankText s = false) (t : String) :
    isBlankText (s ++ t) = false := by
  rw [isBlankText, String.toList_append, List.all_append, show s.toList.all isBlank = false from h]
  rfl

end ReviewGate.Text
