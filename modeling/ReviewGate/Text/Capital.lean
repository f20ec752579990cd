/-! Capital letters from A to Z. -/
namespace ReviewGate.Text

/-- The capital letter of a character if that is one of the letters from A to Z: the dotless and the
long small letters have such ones too. -/
def capital (c : Char) : Char :=
  if c == 'ı' then 'I' else if c == 'ſ' then 'S' else c.toUpper

/-- A text with every letter replaced that has a capital one from A to Z. -/
def capitals (s : String) : String :=
  String.ofList (s.toList.map capital)

end ReviewGate.Text
