/-! Powers of two and of ten. -/
namespace ReviewGate.Number

def twoTo (n : Nat) : Nat := Nat.pow 2 n

def tenTo (n : Nat) : Nat := Nat.pow 10 n

end ReviewGate.Number
