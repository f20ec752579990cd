import ReviewGate.Value.Basic

/-! When two values count as the same: numbers by the quantity that they stand for, truth values
being zero and one, and maps whatever the order of their entries. -/
namespace ReviewGate.Value

/-- Whether two values are numbers that stand for the same quantity. -/
def sameNumber : Value → Value → Bool
  | .float x, .float y => x == y
  | .float x, v =>
    match v.asInt? with
    | some n => Number.compareInt? x n == some .eq
    | none => false
  | v, .float y =>
    match v.asInt? with
    | some n => Number.compareInt? y n == some .eq
    | none => false
  | v, w =>
    match v.asInt?, w.asInt? with
    | some m, some n => m == n
    | _, _ => false

mutual

def same : Value → Value → Bool
  | .null, .null => true
  | .str a, .str b => a == b
  | .bytes a, .bytes b => a == b
  | .list xs, .list ys => sameItems xs ys
  | .tuple xs, .tuple ys => sameItems xs ys
  | .set xs, .set ys => xs.length == ys.length && subset xs ys
  | .map es, .map fs => es.length == fs.length && sameEntries es fs
  | .date y m d, .date y' m' d' => y == y' && m == m' && d == d'
  | .time t, .time t' => t == t'
  | .loop isMap, .loop isMap' => isMap == isMap'
  | v, w => sameNumber v w
termination_by structural v => v

def sameItems : List Value → List Value → Bool
  | [], [] => true
  | x :: xs, y :: ys => x.same y && sameItems xs ys
  | _, _ => false
termination_by structural xs => xs

def subset : List Value → List Value → Bool
  | [], _ => true
  | x :: xs, ys => (ys.any fun y => x.same y) && subset xs ys
termination_by structural xs => xs

def sameEntries : List (Value × Value) → List (Value × Value) → Bool
  | [], _ => true
  | (k, v) :: es, fs => (fs.any fun e => k.same e.1 && v.same e.2) && sameEntries es fs
termination_by structural es => es

end

/-- The value under a key. -/
def find? (key : Value) : List (Value × Value) → Option Value
  | [] => none
  | (k, v) :: entries => if key.same k then some v else find? key entries

/-- The entries with a value put under a key: at the place of the key if it is there already, at
the end otherwise. -/
def put (key v : Value) : List (Value × Value) → List (Value × Value)
  | [] => [(key, v)]
  | (k, old) :: entries => if key.same k then (k, v) :: entries else (k, old) :: put key v entries

/-- The entries of a list of pairs in which a later value replaces an earlier one of its key. -/
def entriesOf (pairs : List (Value × Value)) : List (Value × Value) :=
  pairs.foldl (fun entries (k, v) => put k v entries) []

/-- The items of a list without those that are the same as an earlier one. -/
def distinct (items : List Value) : List Value :=
  items.foldl (fun kept v => if kept.any v.same then kept else kept ++ [v]) []

end ReviewGate.Value
