import ReviewGate.Value.Basic
import ReviewGate.Number.Shortest
import ReviewGate.Text.Quoted

/-! Values as messages show them: texts are quoted inside other values and stand as they are
alone. -/
namespace ReviewGate

/-- A span of time in seconds as the call that would make it: the whole days, which may be fewer than
none, and the seconds beyond them. -/
def Timestamp.spanText (seconds : Int) : String :=
  let part (name : String) (n : Int) : List String :=
    if n = 0 then [] else [name ++ "=" ++ Number.intText n]
  let parts := part "days" (seconds.fdiv 86400) ++ part "seconds" (seconds.fmod 86400)
  "datetime.timedelta(" ++ (if parts.isEmpty then "0" else Text.join ", " parts) ++ ")"

/-- The distance from universal time inside a shown time. -/
def Timestamp.zoneText (offset : Int) : String :=
  if offset = 0 then "datetime.timezone.utc" else "datetime.timezone(" ++ spanText offset ++ ")"

/-- A time as the call that would make it; seconds and smaller parts are left out from the end while
they are zero. -/
def Timestamp.quoted (t : Timestamp) : String :=
  let small := if t.microsecond = 0 then (if t.second = 0 then [] else [t.second])
    else [t.second, t.microsecond]
  let numbers := [t.year, t.month, t.day, t.hour, t.minute] ++ small
  let zone :=
    match t.offset with
    | none => []
    | some offset => ["tzinfo=" ++ zoneText offset]
  "datetime.datetime(" ++ Text.join ", " (numbers.map toString ++ zone) ++ ")"

namespace Value

def scalarText : Value → String
  | .null => "None"
  | .bool b => if b then "True" else "False"
  | .int n => Number.intText n
  | .float x => Number.floatText x
  | .str s => Text.quoted s
  | .bytes content => Text.quotedBytes content
  | .date y m d => "datetime.date(" ++ Text.join ", " ([y, m, d].map toString) ++ ")"
  | .time t => t.quoted
  | .loop isMap => if isMap then "\x7b...\x7d" else "[...]"
  | _ => ""

mutual

/-- A value as it is shown inside another one. -/
def quoted : Value → String
  | .list items => "[" ++ Text.join ", " (quotedItems items) ++ "]"
  | .tuple items =>
    match quotedItems items with
    | [item] => "(" ++ item ++ ",)"
    | texts => "(" ++ Text.join ", " texts ++ ")"
  | .set items =>
    match quotedItems items with
    | [] => "set()"
    | texts => "\x7b" ++ Text.join ", " texts ++ "\x7d"
  | .map entries => "\x7b" ++ Text.join ", " (quotedEntries entries) ++ "\x7d"
  | .null => scalarText .null
  | .bool b => scalarText (.bool b)
  | .int n => scalarText (.int n)
  | .float x => scalarText (.float x)
  | .str s => scalarText (.str s)
  | .bytes content => scalarText (.bytes content)
  | .date y m d => scalarText (.date y m d)
  | .time t => scalarText (.time t)
  | .loop isMap => scalarText (.loop isMap)

def quotedItems : List Value → List String
  | [] => []
  | v :: items => v.quoted :: quotedItems items

def quotedEntries : List (Value × Value) → List String
  | [] => []
  | (k, v) :: entries => (k.quoted ++ ": " ++ v.quoted) :: quotedEntries entries

end

/-- A value as it is shown alone. -/
def text : Value → String
  | .str s => s
  | .date y m d => Calendar.dateText y m d
  | .time t => t.text
  | v => v.quoted

end Value

end ReviewGate
