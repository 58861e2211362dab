namespace ScopeComplexity

structure Date where
  year : Nat
  month : Nat
  day : Nat
  deriving DecidableEq

structure TimeOfDay where
  hour : Nat
  minute : Nat
  second : Nat
  microsecond : Nat
  deriving DecidableEq

inductive Moment where
  | date (date : Date)
  | time (time : TimeOfDay)
  | dateTime (date : Date) (time : TimeOfDay) (offset : Option Int)
  deriving DecidableEq

namespace Date

def isLeap (year : Nat) : Bool := year % 4 == 0 && (year % 100 != 0 || year % 400 == 0)

def daysIn (year month : Nat) : Nat :=
  if month == 2 then if isLeap year then 29 else 28
  else if [4, 6, 9, 11].contains month then 30
  else 31

def isValid (d : Date) : Bool :=
  0 < d.year && 0 < d.month && d.month ≤ 12 && 0 < d.day && d.day ≤ daysIn d.year d.month

end Date

namespace Moment

def padded (width n : Nat) : String :=
  let digits := toString n
  String.ofList (List.replicate (width - digits.length) '0') ++ digits

def dateText (d : Date) : String :=
  padded 4 d.year ++ "-" ++ padded 2 d.month ++ "-" ++ padded 2 d.day

def timeText (t : TimeOfDay) : String :=
  padded 2 t.hour ++ ":" ++ padded 2 t.minute ++ ":" ++ padded 2 t.second
    ++ (if t.microsecond == 0 then "" else "." ++ padded 6 t.microsecond)

def offsetText (minutes : Int) : String :=
  (if minutes < 0 then "-" else "+") ++ padded 2 (minutes.natAbs / 60) ++ ":"
    ++ padded 2 (minutes.natAbs % 60)

def shown : Moment → String
  | .date d => dateText d
  | .time t => timeText t
  | .dateTime d t offset => dateText d ++ " " ++ timeText t ++ (offset.map offsetText).getD ""

def typeName : Moment → String
  | .date _ => "datetime.date"
  | .time _ => "datetime.time"
  | .dateTime .. => "datetime.datetime"

def dateArguments (d : Date) : List String := [d.year, d.month, d.day].map toString

def timeArguments (t : TimeOfDay) : List String :=
  [t.hour, t.minute].map toString
    ++ (if t.microsecond != 0 then [t.second, t.microsecond].map toString
      else if t.second != 0 then [toString t.second]
      else [])

def secondsInDay : Int := 86400

def offsetArgument (minutes : Int) : String :=
  if minutes == 0 then "datetime.timezone.utc"
  else
    let seconds := 60 * minutes
    let days := if seconds < 0 then ["days=-1"] else []
    let rest := if seconds < 0 then seconds + secondsInDay else seconds
    "datetime.timezone(datetime.timedelta(" ++ ", ".intercalate (days ++ ["seconds=" ++ toString rest])
      ++ "))"

def arguments : Moment → List String
  | .date d => dateArguments d
  | .time t => timeArguments t
  | .dateTime d t offset =>
    dateArguments d ++ timeArguments t
      ++ (offset.map fun minutes => "tzinfo=" ++ offsetArgument minutes).toList

def quoted (m : Moment) : String := m.typeName ++ "(" ++ ", ".intercalate m.arguments ++ ")"

end Moment

end ScopeComplexity
