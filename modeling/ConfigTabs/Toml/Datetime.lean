/-!
Dates and times as a TOML document writes them, and their text form.
-/
namespace ConfigTabs.Toml

structure Date where
  year : Nat
  month : Nat
  day : Nat
  deriving DecidableEq, Repr

structure Time where
  hour : Nat
  minute : Nat
  second : Nat
  /-- Nanoseconds, below one second. -/
  nanosecond : Nat := 0
  deriving DecidableEq, Repr

inductive Offset where
  /-- Universal time, written `Z`. -/
  | utc
  /-- Minutes east of universal time. -/
  | minutes (m : Int)
  deriving DecidableEq, Repr

structure Datetime where
  date : Option Date := none
  time : Option Time := none
  offset : Option Offset := none
  deriving DecidableEq, Repr

/-- `n` in at least `width` decimal digits, padded with zeros on the left. -/
def padded (width n : Nat) : String :=
  let s := toString n
  String.ofList (List.replicate (width - s.length) '0') ++ s

def Date.text (d : Date) : String :=
  padded 4 d.year ++ "-" ++ padded 2 d.month ++ "-" ++ padded 2 d.day

/-- The fraction digits of a nanosecond count, without trailing zeros. -/
def fractionDigits (ns : Nat) : String :=
  String.ofList ((padded 9 ns).toList.reverse.dropWhile (· == '0')).reverse

def Time.text (t : Time) : String :=
  padded 2 t.hour ++ ":" ++ padded 2 t.minute ++ ":" ++ padded 2 t.second ++
    (if t.nanosecond = 0 then "" else "." ++ fractionDigits t.nanosecond)

def Offset.text : Offset → String
  | .utc => "Z"
  | .minutes m =>
    let sign := if m < 0 then "-" else "+"
    let a := m.natAbs
    sign ++ padded 2 (a / 60) ++ ":" ++ padded 2 (a % 60)

def Datetime.text (d : Datetime) : String :=
  let date := match d.date with
    | some x => x.text
    | none => ""
  let time := match d.time with
    | some t => (if d.date.isSome then "T" else "") ++ t.text
    | none => ""
  let offset := match d.offset with
    | some o => o.text
    | none => ""
  date ++ time ++ offset

end ConfigTabs.Toml
