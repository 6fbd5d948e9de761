import SchemaDesign.Json.Value
import SchemaDesign.Text.Join

/-! Points in time that stamp an export. -/
namespace SchemaDesign.Export

/-- A point in time, in the calendar of the reader. -/
structure Stamp where
  year : Nat
  month : Nat
  day : Nat
  hour : Nat
  minute : Nat
  second : Nat
deriving DecidableEq

/-- Why some values are no point in time. -/
inductive StampFault where
  | missing (name : String) (position : Nat)
  | notInteger (kind : Json.Kind)
  | tooGreat
  | tooSmall
  | noYear (n : Int)
  | noDay
  | outOfRange (name : String) (least greatest : Nat)
deriving DecidableEq

def StampFault.message : StampFault → String
  | missing name position =>
      "function missing required argument '" ++ name ++ "' (pos " ++ Text.writeInt position ++ ")"
  | notInteger kind => "'" ++ kind.name ++ "' object cannot be interpreted as an integer"
  | tooGreat => "signed integer is greater than maximum"
  | tooSmall => "signed integer is less than minimum"
  | noYear n => "year " ++ Text.writeInt n ++ " is out of range"
  | noDay => "day is out of range for month"
  | outOfRange name least greatest =>
      name ++ " must be in " ++ Text.writeInt least ++ ".." ++ Text.writeInt greatest

namespace Stamp

def isLeap (year : Nat) : Bool := year % 4 == 0 && (year % 100 != 0 || year % 400 == 0)

def daysIn (year month : Nat) : Nat :=
  if month = 2 then (if isLeap year then 29 else 28)
  else if month = 4 ∨ month = 6 ∨ month = 9 ∨ month = 11 then 30
  else 31

/-- An integer of 32 bits. -/
def readPart (j : Json) : Except StampFault Int :=
  match j.integer? with
  | none => .error (.notInteger j.kind)
  | some n =>
      if (Nat.pow 2 31 : Nat) ≤ n then .error .tooGreat
      else if n < -(Nat.pow 2 31 : Nat) then .error .tooSmall
      else .ok n

def part (name : String) (least greatest : Nat) (n : Int) : Except StampFault Nat :=
  if least ≤ n ∧ n ≤ greatest then .ok n.toNat else .error (.outOfRange name least greatest)

/-- The point in time of a year, a month and a day. The hour, the minute, the second and its millionths may
be left out. -/
def ofParts (parts : List Json) : Except StampFault Stamp := do
  match ← (parts.take 7).mapM readPart with
  | year :: month :: day :: time =>
      if year < 1 ∨ 9999 < year then throw (.noYear year)
      let month ← part "month" 1 12 month
      if day < 1 ∨ daysIn year.toNat month < day then throw .noDay
      let hour ← part "hour" 0 23 (time.getD 0 0)
      let minute ← part "minute" 0 59 (time.getD 1 0)
      let second ← part "second" 0 59 (time.getD 2 0)
      let _ ← part "microsecond" 0 999999 (time.getD 3 0)
      return ⟨year.toNat, month, day.toNat, hour, minute, second⟩
  | [_, _] => throw (.missing "day" 3)
  | [_] => throw (.missing "month" 2)
  | _ => throw (.missing "year" 1)

def twoDigits (n : Nat) : String :=
  String.ofList [Nat.digitChar (n / 10), Nat.digitChar (n % 10)]

/-- `2024-03-01 09:30:05`; the year is not padded. -/
def write (s : Stamp) : String :=
  Text.writeInt s.year ++ "-" ++ twoDigits s.month ++ "-" ++ twoDigits s.day ++ " "
    ++ twoDigits s.hour ++ ":" ++ twoDigits s.minute ++ ":" ++ twoDigits s.second

end Stamp

end SchemaDesign.Export
