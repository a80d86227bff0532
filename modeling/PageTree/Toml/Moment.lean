/-!
Dates and times of day. A moment has a date, a time, or both; with both it may also tell how far its
clock is from the zero meridian.
-/

namespace PageTree.Toml

structure Date where
  year : Nat
  month : Nat
  day : Nat
  deriving DecidableEq

structure Time where
  hour : Nat
  minute : Nat
  second : Nat
  nanosecond : Nat
  deriving DecidableEq

/-- The minutes by which a clock is ahead of the zero meridian; `zulu` is the zero meridian itself. -/
inductive Offset where
  | zulu
  | minutes (ahead : Int)
  deriving DecidableEq

structure Moment where
  date : Option Date
  time : Option Time
  offset : Option Offset
  deriving DecidableEq

def isLeapYear (year : Nat) : Bool := year % 4 = 0 && (year % 100 ≠ 0 || year % 400 = 0)

def daysIn (year month : Nat) : Nat :=
  if month = 2 then if isLeapYear year then 29 else 28
  else if month = 4 || month = 6 || month = 9 || month = 11 then 30
  else 31

def Date.isValid (date : Date) : Bool :=
  1 ≤ date.month && date.month ≤ 12 && 1 ≤ date.day && date.day ≤ daysIn date.year date.month

/-- A minute may have a leap second. -/
def Time.isValid (time : Time) : Bool := time.hour ≤ 23 && time.minute ≤ 59 && time.second ≤ 60

def padded (width n : Nat) : List Char :=
  let digits := Nat.toDigits 10 n
  List.replicate (width - digits.length) '0' ++ digits

def Date.text (date : Date) : List Char :=
  padded 4 date.year ++ '-' :: padded 2 date.month ++ '-' :: padded 2 date.day

def fractionText (nanosecond : Nat) : List Char :=
  if nanosecond = 0 then []
  else '.' :: ((padded 9 nanosecond).reverse.dropWhile (· = '0')).reverse

def Time.text (time : Time) : List Char :=
  padded 2 time.hour ++ ':' :: padded 2 time.minute ++ ':' :: padded 2 time.second
    ++ fractionText time.nanosecond

def Offset.text : Offset → List Char
  | zulu => ['Z']
  | minutes ahead =>
    let n := ahead.natAbs
    (if ahead < 0 then '-' else '+') :: padded 2 (n / 60) ++ ':' :: padded 2 (n % 60)

def Moment.text (moment : Moment) : String :=
  let date := (moment.date.map Date.text).getD []
  let time := (moment.time.map Time.text).getD []
  let offset := (moment.offset.map Offset.text).getD []
  let between := if moment.date.isSome && moment.time.isSome then ['T'] else []
  String.ofList (date ++ between ++ time ++ offset)

end PageTree.Toml
