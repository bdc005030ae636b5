-- Dates and times: a date, a time of day, or both, with the distance from universal time.
import LiteralFolding.Text.Digit

namespace LiteralFolding.Toml

structure Date where
  year : Nat
  month : Nat
  day : Nat
  deriving DecidableEq, Repr

structure TimeOfDay where
  hour : Nat
  minute : Nat
  second : Nat
  nanosecond : Nat := 0
  deriving DecidableEq, Repr

/-- How far a clock is from universal time. -/
inductive Offset where
  | zulu
  | minutes (count : Int)
  deriving DecidableEq, Repr

/-- A point in time, as far as it is given. -/
inductive Datetime where
  | day (date : Date)
  | clock (time : TimeOfDay)
  | both (date : Date) (time : TimeOfDay) (offset : Option Offset)
  deriving DecidableEq, Repr

/-! ## Reading -/

def daysOfMonth (year month : Nat) : Nat :=
  if month = 2 then
    if year % 4 = 0 ∧ (year % 100 ≠ 0 ∨ year % 400 = 0) then 29 else 28
  else if month = 4 ∨ month = 6 ∨ month = 9 ∨ month = 11 then 30
  else 31

/-- A number of two digits between bounds. -/
def two? (low high : Nat) (t : Text) : Option (Nat × Text) :=
  (Text.fixedValue? 10 2 t).filter fun (n, _) => low ≤ n && n ≤ high

def date? (t : Text) : Option (Date × Text) := do
  let (year, t) ← Text.fixedValue? 10 4 t
  let t ← Text.strip? ['-'] t
  let (month, t) ← two? 1 12 t
  let t ← Text.strip? ['-'] t
  let (day, t) ← two? 1 (daysOfMonth year month) t
  some ({ year, month, day }, t)

/-- Digits after the point of the seconds, cut to nine. -/
def nanoseconds? (digits : Text) : Option Nat :=
  let kept := digits.take 9
  (Text.wholeValue? 10 kept).map (· * Nat.pow 10 (9 - kept.length))

def time? (t : Text) : Option (TimeOfDay × Text) := do
  let (hour, t) ← two? 0 23 t
  let t ← Text.strip? [':'] t
  let (minute, t) ← two? 0 59 t
  let t ← Text.strip? [':'] t
  let (second, t) ← two? 0 60 t
  match t with
  | '.' :: more =>
    let (digits, rest) := Text.spanDigits 10 more
    (nanoseconds? digits).map fun nanosecond => ({ hour, minute, second, nanosecond }, rest)
  | _ => some ({ hour, minute, second }, t)

/-- All of a text as an offset; the empty text is none. -/
def offset? : Text → Option (Option Offset)
  | [] => some none
  | ['Z'] | ['z'] => some (some .zulu)
  | sign :: t => do
    let factor : Int ← if sign = '+' then some 1 else if sign = '-' then some (-1) else none
    let (hours, t) ← two? 0 23 t
    let t ← Text.strip? [':'] t
    let (minutes, t) ← two? 0 59 t
    if t.isEmpty then some (some (.minutes (factor * (hours * 60 + minutes : Nat)))) else none

/-- All of a text as a date, a time or both. -/
def datetime? (t : Text) : Option Datetime :=
  match date? t with
  | some (date, []) => some (.day date)
  | some (date, separator :: t) =>
    if separator = 'T' ∨ separator = 't' ∨ separator = ' ' then do
      let (time, t) ← time? t
      (offset? t).map (.both date time)
    else none
  | none =>
    match time? t with
    | some (time, []) => some (.clock time)
    | _ => none

/-! ## Writing -/

/-- A number with at least `width` digits. -/
def padded (width n : Nat) : Text :=
  let digits := Nat.toDigits 10 n
  List.replicate (width - digits.length) '0' ++ digits

def Date.text (d : Date) : Text :=
  padded 4 d.year ++ '-' :: padded 2 d.month ++ '-' :: padded 2 d.day

/-- The written form of a time of day; zeros at the end of its fraction are left out. -/
def TimeOfDay.text (t : TimeOfDay) : Text :=
  let fraction := ((padded 9 t.nanosecond).reverse.dropWhile (· = '0')).reverse
  padded 2 t.hour ++ ':' :: padded 2 t.minute ++ ':' :: padded 2 t.second ++
    (if fraction.isEmpty then [] else '.' :: fraction)

def Offset.text : Offset → Text
  | .zulu => ['Z']
  | .minutes count =>
    (if count < 0 then '-' else '+') ::
      (padded 2 (count.natAbs / 60) ++ ':' :: padded 2 (count.natAbs % 60))

def Datetime.text : Datetime → Text
  | .day date => date.text
  | .clock time => time.text
  | .both date time offset =>
    date.text ++ 'T' :: time.text ++ (offset.map Offset.text).getD []

end LiteralFolding.Toml
