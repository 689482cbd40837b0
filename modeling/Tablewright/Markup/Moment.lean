import Tablewright.Number.Reading
import Tablewright.Value

namespace Tablewright.Markup

structure Date where
  year : Nat
  month : Nat
  day : Nat
deriving DecidableEq, Repr

structure Clock where
  hour : Nat
  minute : Nat
  second : Nat
  micro : Nat
  offset : Option Int
deriving DecidableEq, Repr

def monthLength (year month : Nat) : Nat :=
  if month = 2 then
    if year % 4 = 0 && (year % 100 ≠ 0 || year % 400 = 0) then 29 else 28
  else if month = 4 || month = 6 || month = 9 || month = 11 then 30
  else 31

def Date.fault? (d : Date) : Option String :=
  if d.year = 0 then some "year 0 is out of range"
  else if d.month = 0 || 12 < d.month then some "month must be in 1..12"
  else if d.day = 0 || monthLength d.year d.month < d.day then
    some "day is out of range for month"
  else none

def Clock.fault? (c : Clock) : Option String :=
  if 24 ≤ c.hour then some "hour must be in 0..23"
  else if 60 ≤ c.minute then some "minute must be in 0..59"
  else if 60 ≤ c.second then some "second must be in 0..59"
  else none

namespace Moment

def pair? (exact : Bool) : List Char → Option (Nat × List Char)
  | a :: b :: rest =>
    if isDigit a && isDigit b then some (readNat [a, b], rest)
    else if isDigit a && !exact then some (readNat [a], b :: rest)
    else none
  | [a] => if isDigit a && !exact then some (readNat [a], []) else none
  | [] => none

def mark? (c : Char) : List Char → Option (List Char)
  | d :: rest => if c = d then some rest else none
  | [] => none

def date? (exact : Bool) (cs : List Char) : Option (Date × List Char) := do
  let year := cs.take 4
  if year.length < 4 || !year.all isDigit then none
  let rest ← mark? '-' (cs.drop 4)
  let (month, rest) ← pair? exact rest
  let rest ← mark? '-' rest
  let (day, rest) ← pair? exact rest
  some (⟨readNat year, month, day⟩, rest)

def gap? : List Char → Option (List Char)
  | [] => none
  | c :: rest =>
    if c = 'T' || c = 't' then some rest
    else if c = ' ' || c = '\t' then some (rest.dropWhile fun c => c = ' ' || c = '\t')
    else none

def micro (cs : List Char) : Nat :=
  let digits := cs.take 6
  readNat (digits ++ List.replicate (6 - digits.length) '0')

def offset? (cs : List Char) : Option (Option Int) :=
  match cs.dropWhile fun c => c = ' ' || c = '\t' with
  | [] => if cs.isEmpty then some none else none
  | ['Z'] => some (some 0)
  | c :: rest => do
    if c ≠ '+' && c ≠ '-' then none
    let (hours, rest) ← pair? false rest
    let minutes ← if rest.isEmpty then some 0 else do
      let (minutes, rest) ← pair? true (← mark? ':' rest)
      if rest.isEmpty then some minutes else none
    some (some (signed (c = '-') (hours * 60 + minutes)))

def clock? (cs : List Char) : Option Clock := do
  let (hour, rest) ← pair? false cs
  let (minute, rest) ← pair? true (← mark? ':' rest)
  let (second, rest) ← pair? true (← mark? ':' rest)
  let (places, rest) := match rest with
    | '.' :: rest => (rest.takeWhile isDigit, rest.dropWhile isDigit)
    | rest => ([], rest)
  some ⟨hour, minute, second, micro places, ← offset? rest⟩

end Moment

def Date.displayed (d : Date) : String :=
  Text.padded 4 d.year ++ "-" ++ Text.padded 2 d.month ++ "-" ++ Text.padded 2 d.day

def Date.value (d : Date) : Value :=
  .thing ⟨"date", s!"datetime.date({d.year}, {d.month}, {d.day})", d.displayed⟩

def Clock.displayed (c : Clock) : String :=
  let places := if c.micro = 0 then "" else "." ++ Text.padded 6 c.micro
  let zone := match c.offset with
    | none => ""
    | some n =>
      (if n < 0 then "-" else "+") ++ Text.padded 2 (n.natAbs / 60) ++ ":" ++
        Text.padded 2 (n.natAbs % 60)
  Text.padded 2 c.hour ++ ":" ++ Text.padded 2 c.minute ++ ":" ++ Text.padded 2 c.second ++
    places ++ zone

/-- A span of time inside a message, in days and the seconds after them; a negative span counts from
a day before. -/
def spanShown (minutes : Int) : String :=
  let part (unit : String) (n : Int) : List String := if n = 0 then [] else [s!"{unit}={n}"]
  let parts := part "days" (minutes / (24 * 60)) ++ part "seconds" (60 * (minutes % (24 * 60)))
  let shown := if parts.isEmpty then "0" else String.intercalate ", " parts
  s!"datetime.timedelta({shown})"

def zoneShown (minutes : Int) : String :=
  if minutes = 0 then "datetime.timezone.utc" else s!"datetime.timezone({spanShown minutes})"

def Clock.zoneFault? (c : Clock) : Option String :=
  match c.offset with
  | some n =>
    if n.natAbs < 24 * 60 then none
    else some ("offset must be a timedelta strictly between -timedelta(hours=24) and " ++
      s!"timedelta(hours=24), not {spanShown n}.")
  | none => none

def momentValue (d : Date) (c : Clock) : Value :=
  let seconds :=
    if c.micro ≠ 0 then [c.second, c.micro]
    else if c.second ≠ 0 then [c.second]
    else []
  let parts := [d.year, d.month, d.day, c.hour, c.minute] ++ seconds
  let zone := match c.offset with
    | none => []
    | some n => ["tzinfo=" ++ zoneShown n]
  let shown := String.intercalate ", " (parts.map toString ++ zone)
  .thing ⟨"datetime", s!"datetime.datetime({shown})", d.displayed ++ " " ++ c.displayed⟩

def Moment.parts? (exact : Bool) (cs : List Char) : Option (Date × Option Clock) :=
  match Moment.date? exact cs with
  | some (d, []) => some (d, none)
  | _ => do
    let (d, rest) ← Moment.date? false cs
    return (d, some (← Moment.clock? (← Moment.gap? rest)))

def isMoment (cs : List Char) : Bool := (Moment.parts? true cs).isSome

/-- A word in the form of a date, with or without a time of day, read as one, or why there is no
such moment. -/
def moment? (cs : List Char) : Option (Except String Value) :=
  let sound (fault : Option String) (v : Value) : Except String Value :=
    match fault with
    | none => .ok v
    | some reason => .error reason
  (Moment.parts? false cs).map fun
    | (d, none) => sound d.fault? d.value
    | (d, some c) => sound (c.zoneFault?.or (d.fault?.or c.fault?)) (momentValue d c)

end Tablewright.Markup
