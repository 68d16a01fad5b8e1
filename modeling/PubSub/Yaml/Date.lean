import PubSub.Decimal.Digits
import PubSub.Yaml.Fault

/-!
# Dates

A day of the calendar, perhaps with a time of the day, fractions of a second and
a zone. `ofChars?` reads the written form, `fault?` finds a part that is out of
its range.
-/

namespace PubSub.Yaml

structure Clock where
  hour : Nat
  minute : Nat
  second : Nat
  zone : Int

structure Date where
  year : Nat
  month : Nat
  day : Nat
  clock : Option Clock

namespace Date

/-! ## Reading -/

abbrev Parse := StateT (List Char) Option

def readNumber (least most : Nat) : Parse Nat := fun cs =>
  let ds := cs.takeWhile Decimal.isDigit
  if least ≤ ds.length && ds.length ≤ most then some (Decimal.ofDigits ds, cs.drop ds.length)
  else none

def readChar (p : Char → Bool) : Parse Char
  | c :: rest => if p c then some (c, rest) else none
  | [] => none

def skipWhile (p : Char → Bool) : Parse Unit := fun cs => some ((), cs.dropWhile p)

def atEnd : Parse Bool := fun cs => some (cs.isEmpty, cs)

def isGap (c : Char) : Bool := c = ' ' || c = '\t'

def readZone : Parse Int := do
  let mark ← readChar fun c => c = 'Z' || c = '+' || c = '-'
  if mark = 'Z' then return 0
  else
    let hours ← readNumber 1 2
    let minutes ← (do
      if ← atEnd then return 0
      let _ ← readChar (· = ':')
      readNumber 2 2)
    let away : Int := 60 * hours + minutes
    return if mark = '-' then -away else away

def readClock : Parse Clock := do
  let hour ← readNumber 1 2
  let _ ← readChar (· = ':')
  let minute ← readNumber 2 2
  let _ ← readChar (· = ':')
  let second ← readNumber 2 2
  if (← get).head? = some '.' then
    let _ ← readChar (· = '.')
    skipWhile Decimal.isDigit
  if ← atEnd then return ⟨hour, minute, second, 0⟩
  else
    skipWhile isGap
    return ⟨hour, minute, second, ← readZone⟩

def readDate : Parse Date := do
  let year ← readNumber 4 4
  let _ ← readChar (· = '-')
  let month ← readNumber 1 2
  let _ ← readChar (· = '-')
  let day ← readNumber 1 2
  if ← atEnd then return ⟨year, month, day, none⟩
  else
    let mark ← readChar fun c => c = 'T' || c = 't' || isGap c
    if isGap mark then skipWhile isGap
    return ⟨year, month, day, some (← readClock)⟩

def ofChars? (cs : List Char) : Option Date :=
  match readDate cs with
  | some (found, []) => some found
  | _ => none

/-- Whether a text is taken for a date without being said to be one: a day alone has all its digits
then. -/
def isEvident (cs : List Char) : Bool :=
  match ofChars? cs with
  | some found => found.clock.isSome || cs.length = 10
  | none => false

/-! ## Ranges -/

def isLeap (year : Nat) : Bool := year % 4 = 0 && (year % 100 ≠ 0 || year % 400 = 0)

def daysOf (year month : Nat) : Nat :=
  if month = 2 then (if isLeap year then 29 else 28)
  else if [4, 6, 9, 11].contains month then 30
  else 31

def Clock.fault? (c : Clock) : Option DateFault :=
  if 23 < c.hour then some .hour
  else if 59 < c.minute then some .minute
  else if 59 < c.second then some .second
  else none

def dayFault? (d : Date) : Option DateFault :=
  if d.year = 0 then some (.year d.year)
  else if d.month = 0 ∨ 12 < d.month then some .month
  else if d.day = 0 ∨ daysOf d.year d.month < d.day then some .day
  else none

def zoneFault? (c : Clock) : Option DateFault :=
  if 1440 ≤ c.zone.natAbs then some (.zone c.zone) else none

/-- The first part out of its range: the zone is looked at first, the clock last. -/
def fault? (d : Date) : Option DateFault :=
  d.clock.bind zoneFault? <|> d.dayFault? <|> d.clock.bind Clock.fault?

end Date

end PubSub.Yaml
