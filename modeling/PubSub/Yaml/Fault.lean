import PubSub.Decimal.Digits
import PubSub.Text.Shown

/-!
# Faults of texts

Why a text has no document. Most are breaches of the format and are not told
apart; a scalar that its kind has no value for, and a number that no character
has, are faults of their own, each with its wording in `message`.
-/

namespace PubSub.Yaml

/-! ## Dates -/

inductive DateFault where
  | year (given : Nat)
  | month
  | day
  | hour
  | minute
  | second
  /-- A zone a day or more away, in minutes. -/
  | zone (minutes : Int)
  deriving DecidableEq

/-- A length of time in days and in the seconds of the last one. -/
def lengthText (minutes : Int) : String :=
  let days := minutes / 1440
  let seconds := minutes % 1440 * 60
  "datetime.timedelta(days=" ++ Decimal.text days
    ++ (if seconds = 0 then "" else ", seconds=" ++ Decimal.text seconds) ++ ")"

def DateFault.message : DateFault → String
  | .year given => "year " ++ Decimal.text given ++ " is out of range"
  | .month => "month must be in 1..12"
  | .day => "day is out of range for month"
  | .hour => "hour must be in 0..23"
  | .minute => "minute must be in 0..59"
  | .second => "second must be in 0..59"
  | .zone minutes =>
    "offset must be a timedelta strictly between -timedelta(hours=24) and timedelta(hours=24), not "
      ++ lengthText minutes ++ "."

/-! ## Faults -/

inductive Fault where
  /-- The text breaks a rule of the format, or a kind is not known. -/
  | malformed
  | deep
  | noCharacter (code : Nat)
  /-- A number in which nothing stands where its first character should. -/
  | emptyNumber
  | notWhole (text : List Text.Point) (base : Nat)
  | longNumber (digits : Nat)
  | notReal (text : List Text.Point)
  | vastPlace
  | notTruth (text : List Text.Point)
  | notDate
  /-- A mapping in the place of a date. -/
  | compositeDate
  | date (fault : DateFault)
  deriving DecidableEq

/-- How many characters of a text that is no whole number are shown. -/
def shownLimit : Nat := 200

def Fault.message : Fault → String
  | .malformed => "malformed text"
  | .deep => "maximum recursion depth exceeded"
  | .noCharacter code =>
    if code < 0x80000000 then "chr() arg not in range(0x110000)"
    else "Python int too large to convert to C int"
  | .emptyNumber => "string index out of range"
  | .notWhole text base =>
    "invalid literal for int() with base " ++ Decimal.text base ++ ": "
      ++ String.ofList ((Text.shownPoints text).toList.take shownLimit)
  | .longNumber digits => Decimal.tooLong (some digits)
  | .notReal text => "could not convert string to float: " ++ Text.shownPoints text
  | .vastPlace => "int too large to convert to float"
  | .notTruth text => Text.shownPoints text
  | .notDate => "'NoneType' object has no attribute 'groupdict'"
  | .compositeDate => "expected string or bytes-like object, got 'list'"
  | .date fault => fault.message

end PubSub.Yaml
