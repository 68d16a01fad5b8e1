import PubSub.Decimal.Shortest
import PubSub.Failure

/-!
# Metrics

Counters that add up and gauges that hold the last value, both by name, and
their text for a scraper: families in the order of their names, counters first.
-/

namespace PubSub

inductive Sample where
  | whole (n : Int)
  | real (x : Float)

namespace Sample

def document : Sample → Document
  | .whole n => .int n
  | .real x => .float x

def text : Sample → String
  | .whole n => Decimal.text n
  | .real x => Decimal.floatText x

def isLong : Sample → Bool
  | .whole n => Decimal.isLong n
  | .real _ => false

end Sample

structure Metrics where
  counters : List (String × Int)
  gauges : List (String × Sample)
  started : Float

namespace Metrics

def startedAt (time : Float) : Metrics := ⟨[], [], time⟩

def fullName (name : String) : String := "usub_" ++ name

/-- Adds to a named number, which is zero before. -/
def addTo (name : String) (n : Int) : List (String × Int) → List (String × Int)
  | [] => [(name, n)]
  | (k, m) :: rest => if k = name then (k, m + n) :: rest else (k, m) :: addTo name n rest

def setIn (name : String) (value : Sample) : List (String × Sample) → List (String × Sample)
  | [] => [(name, value)]
  | (k, v) :: rest => if k = name then (k, value) :: rest else (k, v) :: setIn name value rest

def add (m : Metrics) (name : String) (n : Int) : Metrics :=
  { m with counters := addTo (fullName name) n m.counters }

def set (m : Metrics) (name : String) (value : Sample) : Metrics :=
  { m with gauges := setIn (fullName name) value m.gauges }

/-- The gauge of that name, else the counter, else zero. -/
def get (m : Metrics) (name : String) : Sample :=
  match m.gauges.lookup (fullName name) with
  | some value => value
  | none => .whole ((m.counters.lookup (fullName name)).getD 0)

/-! ## Text -/

def byName {α : Type} (a b : String × α) : Bool := a.1 ≤ b.1

def family (kind name value : String) : List String :=
  ["# TYPE " ++ name ++ " " ++ kind, name ++ " " ++ value]

def lines (m : Metrics) (now : Float) : List String :=
  (m.counters.mergeSort byName).flatMap (fun (name, n) => family "counter" name (Decimal.text n)) ++
  (m.gauges.mergeSort byName).flatMap (fun (name, value) => family "gauge" name value.text) ++
  family "gauge" (fullName "uptime_seconds") (Decimal.tenthsText (now - m.started))

def exposition (m : Metrics) (now : Float) : String :=
  String.join ((m.lines now).map (· ++ "\n"))

def hasLong (m : Metrics) : Bool :=
  m.counters.any (fun (_, n) => Decimal.isLong n) || m.gauges.any fun (_, value) => value.isLong

/-- The text for a scraper, if every value can be written. -/
def scrape (m : Metrics) (now : Float) : Except Failure String :=
  if m.hasLong then .error .unwritable else .ok (m.exposition now)

def document (m : Metrics) (now : Float) : Document :=
  .record [
    ("counters", .record (m.counters.map fun (name, n) => (name, .int n))),
    ("gauges", .record (m.gauges.map fun (name, value) => (name, value.document))),
    ("uptime_seconds", .float (now - m.started))]

end Metrics

end PubSub
