import PubSub.Directory
import PubSub.Json.Writer
import PubSub.Membership
import PubSub.Negotiation
import PubSub.World

/-!
# Administration

The commands of an operator, each over a store and metrics of its own, and their
output. `stats` reports the same five counts in three formats.
-/

namespace PubSub

/-! ## Counts -/

def gauges : List (String × Operation Nat) :=
  [("topics", Directory.count),
    ("subscribers", Membership.count),
    ("subscriptions_deprecated", Negotiation.countDeprecated),
    ("subscriptions_pending", Negotiation.pending.map List.length),
    ("subscriptions_active", Negotiation.effective.map List.length)]

namespace World

def setMetrics (w : World) (i : Nat) (f : Metrics → Metrics) : World :=
  match w.stores[i]? with
  | some s => w.setStore i { s with metrics := f s.metrics }
  | none => w

/-- Reads counts one after another, each in a transaction of its own, and sets their gauges. -/
def refreshFrom (w : World) (i : Nat) :
    List (String × Operation Nat) → World × Except Failure (List (String × Nat))
  | [] => (w, .ok [])
  | (name, op) :: rest =>
    match w.call i op with
    | (w, .error failure) => (w, .error failure)
    | (w, .ok n) =>
      let w := w.setMetrics i (·.set name (.whole n))
      let (w, counts) := w.refreshFrom i rest
      (w, counts.map ((name, n) :: ·))

def refresh (w : World) (i : Nat) : World × Except Failure (List (String × Nat)) :=
  w.refreshFrom i gauges

end World

/-! ## Commands -/

inductive Format where
  | text
  | json
  | prometheus
  deriving DecidableEq

def Format.ofName (s : String) : Format :=
  if s = "json" then .json else if s = "prometheus" then .prometheus else .text

inductive Command where
  | stats (format : Format)
  | subscribers (topic : String)
  | pending
  | purgeDeprecated
  | unknown (name : String)

def Command.name : Command → String
  | .stats _ => "stats"
  | .subscribers _ => "subscribers"
  | .pending => "pending"
  | .purgeDeprecated => "purge-deprecated"
  | .unknown name => name

def Command.ofName (name : String) (format : Format) (topic : String) : Command :=
  if name = "stats" then .stats format
  else if name = "subscribers" then .subscribers topic
  else if name = "pending" then .pending
  else if name = "purge-deprecated" then .purgeDeprecated
  else .unknown name

namespace Report

def countNames : List String :=
  ["topics", "subscribers", "subscriptions_active", "subscriptions_pending",
    "subscriptions_deprecated"]

def inOrder (counts : List (String × Nat)) : List (String × Nat) :=
  countNames.map fun name => (name, (counts.lookup name).getD 0)

def textLine : String × Nat → List Char
  | (name, n) => name.toList ++ [':', ' '] ++ Decimal.sixDigits n ++ ['\n']

/-- A line for each count, with at most six significant digits. -/
def countsText (counts : List (String × Nat)) : String :=
  String.ofList ((inOrder counts).flatMap textLine)

def jsonLine : String × Nat → List Char
  | (name, n) => [' ', ' '] ++ Json.quoted name ++ [':', ' '] ++ Decimal.digits n

def countsJson (counts : List (String × Nat)) : String :=
  let body := Json.joined [',', '\n'] ((inOrder counts).map jsonLine)
  String.ofList (['{', '\n'] ++ body ++ ['\n', '}', '\n'])

def memberLine (m : MemberRecord) : String := toString m.id ++ "\t" ++ m.subscriber ++ "\n"

/-- A missing request and an empty one are both shown as a dash. -/
def pendingLine (r : SubscriptionRecord) : String :=
  let requestId := r.requestId.getD ""
  r.topic ++ "\t" ++ r.state.name ++ "\t" ++ (if requestId.isEmpty then "-" else requestId) ++ "\n"

def purgedLine (rows : Nat) : String :=
  "purged " ++ toString rows ++ " deprecated subscription(s)\n"

end Report

namespace World

def output (w : World) (i : Nat) : Command → World × Except Failure String
  | .stats format =>
    let (w, counts) := w.refresh i
    let metrics := (w.stores[i]?.map (·.metrics)).getD (.startedAt w.clock)
    (w, counts.map fun counts =>
      match format with
      | .text => Report.countsText counts
      | .json => Report.countsJson counts
      | .prometheus => metrics.exposition w.clock)
  | .subscribers topic =>
    let (w, records) := w.call i (Membership.ofTopic topic)
    (w, records.map fun records => String.join (records.map Report.memberLine))
  | .pending =>
    let (w, records) := w.call i Negotiation.pending
    (w, records.map fun records => String.join (records.map Report.pendingLine))
  | .purgeDeprecated =>
    let (w, rows) := w.call i Negotiation.purgeDeprecated
    (w, rows.map Report.purgedLine)
  | .unknown name => (w, .error (.unknownCommand name))

/-- Opens a store for one command and closes it afterwards, whatever the outcome. -/
def administer (w : World) (path : List Text.Point) (command : Command) :
    World × Except Failure String :=
  let (w, i) := w.addStore path
  match w.openStore i with
  | (w, .error failure) => (w, .error failure)
  | (w, .ok ()) =>
    let (w, result) := w.output i command
    (w.closeStore i, result)

end World

end PubSub
