import PubSub.Failure

/-!
# The database

Three tables and the counter of membership numbers, as plain lists. A `Write` is
one statement that changes them; `Write.run` says what it does and how many rows
it touches. Memberships stand in the order of their numbers, subscriptions with
the one written last at the end.
-/

namespace PubSub

/-! ## Rows -/

/-- A notification setting as callers give it: a truth value, a number as it is stored, or none. -/
inductive Flag where
  | plain (b : Bool)
  | coded (n : Int)
  | absent
  deriving DecidableEq

def Flag.code : Flag → Except Failure Int
  | .plain true => .ok 1
  | .plain false => .ok 0
  | .coded n => .ok n
  | .absent => .error .missingNumber

def Flag.document : Flag → Document
  | .plain b => .bool b
  | .coded n => .int n
  | .absent => .null

structure TopicRow where
  topic : String
  publisher : String
  details : String
  notification : Int
  deriving DecidableEq

structure MemberRow where
  id : Int
  topic : String
  subscriber : String
  details : String
  expiry : Int
  requestId : Option String
  deriving DecidableEq

structure SubscriptionRow where
  topic : String
  code : Int
  requestId : Option String
  deriving DecidableEq

structure Database where
  version : Int
  tables : List Table
  topics : List TopicRow
  members : List MemberRow
  subscriptions : List SubscriptionRow
  /-- The highest number that a membership ever had or was to have. -/
  lastMember : Nat
  deriving DecidableEq

namespace Database

def blank : Database := ⟨0, [], [], [], [], 0⟩

def allTables : List Table := [.topics, .subscribers, .subscriptions]

def upgraded (db : Database) : Database :=
  { db with version := schemaVersion, tables := allTables }

/-- A database with a version, which has the 32 bits of a header field. One that does not fit counts
as zero. -/
def numbered (db : Database) (version : Int) : Database :=
  { db with version := if -2147483648 ≤ version ∧ version < 2147483648 then version else 0 }

def fresh : Database := blank.upgraded

def has (db : Database) (table : Table) : Bool := db.tables.contains table

def hasAll (db : Database) : Bool := allTables.all db.has

/-! ## Look-ups -/

def topic? (db : Database) (topic : String) : Option TopicRow :=
  db.topics.find? (·.topic = topic)

def member? (db : Database) (topic subscriber : String) : Option MemberRow :=
  db.members.find? fun m => m.topic = topic ∧ m.subscriber = subscriber

def subscription? (db : Database) (topic : String) : Option SubscriptionRow :=
  db.subscriptions.find? (·.topic = topic)

/-- The row written last among those that carry a request. No row carries a missing request. -/
def carrier? (db : Database) (requestId : Option String) : Option SubscriptionRow :=
  match requestId with
  | some requestId => db.subscriptions.reverse.find? fun s => s.requestId = some requestId
  | none => none

/-! ## Changes -/

structure NewMember where
  topic : String
  subscriber : String
  details : String
  expiry : Option Int
  requestId : Option String

def lastId : Nat := 9223372036854775807

/-- Tries the next number. A row without an expiry and a second row of one pair are dropped, and
the number is used up. -/
def addMember (db : Database) (new : NewMember) : Except Fault (Nat × Database) :=
  if lastId ≤ db.lastMember then .error .full
  else
    let next := db.lastMember + 1
    match new.expiry, db.member? new.topic new.subscriber with
    | some expiry, none =>
      .ok (1, { db with
        members := db.members ++ [⟨next, new.topic, new.subscriber, new.details, expiry,
          new.requestId⟩]
        lastMember := next })
    | _, _ => .ok (0, { db with lastMember := next })

def putTopic (db : Database) (row : TopicRow) : Database :=
  { db with topics := db.topics.filter (·.topic ≠ row.topic) ++ [row] }

def dropTopic (db : Database) (topic : String) : Nat × Database :=
  (db.topics.countP (·.topic = topic), { db with topics := db.topics.filter (·.topic ≠ topic) })

/-- Rows that already hold the value are not touched. -/
def setNotification (db : Database) (topic : String) (code : Int) : Nat × Database :=
  (db.topics.countP fun t => t.topic = topic ∧ t.notification ≠ code,
    { db with
      topics := db.topics.map fun t =>
        if t.topic = topic then { t with notification := code } else t })

def dropMember (db : Database) (topic subscriber : String) : Nat × Database :=
  (db.members.countP fun m => m.topic = topic ∧ m.subscriber = subscriber,
    { db with
      members := db.members.filter fun m => ¬(m.topic = topic ∧ m.subscriber = subscriber) })

def dropMembers (db : Database) (topic : String) : Nat × Database :=
  (db.members.countP (·.topic = topic), { db with members := db.members.filter (·.topic ≠ topic) })

/-- The new row comes last, whether or not the topic had one. -/
def putSubscription (db : Database) (row : SubscriptionRow) : Database :=
  { db with subscriptions := db.subscriptions.filter (·.topic ≠ row.topic) ++ [row] }

def setState (db : Database) (topic : String) (state : State) : Nat × Database :=
  (db.subscriptions.countP (·.topic = topic),
    { db with
      subscriptions := db.subscriptions.map fun s =>
        if s.topic = topic then { s with code := state.code } else s })

def dropSubscription (db : Database) (topic : String) : Nat × Database :=
  (db.subscriptions.countP (·.topic = topic),
    { db with subscriptions := db.subscriptions.filter (·.topic ≠ topic) })

def dropInState (db : Database) (state : State) : Nat × Database :=
  (db.subscriptions.countP (·.code = state.code),
    { db with subscriptions := db.subscriptions.filter (·.code ≠ state.code) })

end Database

/-! ## Statements -/

inductive Verb where
  | begin
  | commit
  | rollback
  | insert
  | update
  | delete
  deriving DecidableEq

inductive Write where
  | putTopic (row : TopicRow)
  | dropTopic (topic : String)
  | setNotification (topic : String) (code : Int)
  | addMember (new : Database.NewMember)
  | dropMember (topic subscriber : String)
  | dropMembers (topic : String)
  | putSubscription (topic : String) (state : State) (requestId : Option String)
  | setState (topic : String) (state : State)
  | dropSubscription (topic : String)
  | dropInState (state : State)

namespace Write

def verb : Write → Verb
  | .putTopic _ | .addMember _ | .putSubscription .. => .insert
  | .setNotification .. | .setState .. => .update
  | .dropTopic _ | .dropMember .. | .dropMembers _ | .dropSubscription _ | .dropInState _ => .delete

def table : Write → Table
  | .putTopic _ | .dropTopic _ | .setNotification .. => .topics
  | .addMember _ | .dropMember .. | .dropMembers _ => .subscribers
  | .putSubscription .. | .setState .. | .dropSubscription _ | .dropInState _ => .subscriptions

def fits (n : Int) : Bool := -(Database.lastId : Int) - 1 ≤ n && n ≤ (Database.lastId : Int)

def storable : Write → Bool
  | .putTopic row => fits row.notification
  | .setNotification _ code => fits code
  | .addMember new => (new.expiry.map fits).getD true
  | _ => true

def setsNotification : Write → Bool
  | .setNotification .. => true
  | _ => false

def run : Write → Database → Except Fault (Nat × Database)
  | .putTopic row, db => .ok (1, db.putTopic row)
  | .dropTopic topic, db => .ok (db.dropTopic topic)
  | .setNotification topic code, db => .ok (db.setNotification topic code)
  | .addMember new, db => db.addMember new
  | .dropMember topic subscriber, db => .ok (db.dropMember topic subscriber)
  | .dropMembers topic, db => .ok (db.dropMembers topic)
  | .putSubscription topic state requestId, db =>
    .ok (1, db.putSubscription ⟨topic, state.code, requestId⟩)
  | .setState topic state, db => .ok (db.setState topic state)
  | .dropSubscription topic, db => .ok (db.dropSubscription topic)
  | .dropInState state, db => .ok (db.dropInState state)

end Write

/-! ## Changes from outside -/

structure Change where
  /-- Why it cannot even be asked for. -/
  refusal? : Database → Option Failure
  apply : Database → Except Fault Database
  /-- Whether it ends with a commit, which nobody may be reading under. -/
  commits : Bool

namespace Change

/-- Takes the write lock and changes nothing. -/
def touch : Change := ⟨fun _ => none, .ok, false⟩

def number (version : Int) : Change :=
  ⟨fun _ => none, fun db => .ok (db.numbered version), true⟩

end Change

end PubSub
