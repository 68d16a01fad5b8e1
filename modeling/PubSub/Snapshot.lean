import PubSub.Files
import PubSub.Json.Reader
import PubSub.Json.Writer

/-!
# Snapshots

A database as one document, a list for every row, and as the text that a file
holds between two runs of the program. A text that is no snapshot is a plain
file.
-/

namespace PubSub

/-! ## Written -/

def TopicRow.document (r : TopicRow) : Document :=
  .list [.text r.topic, .text r.publisher, .text r.details, .int r.notification]

def MemberRow.document (r : MemberRow) : Document :=
  .list [.int r.id, .text r.topic, .text r.subscriber, .text r.details, .int r.expiry,
    .ofOption r.requestId]

def SubscriptionRow.document (r : SubscriptionRow) : Document :=
  .list [.text r.topic, .int r.code, .ofOption r.requestId]

namespace Database

/-- The rows and the version. Topics stand in the order of their names. -/
def document (db : Database) : Document :=
  let topics := db.topics.mergeSort fun a b => a.topic ≤ b.topic
  .record [
    ("topics", .list (topics.map TopicRow.document)),
    ("subscribers", .list (db.members.map MemberRow.document)),
    ("subscriptions", .list (db.subscriptions.map SubscriptionRow.document)),
    ("user_version", .int db.version)]

end Database

namespace Snapshot

def whole (db : Database) : Document :=
  .record [
    ("database", db.document),
    ("tables", .list (db.tables.map fun table => .text table.name)),
    ("last_member", .int db.lastMember)]

/-- An empty text stands for a database that nothing was written to. -/
def text (db : Database) : String := if db = .blank then "" else Json.text (whole db)

/-! ## Read -/

def requestOf? : Document → Option (Option String)
  | .null => some none
  | .text s => some (some s)
  | _ => none

def topicOf? : Document → Option TopicRow
  | .list [.text topic, .text publisher, .text details, .int notification] =>
    some ⟨topic, publisher, details, notification⟩
  | _ => none

def memberOf? : Document → Option MemberRow
  | .list [.int id, .text topic, .text subscriber, .text details, .int expiry, request] =>
    (requestOf? request).map (⟨id, topic, subscriber, details, expiry, ·⟩)
  | _ => none

def subscriptionOf? : Document → Option SubscriptionRow
  | .list [.text topic, .int code, request] => (requestOf? request).map (⟨topic, code, ·⟩)
  | _ => none

def tableOf? : Document → Option Table
  | .text name => Database.allTables.find? fun table => table.name = name
  | _ => none

def listOf? {α : Type} (read? : Document → Option α) : Option Document → Option (List α)
  | some (.list items) => items.mapM read?
  | _ => none

def intOf? : Option Document → Option Int
  | some (.int n) => some n
  | _ => none

def database? (d : Document) : Option Database := do
  let rows ← d.field? "database"
  let version ← intOf? (rows.field? "user_version")
  let tables ← listOf? tableOf? (d.field? "tables")
  let topics ← listOf? topicOf? (rows.field? "topics")
  let members ← listOf? memberOf? (rows.field? "subscribers")
  let subscriptions ← listOf? subscriptionOf? (rows.field? "subscriptions")
  let lastMember ← intOf? (d.field? "last_member")
  return ⟨version, tables, topics, members, subscriptions, lastMember.toNat⟩

def node (text : String) : Node :=
  match (Json.read? text).bind database? with
  | some db => .database db
  | none => .ofText text

end Snapshot

end PubSub
