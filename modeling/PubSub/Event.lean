import PubSub.Database

/-!
# The log

What calls report as they go. Every event has a name, a level and named fields.
-/

namespace PubSub

inductive Level where
  | notset
  | debug
  | info
  | warning
  | error
  | critical
  deriving DecidableEq

namespace Level

def all : List Level := [.critical, .error, .warning, .info, .debug, .notset]

def name : Level → String
  | .notset => "notset"
  | .debug => "debug"
  | .info => "info"
  | .warning => "warning"
  | .error => "error"
  | .critical => "critical"

def ofName? (s : String) : Option Level := all.find? fun level => level.name = s

def rank : Level → Nat
  | .notset => 0
  | .debug => 10
  | .info => 20
  | .warning => 30
  | .error => 40
  | .critical => 50

def admits (kept level : Level) : Bool := kept.rank ≤ level.rank

end Level

inductive Event where
  | schemaApplied (path : List Text.Point) (fromVersion : Int)
  | storeOpened (path : List Text.Point)
  | storeClosed (path : List Text.Point)
  | rollbackFailed (fault : Fault)
  | topicRegistered (topic publisher : String) (enabled : Flag)
  | topicDeregistered (topic : String) (rows : Nat)
  | notificationChanged (topic : String) (enabled : Flag)
  | subscriberAdded (topic subscriber : String)
  | duplicateIgnored (topic subscriber : String)
  | subscriberRemoved (topic subscriber : String)
  | topicCleared (topic : String) (rows : Nat)
  | transition (topic : String) (current next : State) (requestId : Option String)
  | purged (topic : String)
  | deprecatedPurged (rows : Nat)
  | publishDenied (topic reason : String)
  | unknownResponse (requestId : Option String)
  | staleResponse (requestId : Option String) (topic : String) (accepted : Bool) (error : String)
  | healed (topic subscriber : String) (state : State) (registered : Bool)
  | settingsLoaded (path command : String)

namespace Event

def name : Event → String
  | .schemaApplied .. => "store.schema_applied"
  | .storeOpened _ => "store.opened"
  | .storeClosed _ => "store.closed"
  | .rollbackFailed _ => "store.rollback_failed"
  | .topicRegistered .. => "topics.registered"
  | .topicDeregistered .. => "topics.deregistered"
  | .notificationChanged .. => "topics.notification_changed"
  | .subscriberAdded .. => "subscribers.added"
  | .duplicateIgnored .. => "subscribers.duplicate_ignored"
  | .subscriberRemoved .. => "subscribers.removed"
  | .topicCleared .. => "subscribers.topic_cleared"
  | .transition .. => "subscriptions.transition"
  | .purged _ => "subscriptions.purged"
  | .deprecatedPurged _ => "subscriptions.deprecated_purged"
  | .publishDenied .. => "registry.publish_denied"
  | .unknownResponse _ => "registry.response_unknown_request"
  | .staleResponse .. => "registry.response_stale"
  | .healed .. => "registry.healed"
  | .settingsLoaded .. => "registry.config_loaded"

def level : Event → Level
  | .rollbackFailed _ | .unknownResponse _ | .staleResponse .. => .warning
  | .duplicateIgnored .. | .settingsLoaded .. => .debug
  | _ => .info

def rowFields (topic : String) (rows : Nat) : List (String × Document) :=
  [("topic", .text topic), ("rows", .int rows)]

def pairFields (topic subscriber : String) : List (String × Document) :=
  [("topic", .text topic), ("subscriber", .text subscriber)]

def fields : Event → List (String × Document)
  | .schemaApplied path fromVersion =>
    [("path", .ofPoints path), ("from_version", .int fromVersion)]
  | .storeOpened path => [("path", .ofPoints path), ("schema_version", .int schemaVersion)]
  | .storeClosed path => [("path", .ofPoints path)]
  | .rollbackFailed fault => [("error", .text fault.message)]
  | .topicRegistered topic publisher enabled =>
    [("topic", .text topic), ("publisher", .text publisher),
      ("notification_enabled", enabled.document)]
  | .topicDeregistered topic rows => rowFields topic rows
  | .notificationChanged topic enabled => [("topic", .text topic), ("enabled", enabled.document)]
  | .subscriberAdded topic subscriber => pairFields topic subscriber
  | .duplicateIgnored topic subscriber => pairFields topic subscriber
  | .subscriberRemoved topic subscriber => pairFields topic subscriber
  | .topicCleared topic rows => rowFields topic rows
  | .transition topic current next requestId =>
    [("topic", .text topic), ("from_state", .text current.name), ("to_state", .text next.name),
      ("request_id", .ofOption requestId)]
  | .purged topic => [("topic", .text topic)]
  | .deprecatedPurged rows => [("rows", .int rows)]
  | .publishDenied topic reason => [("topic", .text topic), ("reason", .text reason)]
  | .unknownResponse requestId => [("request_id", .ofOption requestId)]
  | .staleResponse requestId topic accepted error =>
    [("request_id", .ofOption requestId), ("topic", .text topic), ("accepted", .bool accepted),
      ("error", .text error)]
  | .healed topic subscriber state registered =>
    [("topic", .text topic), ("subscriber", .text subscriber), ("state", .text state.name),
      ("registered", .bool registered)]
  | .settingsLoaded path command => [("config_path", .text path), ("command", .text command)]

def document (e : Event) : Document :=
  .record (e.fields ++ [("event", .text e.name), ("level", .text e.level.name)])

end Event

end PubSub
