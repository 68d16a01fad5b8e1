import PubSub.Script

/-!
# The directory of topics

Each registered topic has a publisher and a notification setting. The last
registration counts.
-/

namespace PubSub

structure TopicRecord where
  topic : String
  publisher : String
  details : String
  notificationEnabled : Bool
  deriving DecidableEq

def TopicRow.record (row : TopicRow) : TopicRecord :=
  ⟨row.topic, row.publisher, row.details, row.notification ≠ 0⟩

namespace Directory

def lookUp (topic : String) : Script (Option TopicRecord) :=
  .see .topics fun db => (db.topic? topic).map TopicRow.record

def holds (topic : String) : Script Bool := .see .topics fun db => (db.topic? topic).isSome

/-- Without details the stored ones are empty. -/
def register (topic publisher : String) (details : Option String) (enabled : Flag) :
    Operation Unit where
  refusal := required "Topic" topic <|> required "Publisher" publisher
  body := do
    let code ← .ofExcept enabled.code
    let _ ← .issue (.putTopic ⟨topic, publisher, details.getD "", code⟩)
    return .answer () [.event (.topicRegistered topic publisher enabled)]

/-- The topic goes with all its memberships; the answer counts the rows of both tables. -/
def deregister (topic : String) : Operation Nat where
  body := do
    let topics ← .issue (.dropTopic topic)
    let members ← .issue (.dropMembers topic)
    let rows := topics + members
    return .answer rows [.event (.topicDeregistered topic rows)]

/-- Answers whether the stored setting changed. -/
def setNotification (topic : String) (enabled : Flag) : Operation Bool where
  body := do
    let code ← .ofExcept enabled.code
    let rows ← .issue (.setNotification topic code)
    if 0 < rows then
      return .answer true [.event (.notificationChanged topic enabled)]
    else if ← holds topic then
      return .answer false
    else
      .fail (.notFound "topic" topic)

def get (topic : String) : Operation (Option TopicRecord) where
  body := do return .answer (← lookUp topic)

def isRegistered (topic : String) : Operation Bool where
  body := do return .answer (← holds topic)

def reading {α : Type} (topic : String) (f : TopicRecord → α) : Operation α where
  body := do
    match ← lookUp topic with
    | some record => return .answer (f record)
    | none => return .refuse (.notFound "topic" topic)

def publisher (topic : String) : Operation String := reading topic (·.publisher)

def notificationEnabled (topic : String) : Operation Bool := reading topic (·.notificationEnabled)

def activePublisher (topic : String) : Operation (Option String) :=
  reading topic fun record => if record.notificationEnabled then some record.publisher else none

def count : Operation Nat where
  body := do return .answer (← .see .topics (·.topics.length))

end Directory

end PubSub
