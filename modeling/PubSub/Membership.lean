import PubSub.Script

/-!
# Memberships

Which subscribers belong to which topics, in the order in which they came. A
second insert of a pair is absorbed.
-/

namespace PubSub

structure MemberRecord where
  id : Int
  topic : String
  subscriber : String
  details : List Document
  expiry : Int
  requestId : Option String

def MemberRow.record (row : MemberRow) : Except Failure MemberRecord :=
  (Details.decode row.details).map fun details =>
    ⟨row.id, row.topic, row.subscriber, details, row.expiry, row.requestId⟩

namespace Membership

/-! ## Changes -/

/-- Answers whether the membership is new. -/
def add (topic subscriber : String) (details : Details) (expiry : Option Int)
    (requestId : Option String) : Operation Bool where
  refusal := required "Topic" topic <|> required "Subscriber" subscriber
  body := do
    let written ← .ofExcept details.encode
    let rows ← .issue (.addMember ⟨topic, subscriber, written, expiry, requestId⟩)
    if 0 < rows then
      return .answer true [.event (.subscriberAdded topic subscriber)]
    else
      return .answer false [.event (.duplicateIgnored topic subscriber)]

def remove (topic subscriber : String) : Operation Bool where
  body := do
    let rows ← .issue (.dropMember topic subscriber)
    if 0 < rows then
      return .answer true [.event (.subscriberRemoved topic subscriber)]
    else
      return .answer false

def removeAll (topic : String) : Operation Nat where
  body := do
    let rows ← .issue (.dropMembers topic)
    return .answer rows [.event (.topicCleared topic rows)]

/-! ## Queries

Stored details are read after the transaction has ended. -/

def subscribers (topic : String) : Operation (List String) where
  body := do
    let rows ← .see .subscribers (·.members.filter (·.topic = topic))
    return .answer (rows.map (·.subscriber))

def topicsOf (subscriber : String) : Operation (List String) where
  body := do
    let rows ← .see .subscribers (·.members.filter (·.subscriber = subscriber))
    return .answer (rows.map (·.topic))

def concludeOne : Option MemberRow → Conclusion (Option MemberRecord)
  | some row => ⟨[], row.record.map some⟩
  | none => .answer none

def first (topic : String) : Operation (Option MemberRecord) where
  body := do return concludeOne (← .see .subscribers (·.members.find? (·.topic = topic)))

def get (topic subscriber : String) : Operation (Option MemberRecord) where
  body := do return concludeOne (← .see .subscribers (·.member? topic subscriber))

def isSubscribed (topic subscriber : String) : Operation Bool :=
  (get topic subscriber).map Option.isSome

def fetch (wanted : MemberRow → Bool) : Operation (List MemberRecord) where
  body := do
    let rows ← .see .subscribers (·.members.filter wanted)
    return ⟨[], rows.mapM MemberRow.record⟩

def ofTopic (topic : String) : Operation (List MemberRecord) := fetch (·.topic = topic)

def ofSubscriber (subscriber : String) : Operation (List MemberRecord) :=
  fetch (·.subscriber = subscriber)

def all : Operation (List MemberRecord) := fetch fun _ => true

def count : Operation Nat where
  body := do return .answer (← .see .subscribers (·.members.length))

end Membership

end PubSub
