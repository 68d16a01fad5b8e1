import PubSub.Script

/-!
# The negotiation of subscriptions

One record per topic, moved by requests, resolutions and withdrawals. A step
that the table of `State.canBecome` does not list is refused, and the record
stays as it is. Memberships are not touched here.
-/

namespace PubSub

structure SubscriptionRecord where
  topic : String
  state : State
  requestId : Option String
  deriving DecidableEq

def SubscriptionRow.record (row : SubscriptionRow) : Except Failure SubscriptionRecord :=
  match State.ofCode? row.code with
  | some state => .ok ⟨row.topic, state, row.requestId⟩
  | none => .error (.unknownCode row.code)

/-- A topic without a record counts as unsubscribed. -/
def SubscriptionRecord.stateOf (record : Option SubscriptionRecord) : State :=
  match record with
  | some record => record.state
  | none => .unsubscribed

namespace Negotiation

def lookUp (topic : String) : Script (Option SubscriptionRecord) := do
  match ← .see .subscriptions (·.subscription? topic) with
  | some row => .ofExcept (row.record.map some)
  | none => return none

def stateNow (topic : String) : Script State :=
  (lookUp topic).bind fun record => .done (SubscriptionRecord.stateOf record)

def check (topic : String) (current next : State) : Script Unit :=
  if current.canBecome next then .done () else .fail (.invalidTransition topic current next)

/-! ## Requests -/

/-- Records a request as pending, if the step to it is permitted. -/
def request (topic : String) (next : State) (requestId : String) : Script (Conclusion Unit) := do
  let current ← stateNow topic
  check topic current next
  let _ ← .issue (.putSubscription topic next (some requestId))
  return .answer () [.event (.transition topic current next (some requestId))]

def requestSubscribe (topic requestId : String) : Operation Unit where
  refusal := required "Request id" requestId
  body := do
    let registered ← .see .topics fun db => (db.topic? topic).isSome
    if registered then request topic .subscribePending requestId
    else .fail (.notFound "topic" topic)

def requestUnsubscribe (topic requestId : String) : Operation Unit where
  refusal := required "Request id" requestId
  body := request topic .unsubscribePending requestId

/-! ## Resolutions -/

/-- Resolves what is pending, for or against, and answers the new state. -/
def resolve (topic : String) (accepted : Bool) : Operation State where
  body := do
    let record ← lookUp topic
    let current := SubscriptionRecord.stateOf record
    match current.resolution? with
    | none => .fail (.invalidTransition topic current (.expected accepted))
    | some resolution =>
      let next := resolution.outcome accepted
      check topic current next
      let _ ← .issue (.setState topic next)
      let requestId := record.bind (·.requestId)
      return .answer next [.event (.transition topic current next requestId)]

def confirm (topic : String) : Operation State := resolve topic true

def deny (topic : String) : Operation State := resolve topic false

/-- The authority withdraws the topic, whatever its state. The request stays on record. -/
def retire (topic : String) : Operation Unit where
  body := do
    let record ← lookUp topic
    let current := SubscriptionRecord.stateOf record
    let _ ← .issue (.putSubscription topic .deprecated (record.bind (·.requestId)))
    if current = .deprecated then return .answer ()
    else return .answer () [.event (.transition topic current .deprecated none)]

/-! ## Queries -/

def currentState (topic : String) : Operation State where
  body := do return .answer (← stateNow topic)

def get (topic : String) : Operation (Option SubscriptionRecord) where
  body := do return .answer (← lookUp topic)

/-- The topic of the record that was written last among those that carry the request. -/
def topicOfRequest (requestId : Option String) : Operation (Option String) where
  body := do
    let row ← .see .subscriptions (·.carrier? requestId)
    return .answer (row.map (·.topic))

def byTopic (a b : SubscriptionRow) : Bool := a.topic ≤ b.topic

def inStates (states : List State) : Script (List SubscriptionRow) :=
  .see .subscriptions fun db =>
    (db.subscriptions.filter fun s => (states.map State.code).contains s.code).mergeSort byTopic

def effective : Operation (List String) where
  body := do return .answer ((← inStates State.effective).map (·.topic))

def pending : Operation (List SubscriptionRecord) where
  body := do return ⟨[], (← inStates State.pending).mapM SubscriptionRow.record⟩

def countDeprecated : Operation Nat where
  body := do
    return .answer (← .see .subscriptions fun db =>
      db.subscriptions.countP (·.code = State.deprecated.code))

/-! ## Removal of records -/

def purge (topic : String) : Operation Bool where
  body := do
    let rows ← .issue (.dropSubscription topic)
    if 0 < rows then return .answer true [.event (.purged topic)]
    else return .answer false

def purgeDeprecated : Operation Nat where
  body := do
    let rows ← .issue (.dropInState .deprecated)
    return .answer rows [.event (.deprecatedPurged rows)]

end Negotiation

end PubSub
