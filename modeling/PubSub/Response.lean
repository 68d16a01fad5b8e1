import PubSub.Membership
import PubSub.Negotiation

/-!
# Responses of the authority

A confirmed subscribe adds the subscriber and a confirmed unsubscribe removes
it, together with the change of state. Responses that no longer fit are dropped.
Counters move only when the outcome is certain.
-/

namespace PubSub

inductive ResponseOutcome where
  | applied
  | ignored
  deriving DecidableEq

def ResponseOutcome.name : ResponseOutcome → String
  | .applied => "applied"
  | .ignored => "ignored"

namespace Response

def confirmWithMember (topic subscriber : String) (details : Details) (expiry : Option Int) :
    Script State := do
  let record ← (Negotiation.get topic).inline
  let state ← (Negotiation.confirm topic).inline
  if state = .subscribed then
    let requestId := record.bind (·.requestId)
    let _ ← (Membership.add topic subscriber details expiry requestId).inline
  else
    let _ ← (Membership.remove topic subscriber).inline
  return state

/-! ## Direct responses -/

/-- Counts a step that was taken, and one that was refused as such. -/
def counted {α : Type} : Except Failure α → Conclusion α
  | .ok value => .answer value [.count "transitions_total"]
  | .error failure =>
    .refuse failure
      (if failure.isInvalidTransition then [.count "transitions_rejected_total"] else [])

def applyConfirmation (topic subscriber : String) (details : Details) (expiry : Option Int) :
    Operation State :=
  Operation.concluding
    { body := (confirmWithMember topic subscriber details expiry).bind fun state =>
        .done (.answer state) }
    counted

def applyDenial (topic : String) : Operation State := (Negotiation.deny topic).concluding counted

/-- The authority withdraws the topic. A repeated withdrawal counts again. -/
def handleWithdrawal (topic : String) : Operation Unit :=
  (Negotiation.retire topic).concluding fun
    | .ok () => .answer () [.count "transitions_total"]
    | .error failure => .refuse failure

/-! ## Responses by request -/

def unknown (requestId : Option String) : Conclusion ResponseOutcome :=
  .answer .ignored [.count "responses_ignored_total", .event (.unknownResponse requestId)]

def stale (requestId : Option String) (topic : String) (accepted : Bool) (failure : Failure) :
    Conclusion ResponseOutcome :=
  .answer .ignored
    ((if failure.isInvalidTransition then [.count "transitions_rejected_total"] else []) ++
      [.count "responses_ignored_total",
        .event (.staleResponse requestId topic accepted failure.message)])

def apply (topic : String) (accepted : Bool) (subscriber : String) (details : Details)
    (expiry : Option Int) : Script State :=
  if accepted then confirmWithMember topic subscriber details expiry
  else (Negotiation.deny topic).inline

def handle (requestId : Option String) (accepted : Bool) (subscriber : String) (details : Details)
    (expiry : Option Int) : Operation ResponseOutcome where
  body := do
    match ← (Negotiation.topicOfRequest requestId).inline with
    | none => return unknown requestId
    | some topic =>
      match ← (apply topic accepted subscriber details expiry).catching Failure.isStale with
      | .ok _ => return .answer .applied [.count "transitions_total"]
      | .error failure => return stale requestId topic accepted failure

end Response

end PubSub
