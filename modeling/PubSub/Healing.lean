import PubSub.Directory
import PubSub.Membership
import PubSub.Negotiation

/-!
# Healing

Brings one membership in line with the state of its topic. A topic that is no
longer registered never regains members, and nothing is done while a request is
pending.
-/

namespace PubSub.Healing

/-- The repair that is due, and whether it changes a membership. -/
def repair (topic subscriber : String) (registered : Bool) (record : Option SubscriptionRecord)
    (present : Bool) : Script Bool :=
  let state := SubscriptionRecord.stateOf record
  if !registered then
    if present then (Membership.remove topic subscriber).inline else .done false
  else if state = .subscribed ∧ present = false then
    (Membership.add topic subscriber .empty (some 0) (record.bind (·.requestId))).inline
  else if present = true ∧ (state = .unsubscribed ∨ state = .deprecated) then
    (Membership.remove topic subscriber).inline
  else .done false

def heal (topic subscriber : String) : Operation Bool where
  body := do
    let registered ← (Directory.isRegistered topic).inline
    let record ← (Negotiation.get topic).inline
    let present ← (Membership.isSubscribed topic subscriber).inline
    if ← repair topic subscriber registered record present then
      let state := SubscriptionRecord.stateOf record
      return .answer true
        [.count "memberships_healed_total", .event (.healed topic subscriber state registered)]
    else
      return .answer false

end PubSub.Healing
