import PubSub.Healing
import PubSub.Publishing
import PubSub.Response

/-!
# Calls

Every call of the registry with its arguments, and the operation it stands for.
Answers of all kinds are collected in one type, so that runs of calls can be
spoken of.
-/

namespace PubSub

inductive Reply where
  | done
  | truth (b : Bool)
  | number (n : Int)
  | name (s : String)
  | optName (s : Option String)
  | names (s : List String)
  | topic (record : Option TopicRecord)
  | member (record : Option MemberRecord)
  | members (records : List MemberRecord)
  | state (s : State)
  | subscription (record : Option SubscriptionRecord)
  | subscriptions (records : List SubscriptionRecord)
  | check (c : PublishCheck)
  | outcome (o : ResponseOutcome)

inductive Call where
  /- Topics. -/
  | registerTopic (topic publisher : String) (details : Option String) (enabled : Flag)
  | deregisterTopic (topic : String)
  | setNotification (topic : String) (enabled : Flag)
  | getTopic (topic : String)
  | isRegistered (topic : String)
  | getPublisher (topic : String)
  | isNotificationEnabled (topic : String)
  | getActivePublisher (topic : String)
  | countTopics
  /- Memberships. -/
  | addSubscriber (topic subscriber : String) (details : Details) (expiry : Option Int)
      (requestId : Option String)
  | removeSubscriber (topic subscriber : String)
  | removeAllForTopic (topic : String)
  | listSubscribers (topic : String)
  | listTopicsOf (subscriber : String)
  | firstSubscriber (topic : String)
  | getSubscriber (topic subscriber : String)
  | isSubscribed (topic subscriber : String)
  | fetchByTopic (topic : String)
  | fetchBySubscriber (subscriber : String)
  | allMembers
  | countSubscribers
  /- Subscriptions. -/
  | requestSubscribe (topic requestId : String)
  | requestUnsubscribe (topic requestId : String)
  | confirm (topic : String)
  | deny (topic : String)
  | retire (topic : String)
  | currentState (topic : String)
  | getSubscription (topic : String)
  | topicOfRequest (requestId : Option String)
  | listEffective
  | listPending
  | countDeprecated
  | purge (topic : String)
  | purgeDeprecated
  /- The authority and the publish path. -/
  | checkPublish (topic : String)
  | applyConfirmation (topic subscriber : String) (details : Details) (expiry : Option Int)
  | applyDenial (topic : String)
  | handleResponse (requestId : Option String) (accepted : Bool) (subscriber : String)
      (details : Details) (expiry : Option Int)
  | handleWithdrawal (topic : String)
  | heal (topic subscriber : String)

def doneReply (_ : Unit) : Reply := .done

def countReply (n : Nat) : Reply := .number n

def Call.operation : Call → Operation Reply
  | .registerTopic topic publisher details enabled =>
    (Directory.register topic publisher details enabled).map doneReply
  | .deregisterTopic topic => (Directory.deregister topic).map countReply
  | .setNotification topic enabled => (Directory.setNotification topic enabled).map .truth
  | .getTopic topic => (Directory.get topic).map .topic
  | .isRegistered topic => (Directory.isRegistered topic).map .truth
  | .getPublisher topic => (Directory.publisher topic).map .name
  | .isNotificationEnabled topic => (Directory.notificationEnabled topic).map .truth
  | .getActivePublisher topic => (Directory.activePublisher topic).map .optName
  | .countTopics => Directory.count.map countReply
  | .addSubscriber topic subscriber details expiry requestId =>
    (Membership.add topic subscriber details expiry requestId).map .truth
  | .removeSubscriber topic subscriber => (Membership.remove topic subscriber).map .truth
  | .removeAllForTopic topic => (Membership.removeAll topic).map countReply
  | .listSubscribers topic => (Membership.subscribers topic).map .names
  | .listTopicsOf subscriber => (Membership.topicsOf subscriber).map .names
  | .firstSubscriber topic => (Membership.first topic).map .member
  | .getSubscriber topic subscriber => (Membership.get topic subscriber).map .member
  | .isSubscribed topic subscriber => (Membership.isSubscribed topic subscriber).map .truth
  | .fetchByTopic topic => (Membership.ofTopic topic).map .members
  | .fetchBySubscriber subscriber => (Membership.ofSubscriber subscriber).map .members
  | .allMembers => Membership.all.map .members
  | .countSubscribers => Membership.count.map countReply
  | .requestSubscribe topic requestId =>
    (Negotiation.requestSubscribe topic requestId).map doneReply
  | .requestUnsubscribe topic requestId =>
    (Negotiation.requestUnsubscribe topic requestId).map doneReply
  | .confirm topic => (Negotiation.confirm topic).map .state
  | .deny topic => (Negotiation.deny topic).map .state
  | .retire topic => (Negotiation.retire topic).map doneReply
  | .currentState topic => (Negotiation.currentState topic).map .state
  | .getSubscription topic => (Negotiation.get topic).map .subscription
  | .topicOfRequest requestId => (Negotiation.topicOfRequest requestId).map .optName
  | .listEffective => Negotiation.effective.map .names
  | .listPending => Negotiation.pending.map .subscriptions
  | .countDeprecated => Negotiation.countDeprecated.map countReply
  | .purge topic => (Negotiation.purge topic).map .truth
  | .purgeDeprecated => Negotiation.purgeDeprecated.map countReply
  | .checkPublish topic => (Publishing.check topic).map .check
  | .applyConfirmation topic subscriber details expiry =>
    (Response.applyConfirmation topic subscriber details expiry).map .state
  | .applyDenial topic => (Response.applyDenial topic).map .state
  | .handleResponse requestId accepted subscriber details expiry =>
    (Response.handle requestId accepted subscriber details expiry).map .outcome
  | .handleWithdrawal topic => (Response.handleWithdrawal topic).map doneReply
  | .heal topic subscriber => (Healing.heal topic subscriber).map .truth

end PubSub
