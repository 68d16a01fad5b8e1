import PubSub.Proofs.Responses

/-!
# What calls do to subscriptions

`Moved` lists everything that a call which returns can have done to the rows of
subscriptions: nothing, a request written, one topic resolved, one withdrawn, or
rows dropped. `moved_of_returns` looks at all calls once, and no later proof
does so again.
-/

namespace PubSub

namespace Call

/-- The topic and the request id that a request names. -/
def request? : Call → Option (String × String)
  | .requestSubscribe topic requestId | .requestUnsubscribe topic requestId =>
    some (topic, requestId)
  | _ => none

/-- The request that a response was applied for, and whether that was granted. -/
def applied? : Call → Reply → Option (String × Bool)
  | .handleResponse (some requestId) accepted _ _ _, .outcome .applied => some (requestId, accepted)
  | _, _ => none

def spared? : Call → Option (SubscriptionRow → Bool)
  | .purge topic => some (·.topic ≠ topic)
  | .purgeDeprecated => some (·.code ≠ State.deprecated.code)
  | _ => none

end Call

def Database.Named (db : Database) : Prop := ∀ row ∈ db.topics, row.topic ≠ ""

theorem Database.Named.congr {db db' : Database} (ht : db'.topics = db.topics) (h : db.Named) :
    db'.Named := fun row hr => h row (ht ▸ hr)

theorem Database.Named.topic {db : Database} (h : db.Named) {topic : String}
    (ht : (db.topic? topic).isSome) : topic ≠ "" := by
  obtain ⟨row, hr⟩ := Option.isSome_iff_exists.mp ht
  have he : row.topic = topic := by simpa using List.find?_some hr
  exact he ▸ h row (List.mem_of_find?_eq_some hr)

/-- What a call that returned did to the rows of subscriptions. -/
inductive Moved (db db' : Database) (call : Call) (reply : Reply) : Prop where
  | nowhere (hs : db'.subscriptions = db.subscriptions) (hn : db.Named → db'.Named)
    (hq : call.request? = none) (ha : call.applied? reply = none)
  | requested (topic requestId : String) (next : State)
    (hq : call.request? = some (topic, requestId)) (hp : next.isPending = true)
    (hstep : (db.stateOf topic).canBecome next = true)
    (hreg : (db.topic? topic).isSome ∨ db.stateOf topic = .subscribed)
    (hd : db' = db.putSubscription ⟨topic, next.code, some requestId⟩)
  | resolved (topic : String) (resolution : Resolution) (accepted : Bool)
    (hr : (db.stateOf topic).resolution? = some resolution)
    (hs : db'.subscriptions =
      (db.setState topic (resolution.outcome accepted)).2.subscriptions)
    (ht : db'.topics = db.topics) (hp : call.spared? = none) (hq : call.request? = none)
    (ha : ∀ requestId granted, call.applied? reply = some (requestId, granted) →
      granted = accepted ∧ ∃ row, db.carrier? (some requestId) = some row ∧ row.topic = topic)
  | withdrawn (topic : String)
    (hd : db' = db.putSubscription ⟨topic, State.deprecated.code, db.requestOf topic⟩)
    (hp : call.spared? = none) (hq : call.request? = none) (ha : call.applied? reply = none)
  | dropped (p : SubscriptionRow → Bool) (hp : call.spared? = some p)
    (hd : db' = { db with subscriptions := db.subscriptions.filter p })
    (hq : call.request? = none) (ha : call.applied? reply = none)

section
variable {db db' : Database} (h : db.WellFormed)

include h

theorem Negotiation.moved_of_resolve {topic : String} {accepted : Bool} {state : State}
    (hr : (resolve topic accepted).Returns db state db') {call : Call} {reply : Reply}
    (hp : call.spared? = none) (hq : call.request? = none) (ha : call.applied? reply = none) :
    Moved db db' call reply := by
  obtain ⟨resolution, hres, rfl, rfl⟩ := (resolve_returns h).mp hr
  refine .resolved topic resolution accepted hres rfl rfl hp hq fun requestId granted he => ?_
  rw [ha] at he
  cases he

theorem Response.moved_of_handle {requestId : Option String} {accepted : Bool}
    {subscriber : String} {details : Details} {expiry : Option Int} {outcome : ResponseOutcome}
    (hr : (handle requestId accepted subscriber details expiry).Returns db outcome db') :
    Moved db db' (.handleResponse requestId accepted subscriber details expiry)
      (.outcome outcome) := by
  rcases handle_returns h hr with ⟨rfl, rfl⟩ | ⟨rfl, row, state, hc, happ⟩
  · exact .nowhere rfl id rfl (by cases requestId <;> rfl)
  · obtain ⟨resolution, hres, rfl, ht, hs⟩ := apply_ok h happ
    refine .resolved row.topic resolution accepted hres hs ht rfl rfl fun r granted he => ?_
    cases requestId with
    | none => cases he
    | some requestId =>
      cases he
      exact ⟨rfl, row, hc, rfl⟩

theorem moved_of_returns {call : Call} {reply : Reply}
    (hr : call.operation.Returns db reply db') : Moved db db' call reply := by
  cases hq : call.isQuery with
  | true =>
    have hd : db' = db := by
      have hu := (Operation.inline_reads (Call.reads_of_isQuery hq)).unchanged db
      rw [hr] at hu
      exact hu
    subst hd
    refine .nowhere rfl id ?_ ?_
    · cases call <;> first | rfl | cases hq
    · cases call <;> first | rfl | cases hq
  | false =>
    cases call with
    | registerTopic topic publisher details enabled =>
      obtain ⟨_, ho, rfl⟩ := Operation.returns_map.mp hr
      obtain ⟨hne, row, rfl, rfl⟩ := Directory.register_returns ho
      refine .nowhere rfl (fun hn row' hm => ?_) rfl rfl
      simp only [Database.putTopic, List.mem_append, List.mem_singleton] at hm
      rcases hm with hm | rfl
      · exact hn row' (List.mem_filter.mp hm).1
      · exact hne
    | deregisterTopic topic =>
      obtain ⟨_, ho, rfl⟩ := Operation.returns_map.mp hr
      obtain rfl := Directory.deregister_returns ho
      exact .nowhere rfl (fun hn row hm => hn row (List.mem_filter.mp hm).1) rfl rfl
    | setNotification topic enabled =>
      obtain ⟨_, ho, rfl⟩ := Operation.returns_map.mp hr
      obtain ⟨code, rfl⟩ := Directory.setNotification_returns ho
      refine .nowhere rfl (fun hn row hm => ?_) rfl rfl
      obtain ⟨row', hm', rfl⟩ := List.mem_map.mp hm
      split <;> exact hn row' hm'
    | addSubscriber topic subscriber details expiry requestId =>
      obtain ⟨_, ho, rfl⟩ := Operation.returns_map.mp hr
      obtain ⟨-, -, -, written, rows, -, -, hrun⟩ := (Membership.add_returns h).mp ho
      obtain ⟨ht, hs, -⟩ := Database.addMember_frame hrun
      exact .nowhere hs (.congr ht) rfl rfl
    | removeSubscriber topic subscriber =>
      obtain ⟨_, ho, rfl⟩ := Operation.returns_map.mp hr
      obtain ⟨-, rfl⟩ := (Membership.remove_returns h).mp ho
      exact .nowhere rfl id rfl rfl
    | removeAllForTopic topic =>
      obtain ⟨_, ho, rfl⟩ := Operation.returns_map.mp hr
      cases Membership.removeAll_returns ho
      exact .nowhere rfl id rfl rfl
    | requestSubscribe topic requestId =>
      obtain ⟨_, ho, rfl⟩ := Operation.returns_map.mp hr
      obtain ⟨-, hreg, hstep, rfl⟩ := (Negotiation.requestSubscribe_returns h).mp ho
      exact .requested topic requestId .subscribePending rfl rfl hstep (.inl hreg) rfl
    | requestUnsubscribe topic requestId =>
      obtain ⟨_, ho, rfl⟩ := Operation.returns_map.mp hr
      obtain ⟨-, hstep, rfl⟩ := (Negotiation.requestUnsubscribe_returns h).mp ho
      refine .requested topic requestId .unsubscribePending rfl rfl hstep (.inr ?_) rfl
      cases hs : db.stateOf topic <;> rw [hs] at hstep <;> revert hstep <;> decide
    | confirm topic =>
      obtain ⟨_, ho, rfl⟩ := Operation.returns_map.mp hr
      exact Negotiation.moved_of_resolve h ho rfl rfl rfl
    | deny topic =>
      obtain ⟨_, ho, rfl⟩ := Operation.returns_map.mp hr
      exact Negotiation.moved_of_resolve h ho rfl rfl rfl
    | retire topic =>
      obtain ⟨_, ho, rfl⟩ := Operation.returns_map.mp hr
      exact .withdrawn topic ((Negotiation.retire_returns h).mp ho) rfl rfl rfl
    | purge topic =>
      obtain ⟨_, ho, rfl⟩ := Operation.returns_map.mp hr
      exact .dropped _ rfl (Negotiation.purge_returns ho).2 rfl rfl
    | purgeDeprecated =>
      obtain ⟨_, ho, rfl⟩ := Operation.returns_map.mp hr
      cases Negotiation.purgeDeprecated_returns ho
      exact .dropped _ rfl rfl rfl rfl
    | applyConfirmation topic subscriber details expiry =>
      obtain ⟨_, ho, rfl⟩ := Operation.returns_map.mp hr
      obtain ⟨resolution, hres, rfl, ht, hs⟩ :=
        Response.apply_ok h (Response.applyConfirmation_returns.mp ho)
      exact .resolved topic resolution true hres hs ht rfl rfl fun _ _ he => by cases he
    | applyDenial topic =>
      obtain ⟨_, ho, rfl⟩ := Operation.returns_map.mp hr
      exact Negotiation.moved_of_resolve h (Response.applyDenial_returns.mp ho) rfl rfl rfl
    | handleResponse requestId accepted subscriber details expiry =>
      obtain ⟨_, ho, rfl⟩ := Operation.returns_map.mp hr
      exact Response.moved_of_handle h ho
    | handleWithdrawal topic =>
      obtain ⟨_, ho, rfl⟩ := Operation.returns_map.mp hr
      exact .withdrawn topic
        ((Negotiation.retire_returns h).mp (Response.handleWithdrawal_returns.mp ho)) rfl rfl rfl
    | heal topic subscriber =>
      obtain ⟨_, ho, rfl⟩ := Operation.returns_map.mp hr
      have hs := Healing.heal_sets h ho
      exact .nowhere hs.subscriptions (.congr hs.topics) rfl rfl
    | _ => cases hq

end

end PubSub
