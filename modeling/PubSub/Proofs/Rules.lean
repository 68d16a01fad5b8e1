import PubSub.Proofs.Refusals

/-!
# Failures of the registry

A call fails by itself only where a rule of the registry is broken or where it
cannot read what it was given or what is stored (`Call.fails_by_rules`). It never
makes up a failure of the store, of the engine below it or of its connection.
-/

namespace PubSub

/-- A failure of the registry, and none that a store, its engine or its connection brings. -/
def Failure.FromRegistry : Failure → Prop
  | .notFound .. | .invalidTransition .. | .empty _ | .unknownCode _ | .notIterable _
  | .unreadableDetails _ | .oversized | .missingNumber => True
  | _ => False

/-! ## Parts of calls -/

theorem required_fromRegistry {what value : String} {failure : Failure}
    (h : required what value = some failure) : failure.FromRegistry := by
  rw [eq_of_required h]
  trivial

theorem Details.decode_fromRegistry {raw : String} {failure : Failure}
    (h : decode raw = .error failure) : failure.FromRegistry := by
  unfold decode at h
  split at h
  · cases h
  · split at h
    · cases h
      trivial
    · rename_i d _
      have hd := error_of_map h
      cases d <;> cases hd <;> trivial

theorem MemberRow.record_fromRegistry {row : MemberRow} {failure : Failure}
    (h : row.record = .error failure) : failure.FromRegistry :=
  Details.decode_fromRegistry (error_of_map h)

theorem SubscriptionRow.record_fromRegistry {row : SubscriptionRow} {failure : Failure}
    (h : row.record = .error failure) : failure.FromRegistry := by
  unfold record at h
  split at h
  · cases h
  · cases h
    trivial

theorem Flag.code_fromRegistry {flag : Flag} {failure : Failure} (h : flag.code = .error failure) :
    failure.FromRegistry := by
  rw [Flag.eq_of_code_error h]
  trivial

theorem Script.Fails.next {α β : Type} {Q : Failure → Prop} {s : Script α} {f : α → Script β}
    (hs : s.Fails Q) (hf : ∀ a, (f a).Fails Q) : (s.bind f).Fails Q :=
  hs.bind (.true s) fun a _ => hf a

theorem Script.Fails.catching {α : Type} {Q : Failure → Prop} (caught : Failure → Bool)
    {s : Script α} (hs : s.Fails Q) : (s.catching caught).Fails Q := by
  induction s with
  | done value => trivial
  | fail failure =>
    unfold Script.catching
    split
    · trivial
    · exact hs
  | look table next ih => exact fun db => ih db (hs db)
  | write w next ih => exact fun rows => ih rows (hs rows)
  | note n next ih => exact ih hs

namespace Operation

variable {α β : Type} {Q : Failure → Prop}

theorem Fails.concluding {op : Operation α} (h : op.Fails Q) {f : Except Failure α → Conclusion β}
    (hf : ∀ result failure, (f result).result = .error failure → result = .error failure) :
    (op.concluding f).Fails Q where
  refusal := h.refusal
  body := h.body.next fun _ => trivial
  last := h.last.bind fun c hl failure he => hl failure (hf c.result failure he)

theorem Fails.of_body {op : Operation α} (ha : op.Answers) (hr : op.refusal = none)
    (hb : op.body.Fails Q) : op.Fails Q :=
  .of_answers ha (fun failure h => by cases hr.symm.trans h) hb

end Operation

open Operation (fails_of_look)

namespace Directory

theorem reading_byRules {α : Type} (topic : String) (f : TopicRecord → α) :
    (reading topic f).Fails Failure.FromRegistry := by
  constructor
  · intro failure h
    cases h
  · intro db
    simp only [Script.bind]
    split <;> trivial
  · intro db
    simp only [Script.bind]
    split <;> intro failure h <;> cases h
    trivial

theorem register_byRules (topic publisher : String) (details : Option String) (enabled : Flag) :
    (register topic publisher details enabled).Fails Failure.FromRegistry := by
  refine .of_answers (register_answers topic publisher details enabled) ?_ ?_
  · exact forall_orElse (fun _ => required_fromRegistry) fun _ => required_fromRegistry
  · exact (Script.ofExcept_fails fun _ => Flag.code_fromRegistry).next fun code _ => trivial

theorem setNotification_byRules (topic : String) (enabled : Flag) :
    (setNotification topic enabled).Fails Failure.FromRegistry := by
  refine .of_body (setNotification_answers topic enabled) rfl ?_
  refine (Script.ofExcept_fails fun _ => Flag.code_fromRegistry).next fun code rows => ?_
  simp only [Script.bind]
  split
  · trivial
  · refine Script.Fails.next (fun _ => trivial) fun registered => ?_
    split <;> trivial

end Directory

namespace Membership

theorem concludeOne_fromRegistry (row : Option MemberRow) (failure : Failure)
    (h : (concludeOne row).result = .error failure) : failure.FromRegistry := by
  cases row with
  | none => cases h
  | some row => exact MemberRow.record_fromRegistry (error_of_map h)

theorem get_byRules (topic subscriber : String) :
    (get topic subscriber).Fails Failure.FromRegistry :=
  fails_of_look rfl rfl concludeOne_fromRegistry

theorem fetch_byRules (wanted : MemberRow → Bool) : (fetch wanted).Fails Failure.FromRegistry := by
  refine fails_of_look rfl
    (f := fun rows : List MemberRow => ⟨[], rows.mapM MemberRow.record⟩) rfl ?_
  intro rows failure h
  obtain ⟨row, -, hr⟩ := exists_of_mapM_error h
  exact MemberRow.record_fromRegistry hr

theorem add_byRules (topic subscriber : String) (details : Details) (expiry : Option Int)
    (requestId : Option String) :
    (add topic subscriber details expiry requestId).Fails Failure.FromRegistry := by
  refine .of_answers (add_answers topic subscriber details expiry requestId) ?_ ?_
  · exact forall_orElse (fun _ => required_fromRegistry) fun _ => required_fromRegistry
  · refine Script.Fails.next ?_ fun written rows => ?_
    · cases details <;> trivial
    · simp only [Script.bind]
      split <;> trivial

theorem remove_byRules (topic subscriber : String) :
    (remove topic subscriber).Fails Failure.FromRegistry := by
  refine .of_body (remove_answers topic subscriber) rfl fun rows => ?_
  simp only [Script.bind]
  split <;> trivial

end Membership

namespace Negotiation

theorem lookUp_byRules (topic : String) : (lookUp topic).Fails Failure.FromRegistry := by
  intro db
  simp only [Script.bind]
  split
  · exact Script.ofExcept_fails fun _ h => SubscriptionRow.record_fromRegistry (error_of_map h)
  · trivial

theorem check_byRules (topic : String) (current next : State) :
    (check topic current next).Fails Failure.FromRegistry := by
  unfold check
  split <;> trivial

theorem get_byRules (topic : String) : (get topic).Fails Failure.FromRegistry :=
  .of_body (Script.ends_answer _ fun _ => ⟨_, rfl⟩) rfl <|
    (lookUp_byRules topic).next fun _ => trivial

theorem currentState_byRules (topic : String) :
    (currentState topic).Fails Failure.FromRegistry := by
  refine .of_body (Script.ends_answer _ fun _ => ⟨_, rfl⟩) rfl ?_
  exact Script.Fails.next ((lookUp_byRules topic).next fun _ => trivial) fun _ => trivial

theorem pending_byRules : pending.Fails Failure.FromRegistry := by
  refine fails_of_look rfl
    (f := fun rows : List SubscriptionRow => ⟨[], rows.mapM SubscriptionRow.record⟩) rfl ?_
  intro rows failure h
  obtain ⟨row, -, hr⟩ := exists_of_mapM_error h
  exact SubscriptionRow.record_fromRegistry hr

theorem request_byRules (topic : String) (next : State) (requestId : String) :
    (request topic next requestId).Fails Failure.FromRegistry :=
  Script.Fails.next ((lookUp_byRules topic).next fun _ => trivial) fun current =>
    (check_byRules topic current next).next fun _ _ => trivial

theorem requestSubscribe_byRules (topic requestId : String) :
    (requestSubscribe topic requestId).Fails Failure.FromRegistry := by
  refine .of_answers (requestSubscribe_answers topic requestId) (fun _ => required_fromRegistry) ?_
  refine Script.Fails.next (fun _ => trivial) fun registered => ?_
  split
  · exact request_byRules topic .subscribePending requestId
  · trivial

theorem requestUnsubscribe_byRules (topic requestId : String) :
    (requestUnsubscribe topic requestId).Fails Failure.FromRegistry :=
  .of_answers (requestUnsubscribe_answers topic requestId) (fun _ => required_fromRegistry)
    (request_byRules topic .unsubscribePending requestId)

theorem resolve_byRules (topic : String) (accepted : Bool) :
    (resolve topic accepted).Fails Failure.FromRegistry := by
  refine .of_body (resolve_answers topic accepted) rfl ?_
  refine (lookUp_byRules topic).next fun record => ?_
  simp only
  split
  · trivial
  · exact (check_byRules topic _ _).next fun _ _ => trivial

theorem retire_byRules (topic : String) : (retire topic).Fails Failure.FromRegistry := by
  refine .of_body (retire_answers topic) rfl ?_
  refine (lookUp_byRules topic).next fun record rows => ?_
  simp only [Script.bind]
  split <;> trivial

theorem purge_byRules (topic : String) : (purge topic).Fails Failure.FromRegistry := by
  refine .of_body (purge_answers topic) rfl fun rows => ?_
  simp only [Script.bind]
  split <;> trivial

end Negotiation

/-! ## Responses and repairs -/

namespace Response

theorem confirmWithMember_byRules (topic subscriber : String) (details : Details)
    (expiry : Option Int) :
    (confirmWithMember topic subscriber details expiry).Fails Failure.FromRegistry := by
  refine (Negotiation.get_byRules topic).inline.next fun record =>
    (Negotiation.resolve_byRules topic true).inline.next fun state => ?_
  simp only
  split
  · exact (Membership.add_byRules ..).inline.next fun _ => trivial
  · exact (Membership.remove_byRules ..).inline.next fun _ => trivial

theorem applyConfirmation_byRules (topic subscriber : String) (details : Details)
    (expiry : Option Int) :
    (applyConfirmation topic subscriber details expiry).Fails Failure.FromRegistry := by
  refine Operation.Fails.concluding (.of_body ?_ rfl ?_) counted_truthful
  · exact Script.ends_answer _ fun _ => ⟨_, rfl⟩
  · exact (confirmWithMember_byRules topic subscriber details expiry).next fun _ => trivial

theorem apply_byRules (topic : String) (accepted : Bool) (subscriber : String) (details : Details)
    (expiry : Option Int) :
    (apply topic accepted subscriber details expiry).Fails Failure.FromRegistry := by
  unfold apply
  split
  · exact confirmWithMember_byRules topic subscriber details expiry
  · exact (Negotiation.resolve_byRules topic false).inline

theorem handle_byRules (requestId : Option String) (accepted : Bool) (subscriber : String)
    (details : Details) (expiry : Option Int) :
    (handle requestId accepted subscriber details expiry).Fails Failure.FromRegistry := by
  have htopic : (Negotiation.topicOfRequest requestId).Fails Failure.FromRegistry :=
    fails_of_look rfl rfl fun _ _ h => by cases h
  refine .of_body (handle_answers requestId accepted subscriber details expiry) rfl ?_
  refine htopic.inline.next fun topic => ?_
  cases topic with
  | none => trivial
  | some topic =>
    have happly := apply_byRules topic accepted subscriber details expiry
    refine (happly.catching _).next fun result => ?_
    cases result <;> trivial

end Response

theorem Healing.heal_byRules (topic subscriber : String) :
    (heal topic subscriber).Fails Failure.FromRegistry := by
  have hregistered : (Directory.isRegistered topic).Fails Failure.FromRegistry :=
    fails_of_look rfl rfl fun _ _ h => by cases h
  have hpresent : (Membership.isSubscribed topic subscriber).Fails Failure.FromRegistry :=
    (Membership.get_byRules topic subscriber).map Option.isSome
  refine .of_body (heal_answers topic subscriber) rfl ?_
  refine hregistered.inline.next fun registered =>
    (Negotiation.get_byRules topic).inline.next fun record =>
    hpresent.inline.next fun present => Script.Fails.next ?_ fun changed => ?_
  · rcases repair_cases topic subscriber registered record present with he | he | ⟨-, _, he⟩
    · rw [he]
      trivial
    · rw [he]
      exact (Membership.remove_byRules topic subscriber).inline
    · rw [he]
      exact (Membership.add_byRules ..).inline
  · split <;> trivial

/-! ## All calls -/

/-- What a call fails with by itself is a failure of the registry. -/
theorem Call.fails_by_rules (call : Call) : call.operation.Fails Failure.FromRegistry := by
  have hlook : ∀ {α β : Type} {op : Operation α} {table : Table} {view : Database → β}
      {answer : β → α} (f : α → Reply), op.refusal = none →
      op.body = ((Script.see table view).bind fun b => .done (.answer (answer b))) →
      (op.map f).Fails Failure.FromRegistry := fun f hr hb =>
    (fails_of_look hr hb fun _ _ h => by cases h).map f
  cases call with
  | registerTopic topic publisher details enabled =>
    exact (Directory.register_byRules topic publisher details enabled).map _
  | deregisterTopic topic =>
    have hanswers := Directory.deregister_answers topic
    exact (Operation.Fails.of_body hanswers rfl fun _ _ => trivial).map _
  | setNotification topic enabled => exact (Directory.setNotification_byRules topic enabled).map _
  | getTopic topic => exact hlook _ rfl rfl
  | isRegistered topic => exact hlook _ rfl rfl
  | getPublisher topic => exact (Directory.reading_byRules topic _).map _
  | isNotificationEnabled topic => exact (Directory.reading_byRules topic _).map _
  | getActivePublisher topic => exact (Directory.reading_byRules topic _).map _
  | countTopics => exact hlook _ rfl rfl
  | addSubscriber topic subscriber details expiry requestId =>
    exact (Membership.add_byRules topic subscriber details expiry requestId).map _
  | removeSubscriber topic subscriber => exact (Membership.remove_byRules topic subscriber).map _
  | removeAllForTopic topic =>
    exact (Operation.Fails.of_body (Membership.removeAll_answers topic) rfl fun _ => trivial).map _
  | listSubscribers topic => exact hlook _ rfl rfl
  | listTopicsOf subscriber => exact hlook _ rfl rfl
  | firstSubscriber topic =>
    have hfirst : (Membership.first topic).Fails Failure.FromRegistry :=
      fails_of_look rfl rfl Membership.concludeOne_fromRegistry
    exact hfirst.map _
  | getSubscriber topic subscriber => exact (Membership.get_byRules topic subscriber).map _
  | isSubscribed topic subscriber => exact ((Membership.get_byRules topic subscriber).map _).map _
  | fetchByTopic topic => exact (Membership.fetch_byRules _).map _
  | fetchBySubscriber subscriber => exact (Membership.fetch_byRules _).map _
  | allMembers => exact (Membership.fetch_byRules _).map _
  | countSubscribers => exact hlook _ rfl rfl
  | requestSubscribe topic requestId =>
    exact (Negotiation.requestSubscribe_byRules topic requestId).map _
  | requestUnsubscribe topic requestId =>
    exact (Negotiation.requestUnsubscribe_byRules topic requestId).map _
  | confirm topic => exact (Negotiation.resolve_byRules topic true).map _
  | deny topic => exact (Negotiation.resolve_byRules topic false).map _
  | retire topic => exact (Negotiation.retire_byRules topic).map _
  | currentState topic => exact (Negotiation.currentState_byRules topic).map _
  | getSubscription topic => exact (Negotiation.get_byRules topic).map _
  | topicOfRequest requestId => exact hlook _ rfl rfl
  | listEffective => exact hlook _ rfl rfl
  | listPending => exact Negotiation.pending_byRules.map _
  | countDeprecated => exact hlook _ rfl rfl
  | purge topic => exact (Negotiation.purge_byRules topic).map _
  | purgeDeprecated =>
    exact (Operation.Fails.of_body Negotiation.purgeDeprecated_answers rfl fun _ => trivial).map _
  | checkPublish topic =>
    refine ((Directory.reading_byRules topic _).concluding fun result failure h => ?_).map _
    split at h <;> cases h
    rfl
  | applyConfirmation topic subscriber details expiry =>
    exact (Response.applyConfirmation_byRules topic subscriber details expiry).map _
  | applyDenial topic =>
    exact ((Negotiation.resolve_byRules topic false).concluding Response.counted_truthful).map _
  | handleResponse requestId accepted subscriber details expiry =>
    exact (Response.handle_byRules requestId accepted subscriber details expiry).map _
  | handleWithdrawal topic =>
    refine ((Negotiation.retire_byRules topic).concluding fun result failure h => ?_).map _
    cases result <;> cases h
    rfl
  | heal topic subscriber => exact (Healing.heal_byRules topic subscriber).map _

end PubSub
