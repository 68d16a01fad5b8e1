import PubSub.Proofs.Evaluation

/-!
# What calls write and how they end

A call is a query, which writes nothing, or else it fails nowhere but inside its
transaction: once the body has come to its end, the answer is no failure
(`Call.answers_of_not_isQuery`). What a call concludes from a failed transaction is that failure.
-/

namespace PubSub

theorem error_of_map {α β : Type} {f : α → β} {e : Except Failure α} {failure : Failure}
    (h : e.map f = .error failure) : e = .error failure := by
  cases e with
  | ok a => cases h
  | error failure' =>
    cases h
    rfl

namespace Operation

section
variable {α β : Type}

def Reads (op : Operation α) : Prop := op.body.Only fun _ => False

/-- An operation that answers once its body has come to its end. -/
def Answers (op : Operation α) : Prop := op.body.Ends fun last => ∃ a, last.result = .ok a

theorem Reads.map {op : Operation α} (h : op.Reads) (f : α → β) : (op.map f).Reads :=
  Script.Only.bind h fun _ => trivial

theorem Reads.concluding {op : Operation α} (h : op.Reads) (f : Except Failure α → Conclusion β) :
    (op.concluding f).Reads :=
  Script.Only.bind h fun _ => trivial

theorem Answers.map {op : Operation α} (h : op.Answers) (f : α → β) : (op.map f).Answers := by
  refine Script.Ends.bind h fun last hl => ?_
  obtain ⟨a, ha⟩ := hl
  exact ⟨f a, by simp [Conclusion.map, ha, Except.map]⟩

theorem Answers.concluding {op : Operation α} (h : op.Answers)
    {f : Except Failure α → Conclusion β} (hf : ∀ a, ∃ b, (f (.ok a)).result = .ok b) :
    (op.concluding f).Answers := by
  refine Script.Ends.bind h fun last hl => ?_
  obtain ⟨a, ha⟩ := hl
  obtain ⟨b, hb⟩ := hf a
  exact ⟨b, by rw [ha]; exact hb⟩

theorem inline_reads {op : Operation α} (h : op.Reads) : op.inline.Only fun _ => False := by
  unfold inline
  split
  · trivial
  · exact Script.Only.bind h fun c => .noteAll c.notes (.ofExcept _ _)

structure Fails (Q : Failure → Prop) (op : Operation α) : Prop where
  refusal : ∀ failure, op.refusal = some failure → Q failure
  body : op.body.Fails Q
  last : op.body.Ends fun last => ∀ failure, last.result = .error failure → Q failure

section
variable {Q : Failure → Prop} {op : Operation α}

theorem Fails.of_answers (ha : op.Answers) (hr : ∀ failure, op.refusal = some failure → Q failure)
    (hb : op.body.Fails Q) : op.Fails Q := by
  refine ⟨hr, hb, ?_⟩
  have hends := Script.Ends.bind (f := .done) (R := fun last : Conclusion α =>
    ∀ failure, last.result = .error failure → Q failure) ha fun last hl failure he => by
      obtain ⟨a, hok⟩ := hl
      rw [hok] at he
      cases he
  rwa [Script.bind_done] at hends

theorem Fails.mono {R : Failure → Prop} (hQR : ∀ failure, Q failure → R failure) (h : op.Fails Q) :
    op.Fails R := by
  refine ⟨fun failure hr => hQR failure (h.refusal failure hr), h.body.mono hQR, ?_⟩
  have hends := h.last.bind (f := .done) (R := fun last : Conclusion α =>
    ∀ failure, last.result = .error failure → R failure) fun last hl failure he =>
      hQR failure (hl failure he)
  rwa [Script.bind_done] at hends

theorem Fails.map (h : op.Fails Q) (f : α → β) : (op.map f).Fails Q := by
  refine ⟨h.refusal, h.body.bind (.true _) fun _ _ => trivial, ?_⟩
  exact h.last.bind fun last hl failure he => hl failure (error_of_map he)

theorem Fails.inline (h : op.Fails Q) : op.inline.Fails Q := by
  unfold Operation.inline
  split
  · rename_i failure hr
    exact h.refusal failure hr
  · refine h.body.bind h.last fun last hl => .noteAll _ ?_
    cases hr : last.result with
    | ok a => trivial
    | error failure => exact hl failure hr

end

end

end Operation

/-! ## Queries -/

theorem Script.see_only {α : Type} (P : Write → Prop) (table : Table) (view : Database → α) :
    (see table view).Only P := fun _ => trivial

theorem Directory.reading_reads {α : Type} (topic : String) (f : TopicRecord → α) :
    (reading topic f).Reads := by
  refine Script.Only.bind (Script.see_only _ _ _) fun record => ?_
  cases record <;> trivial

theorem Membership.fetch_reads (wanted : MemberRow → Bool) : (fetch wanted).Reads :=
  Script.Only.bind (Script.see_only _ _ _) fun _ => trivial

theorem Membership.get_reads (topic subscriber : String) : (get topic subscriber).Reads :=
  Script.Only.bind (Script.see_only _ _ _) fun _ => trivial

namespace Negotiation

theorem lookUp_only (P : Write → Prop) (topic : String) : (lookUp topic).Only P := by
  refine Script.Only.bind (Script.see_only _ _ _) fun row => ?_
  cases row with
  | none => trivial
  | some row => exact .ofExcept P _

theorem get_reads (topic : String) : (get topic).Reads :=
  Script.Only.bind (lookUp_only _ topic) fun _ => trivial

theorem stateNow_only (P : Write → Prop) (topic : String) : (stateNow topic).Only P :=
  Script.Only.bind (lookUp_only P topic) fun _ => trivial

theorem topicOfRequest_reads (requestId : Option String) : (topicOfRequest requestId).Reads :=
  Script.Only.bind (Script.see_only _ _ _) fun _ => trivial

end Negotiation

def Call.isQuery : Call → Bool
  | .getTopic _ | .isRegistered _ | .getPublisher _ | .isNotificationEnabled _
  | .getActivePublisher _ | .countTopics | .listSubscribers _ | .listTopicsOf _
  | .firstSubscriber _ | .getSubscriber .. | .isSubscribed .. | .fetchByTopic _
  | .fetchBySubscriber _ | .allMembers | .countSubscribers | .currentState _
  | .getSubscription _ | .topicOfRequest _ | .listEffective | .listPending | .countDeprecated
  | .checkPublish _ => true
  | _ => false

theorem Call.reads_of_isQuery {call : Call} (h : call.isQuery = true) : call.operation.Reads := by
  have hs : ∀ {α β : Type} (table : Table) (view : Database → α) (f : α → Conclusion β),
      ((Script.see table view).bind fun a => .done (f a)).Only fun _ => False :=
    fun table view f => Script.Only.bind (Script.see_only _ table view) fun _ => trivial
  cases call with
  | getTopic topic =>
    exact (show (Directory.get topic).Reads from hs _ _ _).map _
  | isRegistered topic =>
    exact (show (Directory.isRegistered topic).Reads from hs _ _ _).map _
  | getPublisher topic => exact (Directory.reading_reads topic _).map _
  | isNotificationEnabled topic => exact (Directory.reading_reads topic _).map _
  | getActivePublisher topic => exact (Directory.reading_reads topic _).map _
  | countTopics =>
    exact (show Directory.count.Reads from hs _ _ _).map _
  | listSubscribers topic =>
    exact (show (Membership.subscribers topic).Reads from hs _ _ _).map _
  | listTopicsOf subscriber =>
    exact (show (Membership.topicsOf subscriber).Reads from hs _ _ _).map _
  | firstSubscriber topic =>
    exact (show (Membership.first topic).Reads from hs _ _ _).map _
  | getSubscriber topic subscriber => exact (Membership.get_reads topic subscriber).map _
  | isSubscribed topic subscriber => exact ((Membership.get_reads topic subscriber).map _).map _
  | fetchByTopic topic => exact (Membership.fetch_reads _).map _
  | fetchBySubscriber subscriber => exact (Membership.fetch_reads _).map _
  | allMembers => exact (Membership.fetch_reads _).map _
  | countSubscribers =>
    exact (show Membership.count.Reads from hs _ _ _).map _
  | currentState topic =>
    exact (show (Negotiation.currentState topic).Reads from
      Script.Only.bind (Negotiation.stateNow_only _ topic) fun _ => trivial).map _
  | getSubscription topic => exact (Negotiation.get_reads topic).map _
  | topicOfRequest requestId => exact (Negotiation.topicOfRequest_reads requestId).map _
  | listEffective =>
    exact (show Negotiation.effective.Reads from hs _ _ _).map _
  | listPending =>
    exact (show Negotiation.pending.Reads from hs _ _ _).map _
  | countDeprecated =>
    exact (show Negotiation.countDeprecated.Reads from hs _ _ _).map _
  | checkPublish topic => exact ((Directory.reading_reads topic _).concluding _).map _
  | _ => simp [isQuery] at h

/-! ## Other calls -/

theorem Script.ends_answer {α β : Type} (s : Script α) {f : α → Script (Conclusion β)}
    (hf : ∀ a, (f a).Ends fun last => ∃ b, last.result = .ok b) :
    (s.bind f).Ends fun last => ∃ b, last.result = .ok b :=
  Script.Ends.bind (Script.Ends.true s) fun a _ => hf a

namespace Directory

theorem register_answers (topic publisher : String) (details : Option String) (enabled : Flag) :
    (register topic publisher details enabled).Answers :=
  Script.ends_answer _ fun _ => Script.ends_answer _ fun _ => ⟨_, rfl⟩

theorem deregister_answers (topic : String) : (deregister topic).Answers :=
  Script.ends_answer _ fun _ => Script.ends_answer _ fun _ => ⟨_, rfl⟩

theorem setNotification_answers (topic : String) (enabled : Flag) :
    (setNotification topic enabled).Answers := by
  refine Script.ends_answer _ fun code => Script.ends_answer _ fun rows => ?_
  split
  · exact ⟨_, rfl⟩
  · refine Script.ends_answer _ fun registered => ?_
    cases registered with
    | true => exact ⟨_, rfl⟩
    | false => trivial

end Directory

namespace Membership

theorem add_answers (topic subscriber : String) (details : Details) (expiry : Option Int)
    (requestId : Option String) : (add topic subscriber details expiry requestId).Answers := by
  refine Script.ends_answer _ fun written => Script.ends_answer _ fun rows => ?_
  split <;> exact ⟨_, rfl⟩

theorem remove_answers (topic subscriber : String) : (remove topic subscriber).Answers := by
  refine Script.ends_answer _ fun rows => ?_
  split <;> exact ⟨_, rfl⟩

theorem removeAll_answers (topic : String) : (removeAll topic).Answers :=
  Script.ends_answer _ fun _ => ⟨_, rfl⟩

end Membership

namespace Negotiation

theorem request_ends (topic : String) (next : State) (requestId : String) :
    (request topic next requestId).Ends fun last => ∃ a, last.result = .ok a :=
  Script.ends_answer _ fun _ => Script.ends_answer _ fun _ => Script.ends_answer _ fun _ => ⟨_, rfl⟩

theorem requestSubscribe_answers (topic requestId : String) :
    (requestSubscribe topic requestId).Answers := by
  refine Script.ends_answer _ fun registered => ?_
  cases registered with
  | true => exact request_ends topic .subscribePending requestId
  | false => trivial

theorem requestUnsubscribe_answers (topic requestId : String) :
    (requestUnsubscribe topic requestId).Answers :=
  request_ends topic .unsubscribePending requestId

theorem resolve_answers (topic : String) (accepted : Bool) : (resolve topic accepted).Answers := by
  refine Script.ends_answer _ fun record => ?_
  simp only
  split
  · trivial
  · exact Script.ends_answer _ fun _ => Script.ends_answer _ fun _ => ⟨_, rfl⟩

theorem retire_answers (topic : String) : (retire topic).Answers := by
  refine Script.ends_answer _ fun record => Script.ends_answer _ fun _ => ?_
  split <;> exact ⟨_, rfl⟩

theorem purge_answers (topic : String) : (purge topic).Answers := by
  refine Script.ends_answer _ fun rows => ?_
  split <;> exact ⟨_, rfl⟩

theorem purgeDeprecated_answers : purgeDeprecated.Answers :=
  Script.ends_answer _ fun _ => ⟨_, rfl⟩

end Negotiation

namespace Response

theorem counted_ok {α : Type} (a : α) : ∃ b, (counted (.ok a)).result = .ok b := ⟨a, rfl⟩

theorem applyConfirmation_answers (topic subscriber : String) (details : Details)
    (expiry : Option Int) : (applyConfirmation topic subscriber details expiry).Answers := by
  refine Operation.Answers.concluding ?_ counted_ok
  exact Script.ends_answer _ fun _ => ⟨_, rfl⟩

theorem handle_answers (requestId : Option String) (accepted : Bool) (subscriber : String)
    (details : Details) (expiry : Option Int) :
    (handle requestId accepted subscriber details expiry).Answers := by
  refine Script.ends_answer _ fun topic => ?_
  cases topic with
  | none => exact ⟨_, rfl⟩
  | some topic =>
    refine Script.ends_answer _ fun result => ?_
    cases result <;> exact ⟨_, rfl⟩

theorem handleWithdrawal_answers (topic : String) : (handleWithdrawal topic).Answers :=
  (Negotiation.retire_answers topic).concluding fun _ => ⟨_, rfl⟩

end Response

theorem Healing.heal_answers (topic subscriber : String) : (heal topic subscriber).Answers := by
  refine Script.ends_answer _ fun registered => Script.ends_answer _ fun record =>
    Script.ends_answer _ fun present => Script.ends_answer _ fun changed => ?_
  cases changed <;> exact ⟨_, rfl⟩

/-- A repair is one call, or nothing; it adds to registered topics only. -/
theorem Healing.repair_cases (topic subscriber : String) (registered : Bool)
    (record : Option SubscriptionRecord) (present : Bool) :
    repair topic subscriber registered record present = .done false ∨
      repair topic subscriber registered record present =
        (Membership.remove topic subscriber).inline ∨
      registered = true ∧ ∃ requestId, repair topic subscriber registered record present =
        (Membership.add topic subscriber .empty (some 0) requestId).inline := by
  unfold repair
  simp only
  cases registered with
  | false => cases present <;> simp
  | true =>
    simp only [Bool.not_true, Bool.false_eq_true, if_false, true_and]
    split
    · exact .inr (.inr ⟨_, rfl⟩)
    · split
      · exact .inr (.inl rfl)
      · exact .inl rfl

theorem Call.answers_of_not_isQuery {call : Call} (h : call.isQuery = false) :
    call.operation.Answers := by
  cases call with
  | registerTopic topic publisher details enabled =>
    exact (Directory.register_answers topic publisher details enabled).map _
  | deregisterTopic topic => exact (Directory.deregister_answers topic).map _
  | setNotification topic enabled => exact (Directory.setNotification_answers topic enabled).map _
  | addSubscriber topic subscriber details expiry requestId =>
    exact (Membership.add_answers topic subscriber details expiry requestId).map _
  | removeSubscriber topic subscriber => exact (Membership.remove_answers topic subscriber).map _
  | removeAllForTopic topic => exact (Membership.removeAll_answers topic).map _
  | requestSubscribe topic requestId =>
    exact (Negotiation.requestSubscribe_answers topic requestId).map _
  | requestUnsubscribe topic requestId =>
    exact (Negotiation.requestUnsubscribe_answers topic requestId).map _
  | confirm topic => exact (Negotiation.resolve_answers topic true).map _
  | deny topic => exact (Negotiation.resolve_answers topic false).map _
  | retire topic => exact (Negotiation.retire_answers topic).map _
  | purge topic => exact (Negotiation.purge_answers topic).map _
  | purgeDeprecated => exact Negotiation.purgeDeprecated_answers.map _
  | applyConfirmation topic subscriber details expiry =>
    exact (Response.applyConfirmation_answers topic subscriber details expiry).map _
  | applyDenial topic =>
    exact ((Negotiation.resolve_answers topic false).concluding Response.counted_ok).map _
  | handleResponse requestId accepted subscriber details expiry =>
    exact (Response.handle_answers requestId accepted subscriber details expiry).map _
  | handleWithdrawal topic => exact (Response.handleWithdrawal_answers topic).map _
  | heal topic subscriber => exact (Healing.heal_answers topic subscriber).map _
  | _ => simp [isQuery] at h

theorem Call.eval_of_error {call : Call} {db db' : Database} {last : Conclusion Reply}
    {failure : Failure} (h : call.operation.body.eval db = (.ok last, db'))
    (hf : last.result = .error failure) : db' = db := by
  cases hq : call.isQuery with
  | true =>
    have hu := (call.reads_of_isQuery hq).unchanged db
    rw [h] at hu
    exact hu
  | false =>
    obtain ⟨a, ha⟩ := (call.answers_of_not_isQuery hq).of_eval (congrArg Prod.fst h)
    rw [ha] at hf
    cases hf

/-! ## Failed transactions -/

theorem Directory.reading_eval_error {α : Type} {topic : String} {f : TopicRecord → α}
    {db : Database} {failure : Failure}
    (h : ((reading topic f).body.eval db).1 = .error failure) :
    failure = .engine (.missingTable .topics) := by
  simp only [reading, lookUp, Script.bind_eq, Script.eval_bind, Script.see, Script.eval] at h
  split at h
  · simp only [Script.andThen_ok] at h
    split at h <;> simp at h
  · simpa using h.symm

theorem Publishing.check_eval_error {topic : String} {db : Database} {failure : Failure}
    (h : ((check topic).body.eval db).1 = .error failure) :
    failure = .engine (.missingTable .topics) :=
  Directory.reading_eval_error (Script.error_of_bind_done h)

/-- Only the publish gate turns failures into answers, and none of those is one that the statements
of a call fail with. -/
theorem Call.recovers (call : Call) {failure : Failure}
    (h : failure.FromStatement ∨ ∃ db, (call.operation.body.eval db).1 = .error failure)
    {cause : Failure} (hc : cause = failure ∨ cause = failure.leaving) :
    (call.operation.recover cause).result = .error cause := by
  cases call with
  | checkPublish topic =>
    have hs : failure.FromStatement := by
      rcases h with h | ⟨db, h⟩
      · exact h
      · rw [Publishing.check_eval_error (Script.error_of_bind_done h)]
        trivial
    cases failure with
    | engine fault => rcases hc with rfl | rfl <;> rfl
    | oversized => rcases hc with rfl | rfl <;> rfl
    | _ => exact hs.elim
  | _ => rfl

theorem Call.recover_fails (call : Call) {failure : Failure}
    (h : failure.FromStatement ∨ ∃ db, (call.operation.body.eval db).1 = .error failure) :
    (call.operation.recover failure.leaving).result = .error failure.leaving :=
  call.recovers h (.inr rfl)

end PubSub
