import PubSub.Proofs.Atomicity
import PubSub.Proofs.Responses

/-!
# What calls fail with

Whether the failures that a call brings forth by itself are true. One that tells of a
refused step names the state in which the topic is, and a step from there that
`State.canBecome` does not list (`Call.truthful`).
-/

namespace PubSub

/-- Where a failure tells of a refused step, the topic is in the state that is told, and cannot get
from there to the other one. -/
def Failure.Truthful (db : Database) : Failure → Prop
  | .invalidTransition topic current attempted =>
    current = db.stateOf topic ∧ current.canBecome attempted = false
  | _ => True

theorem Failure.Truthful.of_statement {db : Database} {failure : Failure}
    (h : failure.FromStatement) : failure.Truthful db := by
  cases failure <;> trivial

theorem Failure.Truthful.leaving {db : Database} {failure : Failure} (h : failure.Truthful db) :
    failure.leaving.Truthful db := by
  cases failure <;> trivial

theorem Failure.Truthful.of_lasting {db : Database} {failure : Failure} (h : failure.Lasting) :
    failure.Truthful db := by
  cases failure <;> trivial

namespace Operation

section
variable {α β : Type} {db : Database}

section
variable {Q : Failure → Prop} {op : Operation α}

theorem fails_of_look {table : Table} {view : Database → β} {f : β → Conclusion α}
    (hr : op.refusal = none) (hb : op.body = (Script.see table view).bind fun b => .done (f b))
    (hf : ∀ b failure, (f b).result = .error failure → Q failure) : op.Fails Q := by
  constructor
  · intro failure he
    rw [hr] at he
    cases he
  · rw [hb]
    exact fun _ => trivial
  · rw [hb]
    exact fun _ => hf _

end

/-- Whatever an operation fails with by itself on a database is true. -/
structure Truthful (op : Operation α) (db : Database) : Prop where
  refusal : ∀ failure, op.refusal = some failure → failure.Truthful db
  body : ∀ failure, (op.body.eval db).1 = .error failure → failure.Truthful db
  last : ∀ last failure, (op.body.eval db).1 = .ok last → last.result = .error failure →
    failure.Truthful db

theorem Fails.truthful {op : Operation α} (h : op.Fails (·.Truthful db)) : op.Truthful db where
  refusal := h.refusal
  body _ he := (h.body.of_eval he).elim .of_statement id
  last _ _ he := h.last.of_eval he _

theorem truthful_of_answers {op : Operation α} (ha : op.Answers)
    (hr : ∀ failure, op.refusal = some failure → failure.Truthful db)
    (hb : ∀ failure, (op.body.eval db).1 = .error failure → failure.Truthful db) :
    op.Truthful db where
  refusal := hr
  body := hb
  last last failure h hl := by
    obtain ⟨a, hok⟩ := ha.of_eval h
    rw [hok] at hl
    cases hl

theorem Truthful.followed {op : Operation α} {op' : Operation β} (h : op.Truthful db)
    {g : Conclusion α → Conclusion β} (hr : op'.refusal = op.refusal)
    (hb : op'.body = op.body.bind fun c => .done (g c))
    (hg : ∀ c failure, (g c).result = .error failure → c.result = .error failure) :
    op'.Truthful db := by
  have heval : op'.body.eval db = Script.andThen (fun c => .done (g c)) (op.body.eval db) := by
    rw [hb, Script.eval_bind]
  cases hop : op.body.eval db with
  | mk result db' =>
    rw [hop] at heval
    cases result with
    | error failure =>
      refine ⟨hr ▸ h.refusal, ?_, ?_⟩
      · intro failure' he
        rw [heval] at he
        apply h.body failure'
        rw [hop]
        simpa using he
      · intro last failure' he
        rw [heval] at he
        cases he
    | ok c =>
      refine ⟨hr ▸ h.refusal, ?_, ?_⟩
      · intro failure' he
        rw [heval] at he
        cases he
      · intro last failure' he hl
        rw [heval] at he
        cases he
        apply h.last c failure' _ (hg c failure' hl)
        rw [hop]

theorem Truthful.map {op : Operation α} (h : op.Truthful db) (f : α → β) :
    (op.map f).Truthful db :=
  h.followed (g := Conclusion.map f) rfl rfl fun _ _ hl => error_of_map hl

theorem Truthful.concluding {op : Operation α} (h : op.Truthful db)
    {f : Except Failure α → Conclusion β}
    (hf : ∀ result failure, (f result).result = .error failure → result = .error failure) :
    (op.concluding f).Truthful db :=
  h.followed (g := fun c => ⟨c.notes ++ (f c.result).notes, (f c.result).result⟩) rfl rfl
    fun c failure hl => hf c.result failure hl

end

end Operation

/-! ## Calls that tell of no step -/

section
variable {db : Database}

theorem exists_of_mapM_error {α β : Type} {f : α → Except Failure β} {l : List α}
    {failure : Failure} (h : l.mapM f = .error failure) : ∃ a ∈ l, f a = .error failure := by
  induction l with
  | nil => cases h
  | cons a l ih =>
    rw [List.mapM_cons] at h
    cases ha : f a with
    | error failure' =>
      rw [ha] at h
      cases h
      exact ⟨a, List.mem_cons_self, ha⟩
    | ok b =>
      rw [ha] at h
      cases hl : l.mapM f with
      | error failure' =>
        rw [hl] at h
        cases h
        obtain ⟨c, hc, he⟩ := ih hl
        exact ⟨c, List.mem_cons_of_mem a hc, he⟩
      | ok bs =>
        rw [hl] at h
        cases h

theorem required_truthful {what value : String} {failure : Failure}
    (h : required what value = some failure) : failure.Truthful db := by
  rw [eq_of_required h]
  trivial

theorem Details.decode_truthful {raw : String} {failure : Failure}
    (h : decode raw = .error failure) : failure.Truthful db := by
  unfold decode at h
  split at h
  · cases h
  · split at h
    · cases h
      trivial
    · rename_i d _
      have hd := error_of_map h
      cases d <;> cases hd <;> trivial

theorem MemberRow.record_truthful {row : MemberRow} {failure : Failure}
    (h : row.record = .error failure) : failure.Truthful db := by
  unfold record at h
  exact Details.decode_truthful (error_of_map h)

theorem SubscriptionRow.record_truthful {row : SubscriptionRow} {failure : Failure}
    (h : row.record = .error failure) : failure.Truthful db := by
  unfold record at h
  split at h
  · cases h
  · cases h
    trivial

theorem Flag.code_truthful {flag : Flag} {failure : Failure} (h : flag.code = .error failure) :
    failure.Truthful db := by
  rw [Flag.eq_of_code_error h]
  trivial

theorem Script.ofExcept_fails {α : Type} {Q : Failure → Prop} {e : Except Failure α}
    (h : ∀ failure, e = .error failure → Q failure) : (ofExcept e).Fails Q := by
  cases e with
  | ok a => trivial
  | error failure => exact h failure rfl

theorem none_truthful {α : Type} {op : Operation α} (hr : op.refusal = none) (failure : Failure)
    (h : op.refusal = some failure) : failure.Truthful db := by
  rw [hr] at h
  cases h

namespace Directory

theorem reading_fails {α : Type} (topic : String) (f : TopicRecord → α) :
    (reading topic f).Fails (·.Truthful db) := by
  refine ⟨none_truthful rfl, ?_, ?_⟩
  · intro db'
    simp only [Script.bind]
    split <;> trivial
  · intro db'
    simp only [Script.bind]
    split
    · intro failure hl
      cases hl
    · intro failure hl
      cases hl
      trivial

theorem register_fails (topic publisher : String) (details : Option String) (enabled : Flag) :
    (register topic publisher details enabled).Fails (·.Truthful db) := by
  refine .of_answers (register_answers topic publisher details enabled) ?_ ?_
  · exact forall_orElse (fun _ => required_truthful) fun _ => required_truthful
  · refine Script.Fails.bind (Script.ofExcept_fails fun _ => Flag.code_truthful) (.true _) ?_
    exact fun code _ _ => trivial

theorem setNotification_fails (topic : String) (enabled : Flag) :
    (setNotification topic enabled).Fails (·.Truthful db) := by
  refine .of_answers (setNotification_answers topic enabled) (none_truthful rfl) ?_
  refine Script.Fails.bind (Script.ofExcept_fails fun _ => Flag.code_truthful) (.true _) ?_
  intro code _
  refine Script.Fails.bind (fun _ => trivial) (.true _) fun rows _ => ?_
  split
  · trivial
  · refine Script.Fails.bind (fun _ => trivial) (.true _) fun registered _ => ?_
    split <;> trivial

end Directory

namespace Membership

theorem concludeOne_truthful (row : Option MemberRow) (failure : Failure)
    (h : (concludeOne row).result = .error failure) : failure.Truthful db := by
  cases row with
  | none => cases h
  | some row => exact MemberRow.record_truthful (error_of_map h)

theorem get_fails (topic subscriber : String) : (get topic subscriber).Fails (·.Truthful db) :=
  Operation.fails_of_look rfl rfl concludeOne_truthful

theorem fetch_fails (wanted : MemberRow → Bool) : (fetch wanted).Fails (·.Truthful db) := by
  refine Operation.fails_of_look rfl
    (f := fun rows : List MemberRow => ⟨[], rows.mapM MemberRow.record⟩) rfl ?_
  intro rows failure h
  obtain ⟨row, -, hr⟩ := exists_of_mapM_error h
  exact MemberRow.record_truthful hr

end Membership

namespace Negotiation

theorem lookUp_fails (topic : String) : (lookUp topic).Fails (·.Truthful db) := by
  intro db'
  simp only [Script.bind]
  split
  · rename_i row _
    cases hr : row.record with
    | ok record => trivial
    | error failure => exact SubscriptionRow.record_truthful hr
  · trivial

theorem currentState_fails (topic : String) : (currentState topic).Fails (·.Truthful db) := by
  refine .of_answers (Script.ends_answer _ fun _ => ⟨_, rfl⟩) (none_truthful rfl) ?_
  have hnow : (stateNow topic).Fails (·.Truthful db) :=
    (lookUp_fails topic).bind (.true _) fun _ _ => trivial
  exact hnow.bind (.true _) fun _ _ => trivial

theorem get_fails (topic : String) : (get topic).Fails (·.Truthful db) := by
  refine .of_answers (Script.ends_answer _ fun _ => ⟨_, rfl⟩) (none_truthful rfl) ?_
  exact (lookUp_fails topic).bind (.true _) fun _ _ => trivial

theorem pending_fails : pending.Fails (·.Truthful db) := by
  refine Operation.fails_of_look rfl
    (f := fun rows : List SubscriptionRow => ⟨[], rows.mapM SubscriptionRow.record⟩) rfl ?_
  intro rows failure hl
  obtain ⟨row, -, hr⟩ := exists_of_mapM_error hl
  exact SubscriptionRow.record_truthful hr

theorem retire_fails (topic : String) : (retire topic).Fails (·.Truthful db) := by
  refine .of_answers (retire_answers topic) (none_truthful rfl) ?_
  refine (lookUp_fails topic).bind (.true _) fun record _ => ?_
  refine Script.Fails.bind (fun _ => trivial) (.true _) fun _ _ => ?_
  split <;> trivial

theorem purge_fails (topic : String) : (purge topic).Fails (·.Truthful db) := by
  refine .of_answers (purge_answers topic) (none_truthful rfl) ?_
  refine Script.Fails.bind (fun _ => trivial) (.true _) fun rows _ => ?_
  split <;> trivial

end Negotiation

theorem Healing.heal_fails (topic subscriber : String) :
    (heal topic subscriber).Fails (·.Truthful db) := by
  have hregistered : (Directory.isRegistered topic).Fails (·.Truthful db) :=
    .of_answers (fun _ => ⟨_, rfl⟩) (none_truthful rfl) fun _ => trivial
  have hpresent : (Membership.isSubscribed topic subscriber).Fails (·.Truthful db) :=
    (Membership.get_fails topic subscriber).map Option.isSome
  refine .of_answers (heal_answers topic subscriber) (none_truthful rfl) ?_
  refine hregistered.inline.bind (.true _) fun registered _ => ?_
  refine (Negotiation.get_fails topic).inline.bind (.true _) fun record _ => ?_
  refine hpresent.inline.bind (.true _) fun present _ => ?_
  refine Script.Fails.bind ?_ (.true _) fun changed _ => ?_
  · rcases repair_cases topic subscriber registered record present with he | he | ⟨-, _, he⟩
    · rw [he]
      trivial
    · rw [he]
      exact ((Membership.remove_fails topic subscriber).mono fun _ => .of_lasting).inline
    · rw [he]
      exact ((Membership.add_fails ..).mono fun _ => .of_lasting).inline
  · split <;> trivial

theorem Call.fails_of_isQuery {call : Call} (h : call.isQuery = true)
    (hc : ∀ topic, call ≠ .checkPublish topic) : call.operation.Fails (·.Truthful db) := by
  have hlook : ∀ {α : Type} {op : Operation α} (f : α → Reply), op.Answers → op.refusal = none →
      op.body.Fails (·.Truthful db) → (op.map f).Fails (·.Truthful db) := fun f ha hr hf =>
    (Operation.Fails.of_answers ha (none_truthful hr) hf).map f
  cases call with
  | getTopic topic => exact hlook _ (fun _ => ⟨_, rfl⟩) rfl fun _ => trivial
  | isRegistered topic => exact hlook _ (fun _ => ⟨_, rfl⟩) rfl fun _ => trivial
  | getPublisher topic => exact (Directory.reading_fails topic _).map _
  | isNotificationEnabled topic => exact (Directory.reading_fails topic _).map _
  | getActivePublisher topic => exact (Directory.reading_fails topic _).map _
  | countTopics => exact hlook _ (fun _ => ⟨_, rfl⟩) rfl fun _ => trivial
  | listSubscribers topic => exact hlook _ (fun _ => ⟨_, rfl⟩) rfl fun _ => trivial
  | listTopicsOf subscriber => exact hlook _ (fun _ => ⟨_, rfl⟩) rfl fun _ => trivial
  | firstSubscriber topic =>
    have hfirst : (Membership.first topic).Fails (·.Truthful db) :=
      Operation.fails_of_look rfl rfl Membership.concludeOne_truthful
    exact hfirst.map _
  | getSubscriber topic subscriber => exact (Membership.get_fails topic subscriber).map _
  | isSubscribed topic subscriber => exact ((Membership.get_fails topic subscriber).map _).map _
  | fetchByTopic topic => exact (Membership.fetch_fails _).map _
  | fetchBySubscriber subscriber => exact (Membership.fetch_fails _).map _
  | allMembers => exact (Membership.fetch_fails _).map _
  | countSubscribers => exact hlook _ (fun _ => ⟨_, rfl⟩) rfl fun _ => trivial
  | currentState topic => exact (Negotiation.currentState_fails topic).map _
  | getSubscription topic => exact (Negotiation.get_fails topic).map _
  | topicOfRequest requestId => exact hlook _ (fun _ => ⟨_, rfl⟩) rfl fun _ => trivial
  | listEffective => exact hlook _ (fun _ => ⟨_, rfl⟩) rfl fun _ => trivial
  | listPending => exact Negotiation.pending_fails.map _
  | countDeprecated => exact hlook _ (fun _ => ⟨_, rfl⟩) rfl fun _ => trivial
  | checkPublish topic => exact absurd rfl (hc topic)
  | _ => cases h

/-! ## Calls that take steps -/

section
variable (h : db.WellFormed)

include h

namespace Negotiation

theorem request_truthful (topic : String) (next : State) (requestId : String) (failure : Failure)
    (hf : ((request topic next requestId).eval db).1 = .error failure) : failure.Truthful db := by
  rw [request_eval h] at hf
  split at hf
  · cases hf
  · rename_i hstep
    cases hf
    exact ⟨rfl, by simpa using hstep⟩

theorem requestSubscribe_truthful (topic requestId : String) :
    (requestSubscribe topic requestId).Truthful db := by
  apply Operation.truthful_of_answers (requestSubscribe_answers topic requestId)
    fun _ => required_truthful
  intro failure hf
  rw [requestSubscribe_eval h] at hf
  split at hf
  · exact request_truthful h topic .subscribePending requestId failure hf
  · cases hf
    trivial

theorem requestUnsubscribe_truthful (topic requestId : String) :
    (requestUnsubscribe topic requestId).Truthful db :=
  Operation.truthful_of_answers (requestUnsubscribe_answers topic requestId)
    (fun _ => required_truthful) (request_truthful h topic .unsubscribePending requestId)

omit h in
theorem expected_unreachable {s : State} (hr : s.resolution? = none) (accepted : Bool) :
    s.canBecome (.expected accepted) = false := by
  cases s <;> first | (cases accepted <;> rfl) | cases hr

theorem resolve_truthful (topic : String) (accepted : Bool) :
    (resolve topic accepted).Truthful db := by
  apply Operation.truthful_of_answers (resolve_answers topic accepted) (none_truthful rfl)
  intro failure hf
  have heval := resolve_eval h topic accepted
  rw [Operation.eval_inline rfl] at heval
  cases hb : (resolve topic accepted).body.eval db with
  | mk result db' =>
    rw [hb] at hf heval
    simp only at hf
    subst hf
    cases hr : (db.stateOf topic).resolution? with
    | some resolution =>
      rw [hr] at heval
      cases heval
    | none =>
      rw [hr] at heval
      cases heval
      exact ⟨rfl, expected_unreachable hr accepted⟩

end Negotiation

namespace Response

theorem confirmWithMember_truthful (topic subscriber : String) (details : Details)
    (expiry : Option Int) (failure : Failure)
    (hf : ((confirmWithMember topic subscriber details expiry).eval db).1 = .error failure) :
    failure.Truthful db := by
  rw [confirmWithMember_eval h] at hf
  cases hr : (db.stateOf topic).resolution? with
  | none =>
    rw [hr] at hf
    cases hf
    exact ⟨rfl, Negotiation.expected_unreachable hr true⟩
  | some resolution =>
    rw [hr] at hf
    simp only [follow] at hf
    apply Failure.Truthful.of_lasting
    split at hf
    · exact (Membership.add_fails ..).lasting_of_inline (Script.error_of_bind_done hf)
    · exact (Membership.remove_fails ..).lasting_of_inline (Script.error_of_bind_done hf)

omit h in
theorem counted_truthful {α : Type} (result : Except Failure α) (failure : Failure)
    (hf : (counted result).result = .error failure) : result = .error failure := by
  rwa [counted_result] at hf

theorem applyConfirmation_truthful (topic subscriber : String) (details : Details)
    (expiry : Option Int) : (applyConfirmation topic subscriber details expiry).Truthful db := by
  refine Operation.Truthful.concluding ?_ counted_truthful
  refine Operation.truthful_of_answers ?_ (none_truthful rfl) fun failure hf => ?_
  · exact Script.ends_answer _ fun _ => ⟨_, rfl⟩
  exact confirmWithMember_truthful h topic subscriber details expiry failure
    (Script.error_of_bind_done hf)

/-- A response never tells of a refused step; it passes over it. -/
theorem handle_truthful (requestId : Option String) (accepted : Bool) (subscriber : String)
    (details : Details) (expiry : Option Int) :
    (handle requestId accepted subscriber details expiry).Truthful db := by
  apply Operation.truthful_of_answers
    (handle_answers requestId accepted subscriber details expiry) (none_truthful rfl)
  intro failure hf
  rw [handle_eval h] at hf
  split at hf
  · cases hf
  · split at hf
    · cases hf
    · split at hf
      · cases hf
      · rename_i hs
        cases hf
        exact .of_lasting (Bool.eq_false_iff.mpr hs)

end Response

theorem Call.truthful (call : Call) : call.operation.Truthful db := by
  cases hq : call.isQuery with
  | true =>
    cases call with
    | checkPublish topic =>
      refine ((Directory.reading_fails topic _).truthful.concluding ?_).map _
      intro result failure hl
      split at hl
      · cases hl
      · cases hl
      · cases hl
      · cases hl
        rfl
    | _ =>
      apply (fails_of_isQuery hq _).truthful
      intro topic he
      cases he
  | false =>
    cases call with
    | registerTopic topic publisher details enabled =>
      exact (Directory.register_fails topic publisher details enabled).truthful.map _
    | deregisterTopic topic =>
      have hf : (Directory.deregister topic).Fails (·.Truthful db) :=
        .of_answers (Directory.deregister_answers topic) (none_truthful rfl) fun _ _ => trivial
      exact hf.truthful.map _
    | setNotification topic enabled =>
      exact (Directory.setNotification_fails topic enabled).truthful.map _
    | addSubscriber topic subscriber details expiry requestId =>
      exact ((Membership.add_fails topic subscriber details expiry requestId).mono fun _ => .of_lasting).truthful.map _
    | removeSubscriber topic subscriber =>
      exact ((Membership.remove_fails topic subscriber).mono fun _ => .of_lasting).truthful.map _
    | removeAllForTopic topic =>
      have hf : (Membership.removeAll topic).Fails (·.Truthful db) :=
        .of_answers (Membership.removeAll_answers topic) (none_truthful rfl) fun _ => trivial
      exact hf.truthful.map _
    | requestSubscribe topic requestId =>
      exact (Negotiation.requestSubscribe_truthful h topic requestId).map _
    | requestUnsubscribe topic requestId =>
      exact (Negotiation.requestUnsubscribe_truthful h topic requestId).map _
    | confirm topic => exact (Negotiation.resolve_truthful h topic true).map _
    | deny topic => exact (Negotiation.resolve_truthful h topic false).map _
    | retire topic => exact (Negotiation.retire_fails topic).truthful.map _
    | purge topic => exact (Negotiation.purge_fails topic).truthful.map _
    | purgeDeprecated =>
      have hf : Negotiation.purgeDeprecated.Fails (·.Truthful db) :=
        .of_answers Negotiation.purgeDeprecated_answers (none_truthful rfl) fun _ => trivial
      exact hf.truthful.map _
    | applyConfirmation topic subscriber details expiry =>
      exact (Response.applyConfirmation_truthful h topic subscriber details expiry).map _
    | applyDenial topic =>
      exact ((Negotiation.resolve_truthful h topic false).concluding Response.counted_truthful).map _
    | handleResponse requestId accepted subscriber details expiry =>
      exact (Response.handle_truthful h requestId accepted subscriber details expiry).map _
    | handleWithdrawal topic =>
      refine ((Negotiation.retire_fails topic).truthful.concluding ?_).map _
      intro result failure hl
      cases result with
      | ok u => cases hl
      | error failure' =>
        cases hl
        rfl
    | heal topic subscriber => exact (Healing.heal_fails topic subscriber).truthful.map _
    | _ => cases hq

end

end

theorem Connection.truthful_transact {c : Connection} (h : c.committed.WellFormed) (call : Call)
    {failure : Failure} (hf : (c.transact call.operation).result = .error failure) :
    failure.Truthful c.committed ∧
      (c.transact call.operation).connection.committed = c.committed := by
  have ht := call.truthful h
  constructor
  · cases hr : call.operation.refusal with
    | some refusal =>
      unfold transact at hf
      rw [hr] at hf
      cases hf
      exact ht.refusal failure hr
    | none =>
      rcases transact_cases c hr with ⟨inner, hin, hres, -⟩ | ⟨last, db, hb, hres, -⟩
      · rw [hres, call.recover_fails (hin.imp_right fun h => ⟨_, h⟩)] at hf
        cases hf
        exact (hin.elim .of_statement (ht.body inner)).leaving
      · rw [hres] at hf
        exact ht.last last failure (by rw [hb]) hf
  · rcases c.transact_call call with ⟨_, -, hc⟩ | ⟨reply, ho, -⟩
    · exact hc
    · rw [hf] at ho
      cases ho

end PubSub
