import Mathlib.Data.List.Count
import PubSub.Proofs.Responses
import PubSub.Proofs.Runs

/-!
# The ledger of counters

Counters move when an operation is concluded and at no other time: no body notes
a count down (`Script.Silent`), so what a call counts can be read off how it was
called and what it returned (`Call.tally_of_concludes`). Over a whole run the
counters are then the numbers of such calls, whatever was refused.
-/

namespace PubSub

/-! ## Counts among notes -/

def Note.counter? : Note → Option String
  | .event _ => none
  | .count name => some name

def tally (notes : List Note) : List String := notes.filterMap Note.counter?

@[simp] theorem tally_nil : tally [] = [] := rfl

@[simp] theorem tally_event (e : Event) (notes : List Note) :
    tally (.event e :: notes) = tally notes := rfl

@[simp] theorem tally_count (name : String) (notes : List Note) :
    tally (.count name :: notes) = name :: tally notes := rfl

@[simp] theorem tally_append (notes more : List Note) :
    tally (notes ++ more) = tally notes ++ tally more := List.filterMap_append

theorem Connection.tally_rollback (c : Connection) : tally c.rollback.1 = [] := by
  unfold rollback
  split
  · rfl
  · simp only
    split <;> rfl

/-! ## Scripts that count nothing -/

namespace Script

section
variable {α β : Type}

/-- No counter moves before the script has come to its end. -/
def Silent : Script α → Prop
  | .done _ | .fail _ => True
  | .look _ next => ∀ db, (next db).Silent
  | .write _ next => ∀ rows, (next rows).Silent
  | .note n next => n.counter? = none ∧ next.Silent

theorem Silent.bind {s : Script α} {f : α → Script β} (hs : s.Silent) (hf : ∀ a, (f a).Silent) :
    (s.bind f).Silent := by
  induction s with
  | done a => exact hf a
  | fail failure => trivial
  | look table next ih => exact fun db => ih db (hs db)
  | write w next ih => exact fun rows => ih rows (hs rows)
  | note n next ih => exact ⟨hs.1, ih hs.2⟩

theorem Silent.noteAll {notes : List Note} (hn : tally notes = []) {s : Script α} (hs : s.Silent) :
    (Script.noteAll notes s).Silent := by
  induction notes with
  | nil => exact hs
  | cons n notes ih =>
    cases n with
    | event e => exact ⟨rfl, ih hn⟩
    | count name => simp at hn

theorem Silent.catching {s : Script α} (hs : s.Silent) (caught : Failure → Bool) :
    (s.catching caught).Silent := by
  induction s with
  | done a => trivial
  | fail failure =>
    unfold Script.catching
    split <;> trivial
  | look table next ih => exact fun db => ih db (hs db)
  | write w next ih => exact fun rows => ih rows (hs rows)
  | note n next ih => exact ⟨hs.1, ih hs.2⟩

theorem silent_see (table : Table) (view : Database → α) : (see table view).Silent := fun _ => trivial

theorem silent_issue (w : Write) : (issue w).Silent := fun _ => trivial

theorem silent_ofExcept (e : Except Failure α) : (ofExcept e).Silent := by
  cases e <;> trivial

theorem Silent.exec {s : Script α} (hs : s.Silent) (c : Connection) : tally (c.exec s).notes = [] := by
  induction s generalizing c with
  | done a => rfl
  | fail failure => rfl
  | look table next ih =>
    unfold Connection.exec
    split
    · exact ih _ (hs _) _
    · rfl
  | write w next ih =>
    unfold Connection.exec
    split
    · exact ih _ (hs _) _
    · rfl
  | note n next ih =>
    obtain ⟨hn, hs⟩ := hs
    cases n with
    | event e => exact ih hs c
    | count name => cases hn

/-- Not even the conclusion that the script may come to moves a counter. -/
def Quiet (s : Script (Conclusion α)) : Prop := s.Silent ∧ s.Ends fun last => tally last.notes = []

theorem Quiet.bind {s : Script α} {f : α → Script (Conclusion β)} (hs : s.Silent)
    (hf : ∀ a, (f a).Quiet) : (s.bind f).Quiet :=
  ⟨hs.bind fun a => (hf a).1, Ends.bind (Ends.true s) fun a _ => (hf a).2⟩

end

end Script

/-! ## Operations that count nothing -/

namespace Operation

section
variable {α β : Type}

structure Quiet (op : Operation α) : Prop where
  body : op.body.Quiet
  recover : ∀ failure, tally (op.recover failure).notes = []

variable {op : Operation α}

theorem Quiet.map (h : op.Quiet) (f : α → β) : (op.map f).Quiet :=
  ⟨⟨h.body.1.bind fun _ => trivial, Script.Ends.bind h.body.2 fun _ hl => hl⟩, h.recover⟩

theorem Quiet.inline (h : op.Quiet) : op.inline.Silent := by
  unfold Operation.inline
  split
  · trivial
  · have key : ∀ s : Script (Conclusion α), s.Quiet →
        (s.bind fun c => .noteAll c.notes (.ofExcept c.result)).Silent := by
      intro s
      induction s with
      | done c => exact fun hs => .noteAll hs.2 (Script.silent_ofExcept _)
      | fail failure => exact fun _ => trivial
      | look table next ih => exact fun hs db => ih db ⟨hs.1 db, hs.2 db⟩
      | write w next ih => exact fun hs rows => ih rows ⟨hs.1 rows, hs.2 rows⟩
      | note n next ih => exact fun hs => ⟨hs.1.1, ih ⟨hs.1.2, hs.2⟩⟩
    exact key _ h.body

theorem quiet_query (table : Table) (view : Database → β) {f : β → Conclusion α}
    (hf : ∀ b, tally (f b).notes = []) :
    Quiet { body := (Script.see table view).bind fun b => .done (f b) } :=
  ⟨.bind (Script.silent_see table view) fun b => ⟨trivial, hf b⟩, fun _ => rfl⟩

theorem silent_concluding (h : op.body.Silent) (f : Except Failure α → Conclusion β) :
    (op.concluding f).body.Silent := h.bind fun _ => trivial

theorem silent_map (h : op.body.Silent) (f : α → β) : (op.map f).body.Silent := h.bind fun _ => trivial

end

end Operation

open Script (silent_see silent_issue silent_ofExcept)

namespace Directory

theorem silent_lookUp (topic : String) : (lookUp topic).Silent := silent_see _ _

theorem quiet_register (topic publisher : String) (details : Option String) (enabled : Flag) :
    (register topic publisher details enabled).Quiet :=
  ⟨.bind (silent_ofExcept _) fun _ => .bind (silent_issue _) fun _ => ⟨trivial, rfl⟩, fun _ => rfl⟩

theorem quiet_deregister (topic : String) : (deregister topic).Quiet :=
  ⟨.bind (silent_issue _) fun _ => .bind (silent_issue _) fun _ => ⟨trivial, rfl⟩, fun _ => rfl⟩

theorem quiet_setNotification (topic : String) (enabled : Flag) :
    (setNotification topic enabled).Quiet := by
  refine ⟨.bind (silent_ofExcept _) fun _ => .bind (silent_issue _) fun rows => ?_, fun _ => rfl⟩
  split
  · exact ⟨trivial, rfl⟩
  · refine .bind (silent_see _ _) fun registered => ?_
    cases registered with
    | true => exact ⟨trivial, rfl⟩
    | false => exact ⟨trivial, trivial⟩

theorem quiet_isRegistered (topic : String) : (isRegistered topic).Quiet :=
  Operation.quiet_query _ _ fun _ => rfl

theorem quiet_reading {α : Type} (topic : String) (f : TopicRecord → α) : (reading topic f).Quiet := by
  refine ⟨.bind (silent_lookUp topic) fun record => ?_, fun _ => rfl⟩
  cases record <;> exact ⟨trivial, rfl⟩

end Directory

namespace Membership

theorem quiet_add (topic subscriber : String) (details : Details) (expiry : Option Int)
    (requestId : Option String) : (add topic subscriber details expiry requestId).Quiet := by
  refine ⟨.bind (silent_ofExcept _) fun _ => .bind (silent_issue _) fun rows => ?_, fun _ => rfl⟩
  split <;> exact ⟨trivial, rfl⟩

theorem quiet_remove (topic subscriber : String) : (remove topic subscriber).Quiet := by
  refine ⟨.bind (silent_issue _) fun rows => ?_, fun _ => rfl⟩
  split <;> exact ⟨trivial, rfl⟩

theorem quiet_removeAll (topic : String) : (removeAll topic).Quiet :=
  ⟨.bind (silent_issue _) fun _ => ⟨trivial, rfl⟩, fun _ => rfl⟩

theorem tally_concludeOne (row : Option MemberRow) : tally (concludeOne row).notes = [] := by
  cases row <;> rfl

theorem quiet_get (topic subscriber : String) : (get topic subscriber).Quiet :=
  Operation.quiet_query _ _ tally_concludeOne

theorem quiet_isSubscribed (topic subscriber : String) : (isSubscribed topic subscriber).Quiet :=
  (quiet_get topic subscriber).map _

theorem quiet_fetch (wanted : MemberRow → Bool) : (fetch wanted).Quiet :=
  Operation.quiet_query _ _ fun _ => rfl

end Membership

namespace Negotiation

theorem silent_lookUp (topic : String) : (lookUp topic).Silent := by
  refine .bind (silent_see _ _) fun row => ?_
  cases row with
  | none => trivial
  | some row => exact silent_ofExcept _

theorem silent_stateNow (topic : String) : (stateNow topic).Silent :=
  (silent_lookUp topic).bind fun _ => trivial

theorem silent_check (topic : String) (current next : State) : (check topic current next).Silent := by
  unfold check
  split <;> trivial

theorem quiet_request (topic : String) (next : State) (requestId : String) :
    (request topic next requestId).Quiet :=
  .bind (silent_stateNow topic) fun _ => .bind (silent_check topic _ next) fun _ =>
    .bind (silent_issue _) fun _ => ⟨trivial, rfl⟩

theorem quiet_requestSubscribe (topic requestId : String) :
    (requestSubscribe topic requestId).Quiet := by
  refine ⟨.bind (silent_see _ _) fun registered => ?_, fun _ => rfl⟩
  cases registered with
  | true => exact quiet_request topic .subscribePending requestId
  | false => exact ⟨trivial, trivial⟩

theorem quiet_requestUnsubscribe (topic requestId : String) :
    (requestUnsubscribe topic requestId).Quiet :=
  ⟨quiet_request topic .unsubscribePending requestId, fun _ => rfl⟩

theorem quiet_resolve (topic : String) (accepted : Bool) : (resolve topic accepted).Quiet := by
  refine ⟨.bind (silent_lookUp topic) fun record => ?_, fun _ => rfl⟩
  simp only
  split
  · exact ⟨trivial, trivial⟩
  · exact .bind (silent_check topic _ _) fun _ => .bind (silent_issue _) fun _ => ⟨trivial, rfl⟩

theorem quiet_retire (topic : String) : (retire topic).Quiet := by
  refine ⟨.bind (silent_lookUp topic) fun record => .bind (silent_issue _) fun _ => ?_, fun _ => rfl⟩
  split <;> exact ⟨trivial, rfl⟩

theorem quiet_currentState (topic : String) : (currentState topic).Quiet :=
  ⟨.bind (silent_stateNow topic) fun _ => ⟨trivial, rfl⟩, fun _ => rfl⟩

theorem quiet_get (topic : String) : (get topic).Quiet :=
  ⟨.bind (silent_lookUp topic) fun _ => ⟨trivial, rfl⟩, fun _ => rfl⟩

theorem quiet_topicOfRequest (requestId : Option String) : (topicOfRequest requestId).Quiet :=
  Operation.quiet_query _ _ fun _ => rfl

theorem quiet_purge (topic : String) : (purge topic).Quiet := by
  refine ⟨.bind (silent_issue _) fun rows => ?_, fun _ => rfl⟩
  split <;> exact ⟨trivial, rfl⟩

theorem quiet_purgeDeprecated : purgeDeprecated.Quiet :=
  ⟨.bind (silent_issue _) fun _ => ⟨trivial, rfl⟩, fun _ => rfl⟩

end Negotiation

/-- The calls of the authority and of the publish path. -/
def Call.isCounted : Call → Bool
  | .checkPublish _ | .applyConfirmation .. | .applyDenial _ | .handleResponse ..
  | .handleWithdrawal _ | .heal .. => true
  | _ => false

theorem Call.quiet {call : Call} (h : call.isCounted = false) : call.operation.Quiet := by
  cases call with
  | registerTopic topic publisher details enabled =>
    exact (Directory.quiet_register topic publisher details enabled).map _
  | deregisterTopic topic => exact (Directory.quiet_deregister topic).map _
  | setNotification topic enabled => exact (Directory.quiet_setNotification topic enabled).map _
  | getTopic topic => exact (Operation.quiet_query _ _ fun _ => rfl).map _
  | isRegistered topic => exact (Directory.quiet_isRegistered topic).map _
  | getPublisher topic => exact (Directory.quiet_reading topic _).map _
  | isNotificationEnabled topic => exact (Directory.quiet_reading topic _).map _
  | getActivePublisher topic => exact (Directory.quiet_reading topic _).map _
  | countTopics => exact (Operation.quiet_query _ _ fun _ => rfl).map _
  | addSubscriber topic subscriber details expiry requestId =>
    exact (Membership.quiet_add topic subscriber details expiry requestId).map _
  | removeSubscriber topic subscriber => exact (Membership.quiet_remove topic subscriber).map _
  | removeAllForTopic topic => exact (Membership.quiet_removeAll topic).map _
  | listSubscribers topic => exact (Operation.quiet_query _ _ fun _ => rfl).map _
  | listTopicsOf subscriber => exact (Operation.quiet_query _ _ fun _ => rfl).map _
  | firstSubscriber topic => exact (Operation.quiet_query _ _ Membership.tally_concludeOne).map _
  | getSubscriber topic subscriber => exact (Membership.quiet_get topic subscriber).map _
  | isSubscribed topic subscriber => exact (Membership.quiet_isSubscribed topic subscriber).map _
  | fetchByTopic topic => exact (Membership.quiet_fetch _).map _
  | fetchBySubscriber subscriber => exact (Membership.quiet_fetch _).map _
  | allMembers => exact (Membership.quiet_fetch _).map _
  | countSubscribers => exact (Operation.quiet_query _ _ fun _ => rfl).map _
  | requestSubscribe topic requestId =>
    exact (Negotiation.quiet_requestSubscribe topic requestId).map _
  | requestUnsubscribe topic requestId =>
    exact (Negotiation.quiet_requestUnsubscribe topic requestId).map _
  | confirm topic => exact (Negotiation.quiet_resolve topic true).map _
  | deny topic => exact (Negotiation.quiet_resolve topic false).map _
  | retire topic => exact (Negotiation.quiet_retire topic).map _
  | currentState topic => exact (Negotiation.quiet_currentState topic).map _
  | getSubscription topic => exact (Negotiation.quiet_get topic).map _
  | topicOfRequest requestId => exact (Negotiation.quiet_topicOfRequest requestId).map _
  | listEffective => exact (Operation.quiet_query _ _ fun _ => rfl).map _
  | listPending => exact (Operation.quiet_query _ _ fun _ => rfl).map _
  | countDeprecated => exact (Operation.quiet_query _ _ fun _ => rfl).map _
  | purge topic => exact (Negotiation.quiet_purge topic).map _
  | purgeDeprecated => exact Negotiation.quiet_purgeDeprecated.map _
  | _ => simp [isCounted] at h

/-! ## How calls are concluded -/

/-- How an operation can be concluded on a database: it is refused, it recovers from what made its
transaction fail, or its body has come to its end. -/
inductive Operation.Concludes {α : Type} (op : Operation α) (db : Database) : Conclusion α → Prop where
  | refused {failure : Failure} (h : op.refusal = some failure) : Concludes op db (.refuse failure)
  | recovered {cause : Failure}
    (h : cause.Lasting ∨ (op.body.eval db).1 = .error cause) :
    Concludes op db (op.recover cause)
  | ended {last : Conclusion α} {db' : Database} (h : op.body.eval db = (.ok last, db')) :
    Concludes op db last

theorem Failure.lasting_leaving {failure : Failure} (h : failure.FromStatement) :
    failure.leaving.Lasting := by
  cases failure <;> first | rfl | exact h.elim

theorem Operation.concludes_of_failed {α : Type} {op : Operation α} {db : Database}
    {failure : Failure} (h : failure.FromStatement ∨ (op.body.eval db).1 = .error failure) :
    op.Concludes db (op.recover failure.leaving) := by
  refine .recovered ?_
  cases failure with
  | engine fault => exact .inl rfl
  | _ => exact h.imp_left Failure.lasting_leaving

theorem Connection.transact_concludes {α : Type} (c : Connection) {op : Operation α}
    (hs : op.body.Silent) :
    ∃ last, op.Concludes c.committed last ∧ (c.transact op).result = last.result ∧
      tally (c.transact op).notes = tally last.notes := by
  have hgive : ∀ (d : Connection) (before : List Note) (failure : Failure), tally before = [] →
      tally (d.giveUp before op failure).notes = tally (op.recover failure.leaving).notes := by
    intro d before failure hb
    simp [giveUp, conclude, hb, tally_rollback]
  unfold transact
  cases hr : op.refusal with
  | some failure => exact ⟨_, .refused hr, rfl, rfl⟩
  | none =>
    rcases open?_cases c with ⟨fault, d, ho, -⟩ | ⟨d, ho, -, -, hw⟩
    · simp only [ho]
      exact ⟨op.recover (Failure.engine fault).leaving, .recovered (.inl rfl), rfl, hgive d [] _ rfl⟩
    · have hn := hs.exec d
      simp only [ho]
      cases hx : (d.exec op.body).result with
      | error failure =>
        exact ⟨_, Operation.concludes_of_failed (exec_of_error hw hx), rfl, hgive _ _ _ hn⟩
      | ok last =>
        obtain ⟨db, hb, -⟩ := exec_of_ok hw hx
        simp only
        rcases commit_cases (d.exec op.body).connection with ⟨fault, d', hc, -⟩ | ⟨_, d', hc, -⟩
        · simp only [hc]
          exact ⟨op.recover (Failure.engine fault).leaving, .recovered (.inl rfl), rfl,
            hgive _ _ _ hn⟩
        · simp only [hc]
          exact ⟨last, .ended hb, rfl, by simp [conclude, hn]⟩

namespace Operation

section
variable {α β : Type} {op : Operation α} {db : Database}

theorem Concludes.of_map {f : α → β} {last : Conclusion β} (h : (op.map f).Concludes db last) :
    ∃ c, op.Concludes db c ∧ last = c.map f := by
  cases h with
  | refused hr => exact ⟨_, .refused hr, rfl⟩
  | recovered hc => exact ⟨_, .recovered (hc.imp_right Script.error_of_bind_done), rfl⟩
  | ended hb =>
    obtain ⟨c, db₁, hc, hl⟩ := Script.eval_bind_ok.mp hb
    cases hl
    exact ⟨c, .ended hc, rfl⟩

theorem Quiet.tally_of_concludes (hq : op.Quiet) {last : Conclusion α} (h : op.Concludes db last) :
    tally last.notes = [] := by
  cases h with
  | refused hr => rfl
  | recovered hc => exact hq.recover _
  | ended hb => exact hq.body.2.of_eval (congrArg Prod.fst hb)

theorem Quiet.of_concluding (hq : op.Quiet) (hr : op.refusal = none)
    {f : Except Failure α → Conclusion β} {last : Conclusion β}
    (h : (op.concluding f).Concludes db last) :
    ∃ result, last.result = (f result).result ∧ tally last.notes = tally (f result).notes := by
  cases h with
  | refused hf =>
    rw [show (op.concluding f).refusal = none from hr] at hf
    cases hf
  | @recovered cause hc => exact ⟨_, rfl, by simp [concluding, hq.recover cause]⟩
  | ended hb =>
    obtain ⟨c, db₁, hc, hl⟩ := Script.eval_bind_ok.mp hb
    cases hl
    have hn := hq.body.2.of_eval (congrArg Prod.fst hc)
    exact ⟨c.result, rfl, by simp [hn]⟩

end

end Operation

/-! ## What a call counts -/

inductive Counter where
  | transitions
  | rejected
  | ignored
  | denied
  | healed
  deriving DecidableEq

namespace Counter

def all : List Counter := [.transitions, .rejected, .ignored, .denied, .healed]

theorem mem_all (counter : Counter) : counter ∈ all := by cases counter <;> decide

def name : Counter → String
  | .transitions => "transitions_total"
  | .rejected => "transitions_rejected_total"
  | .ignored => "responses_ignored_total"
  | .denied => "publish_denied_total"
  | .healed => "memberships_healed_total"

/-- Whether a counter moves when a call comes to a result. -/
def counts (counter : Counter) (before : Database) (call : Call) (result : Except Failure Reply) :
    Bool :=
  match counter, call, result with
  | .transitions, .applyConfirmation .., .ok _
  | .transitions, .applyDenial _, .ok _
  | .transitions, .handleWithdrawal _, .ok _
  | .transitions, .handleResponse .., .ok (.outcome .applied) => true
  | .rejected, .applyConfirmation .., .error failure
  | .rejected, .applyDenial _, .error failure => failure.isInvalidTransition
  | .rejected, .handleResponse requestId .., .ok (.outcome .ignored) =>
    (before.carrier? requestId).isSome
  | .ignored, .handleResponse .., .ok (.outcome .ignored) => true
  | .denied, .checkPublish _, .ok (.check c) => !c.permitted
  | .healed, .heal .., .ok (.truth true) => true
  | _, _, _ => false

end Counter

def Call.counters (before : Database) (call : Call) (result : Except Failure Reply) : List Counter :=
  Counter.all.filter fun counter => counter.counts before call result

theorem Call.counters_of_not_isCounted {call : Call} (h : call.isCounted = false) (before : Database)
    (result : Except Failure Reply) : call.counters before result = [] := by
  cases call <;> first | rfl | simp [isCounted] at h

theorem Call.counters_of_error {failure : Failure} (h : failure.isInvalidTransition = false)
    (before : Database) (call : Call) : call.counters before (.error failure) = [] := by
  cases call <;> simp [counters, Counter.all, Counter.counts, h]

/-! ### Responses -/

def Failure.Found (failure : Failure) : Prop := ∀ kind key, failure ≠ .notFound kind key

theorem Failure.Lasting.found {failure : Failure} (h : failure.Lasting) : failure.Found := by
  rintro kind key rfl
  cases h

theorem Failure.Found.isInvalidTransition {failure : Failure} (h : failure.Found)
    (hs : failure.isStale = true) : failure.isInvalidTransition = true := by
  cases failure with
  | invalidTransition topic current attempted => rfl
  | notFound kind key => exact absurd rfl (h kind key)
  | _ => cases hs

theorem Negotiation.lookUp_finds (topic : String) : (lookUp topic).Fails Failure.Found := by
  refine Script.Fails.bind (fun _ => trivial) (Script.Ends.true _) fun row _ => ?_
  cases row with
  | none => trivial
  | some row =>
    unfold SubscriptionRow.record
    dsimp only
    cases State.ofCode? row.code with
    | none => exact fun _ _ h => by cases h
    | some state => trivial

theorem Negotiation.resolve_finds (topic : String) (accepted : Bool) :
    (resolve topic accepted).Fails Failure.Found := by
  refine .of_answers (resolve_answers topic accepted) (fun _ hr => by cases hr) ?_
  refine Script.Fails.bind (lookUp_finds topic) (Script.Ends.true _) fun record _ => ?_
  dsimp only
  split
  · exact fun _ _ h => by cases h
  · refine Script.Fails.bind ?_ (Script.Ends.true _) fun _ _ =>
      Script.Fails.bind (fun _ => trivial) (Script.Ends.true _) fun _ _ => trivial
    unfold check
    split
    · trivial
    · exact fun _ _ h => by cases h

theorem Negotiation.get_finds (topic : String) : (get topic).Fails Failure.Found := by
  refine .of_answers (Script.ends_answer _ fun _ => ⟨_, rfl⟩) (fun _ hr => by cases hr) ?_
  exact Script.Fails.bind (lookUp_finds topic) (Script.Ends.true _) fun _ _ => trivial

namespace Response

theorem silent_confirmWithMember (topic subscriber : String) (details : Details)
    (expiry : Option Int) : (confirmWithMember topic subscriber details expiry).Silent := by
  refine .bind (Negotiation.quiet_get topic).inline fun record =>
    .bind (Negotiation.quiet_resolve topic true).inline fun state => ?_
  dsimp only
  split
  · exact .bind (Membership.quiet_add ..).inline fun _ => trivial
  · exact .bind (Membership.quiet_remove ..).inline fun _ => trivial

theorem silent_apply (topic : String) (accepted : Bool) (subscriber : String) (details : Details)
    (expiry : Option Int) : (apply topic accepted subscriber details expiry).Silent := by
  unfold apply
  split
  · exact silent_confirmWithMember topic subscriber details expiry
  · exact (Negotiation.quiet_resolve topic false).inline

theorem silent_handle (requestId : Option String) (accepted : Bool) (subscriber : String)
    (details : Details) (expiry : Option Int) :
    (handle requestId accepted subscriber details expiry).body.Silent := by
  refine .bind (Negotiation.quiet_topicOfRequest requestId).inline fun topic => ?_
  cases topic with
  | none => trivial
  | some topic =>
    refine .bind ((silent_apply topic accepted subscriber details expiry).catching _) fun result => ?_
    cases result <;> trivial

theorem apply_finds (topic : String) (accepted : Bool) (subscriber : String) (details : Details)
    (expiry : Option Int) : (apply topic accepted subscriber details expiry).Fails Failure.Found := by
  unfold apply
  split
  · refine Script.Fails.bind (Negotiation.get_finds topic).inline (Script.Ends.true _) fun record _ =>
      Script.Fails.bind (Negotiation.resolve_finds topic true).inline (Script.Ends.true _)
        fun state _ => ?_
    dsimp only
    split
    · exact Script.Fails.bind ((Membership.add_fails ..).mono fun _ => Failure.Lasting.found).inline
        (Script.Ends.true _) fun _ _ => trivial
    · exact Script.Fails.bind ((Membership.remove_fails ..).mono fun _ => Failure.Lasting.found).inline
        (Script.Ends.true _) fun _ _ => trivial
  · exact (Negotiation.resolve_finds topic false).inline

/-- A response by request belongs to no topic, or is applied to its topic, or is refused there as a
step. -/
theorem handle_ended {requestId : Option String} {accepted : Bool} {subscriber : String}
    {details : Details} {expiry : Option Int} {db db' : Database} {last : Conclusion ResponseOutcome}
    (h : (handle requestId accepted subscriber details expiry).body.eval db = (.ok last, db')) :
    db.carrier? requestId = none ∧ last = unknown requestId ∨
      ∃ row, db.carrier? requestId = some row ∧
        (last = .answer .applied [.count "transitions_total"] ∨
          ∃ failure : Failure, failure.isInvalidTransition = true ∧
            last = stale requestId row.topic accepted failure) := by
  obtain ⟨topic, db₁, ht, hb⟩ := Script.eval_bind_ok.mp h
  obtain ⟨_, hcarrier⟩ : ∃ _ : Unit, topic = (db.carrier? requestId).map (·.topic) ∧ db₁ = db := by
    obtain ⟨-, c, hc, hl⟩ := Operation.returns_iff.mp ht
    obtain ⟨row, db₂, hrow, hc⟩ := Script.eval_bind_ok.mp hc
    obtain ⟨-, rfl, rfl⟩ := Script.eval_see_ok.mp hrow
    cases hc
    cases hl
    exact ⟨(), rfl, rfl⟩
  obtain ⟨rfl, rfl⟩ := hcarrier
  cases hrow : db₁.carrier? requestId with
  | none =>
    rw [hrow] at hb
    cases hb
    exact .inl ⟨rfl, rfl⟩
  | some row =>
    refine .inr ⟨row, rfl, ?_⟩
    rw [hrow] at hb
    obtain ⟨result, db₂, hr, hl⟩ := Script.eval_bind_ok.mp hb
    rw [Script.eval_catching Failure.isStale (fun _ => rfl) rfl] at hr
    cases ha : (apply row.topic accepted subscriber details expiry).eval db₁ with
    | mk applied db₃ =>
      rw [ha] at hr
      cases applied with
      | ok state =>
        cases hr
        cases hl
        exact .inl rfl
      | error failure =>
        simp only at hr
        split at hr
        · rename_i hstale
          cases hr
          cases hl
          have hfound : failure.Found :=
            ((apply_finds ..).of_eval (congrArg Prod.fst ha)).elim
              (fun hf => (Failure.Lasting.of_statement hf).found) id
          exact .inr ⟨failure, hfound.isInvalidTransition hstale, rfl⟩
        · cases hr

theorem quiet_confirming (topic subscriber : String) (details : Details) (expiry : Option Int) :
    Operation.Quiet
      { body := (confirmWithMember topic subscriber details expiry).bind fun state =>
          .done (.answer state) } :=
  ⟨.bind (silent_confirmWithMember topic subscriber details expiry) fun _ => ⟨trivial, rfl⟩,
    fun _ => rfl⟩

end Response

/-! ### Repairs -/

namespace Healing

theorem silent_repair (topic subscriber : String) (registered : Bool)
    (record : Option SubscriptionRecord) (present : Bool) :
    (repair topic subscriber registered record present).Silent := by
  rcases repair_cases topic subscriber registered record present with
    h | h | ⟨-, requestId, h⟩ <;> rw [h]
  · trivial
  · exact (Membership.quiet_remove topic subscriber).inline
  · exact (Membership.quiet_add ..).inline

theorem silent_heal (topic subscriber : String) : (heal topic subscriber).body.Silent := by
  refine .bind (Directory.quiet_isRegistered topic).inline fun registered =>
    .bind (Negotiation.quiet_get topic).inline fun record =>
    .bind (Membership.quiet_isSubscribed topic subscriber).inline fun present =>
    .bind (silent_repair topic subscriber registered record present) fun changed => ?_
  cases changed <;> trivial

theorem heal_ended {topic subscriber : String} {db db' : Database} {last : Conclusion Bool}
    (h : (heal topic subscriber).body.eval db = (.ok last, db')) :
    ∃ changed, last.result = .ok changed ∧
      tally last.notes = if changed then ["memberships_healed_total"] else [] := by
  have key : (heal topic subscriber).body.Ends fun last => ∃ changed, last.result = .ok changed ∧
      tally last.notes = if changed then ["memberships_healed_total"] else [] := by
    refine Script.Ends.bind (.true _) fun registered _ => Script.Ends.bind (.true _) fun record _ =>
      Script.Ends.bind (.true _) fun present _ => Script.Ends.bind (.true _) fun changed _ => ?_
    cases changed <;> exact ⟨_, rfl, rfl⟩
  exact key.of_eval (congrArg Prod.fst h)

end Healing

/-! ### All calls -/

theorem Call.silent (call : Call) : call.operation.body.Silent := by
  cases hcounted : call.isCounted with
  | false => exact (Call.quiet hcounted).body.1
  | true =>
    cases call with
    | checkPublish topic =>
      exact Operation.silent_map (Operation.silent_concluding (Directory.quiet_reading topic _).body.1 _) _
    | applyConfirmation topic subscriber details expiry =>
      exact Operation.silent_map
        (Operation.silent_concluding (Response.quiet_confirming ..).body.1 _) _
    | applyDenial topic =>
      exact Operation.silent_map
        (Operation.silent_concluding (Negotiation.quiet_resolve topic false).body.1 _) _
    | handleWithdrawal topic =>
      exact Operation.silent_map
        (Operation.silent_concluding (Negotiation.quiet_retire topic).body.1 _) _
    | handleResponse requestId accepted subscriber details expiry =>
      exact Operation.silent_map
        (Response.silent_handle requestId accepted subscriber details expiry) _
    | heal topic subscriber => exact Operation.silent_map (Healing.silent_heal topic subscriber) _
    | _ => cases hcounted

theorem Response.tally_counted {op : Operation State} (hr : op.refusal = none) (hq : op.Quiet)
    {db : Database} {last : Conclusion Reply}
    (h : ((op.concluding counted).map Reply.state).Concludes db last) :
    (∃ state, last.result = .ok (.state state) ∧ tally last.notes = ["transitions_total"]) ∨
      ∃ failure, last.result = .error failure ∧ tally last.notes =
        if failure.isInvalidTransition then ["transitions_rejected_total"] else [] := by
  obtain ⟨c, hc, rfl⟩ := h.of_map
  obtain ⟨result, hres, hn⟩ := hq.of_concluding hr hc
  cases result with
  | ok state => exact .inl ⟨state, by simp [Conclusion.map, hres, counted, Conclusion.answer, Except.map], hn⟩
  | error failure =>
    refine .inr ⟨failure, by simp [Conclusion.map, hres, counted, Conclusion.refuse, Except.map], ?_⟩
    rw [show (c.map Reply.state).notes = c.notes from rfl, hn]
    simp only [counted, Conclusion.refuse]
    split <;> rfl

theorem Call.tally_of_concludes {call : Call} {db : Database} {last : Conclusion Reply}
    (h : call.operation.Concludes db last) :
    tally last.notes = (call.counters db last.result).map Counter.name := by
  cases hcounted : call.isCounted with
  | false =>
    rw [call.counters_of_not_isCounted hcounted, (Call.quiet hcounted).tally_of_concludes h]
    rfl
  | true =>
    cases call with
    | checkPublish topic =>
      obtain ⟨c, hc, rfl⟩ := h.of_map
      obtain ⟨result, hres, hn⟩ := (Directory.quiet_reading topic _).of_concluding rfl hc
      rw [Conclusion.map, hn, hres]
      cases result with
      | ok publisher => cases publisher <;> rfl
      | error failure => cases failure <;> rfl
    | applyConfirmation topic subscriber details expiry =>
      rcases Response.tally_counted rfl (Response.quiet_confirming ..) h with
        ⟨state, hres, hn⟩ | ⟨failure, hres, hn⟩
      · rw [hres, hn]
        rfl
      · rw [hres, hn]
        cases failure <;> rfl
    | applyDenial topic =>
      rcases Response.tally_counted rfl (Negotiation.quiet_resolve topic false) h with
        ⟨state, hres, hn⟩ | ⟨failure, hres, hn⟩
      · rw [hres, hn]
        rfl
      · rw [hres, hn]
        cases failure <;> rfl
    | handleWithdrawal topic =>
      obtain ⟨c, hc, rfl⟩ := h.of_map
      obtain ⟨result, hres, hn⟩ := (Negotiation.quiet_retire topic).of_concluding rfl hc
      rw [Conclusion.map, hn, hres]
      cases result <;> rfl
    | handleResponse requestId accepted subscriber details expiry =>
      obtain ⟨c, hc, rfl⟩ := h.of_map
      cases hc with
      | refused hr => cases hr
      | recovered _ => rfl
      | ended hb =>
        rcases Response.handle_ended hb with ⟨hrow, rfl⟩ | ⟨row, hrow, rfl | ⟨failure, hi, rfl⟩⟩
        · simp [Conclusion.map, Response.unknown, Conclusion.answer, Except.map, counters, Counter.all,
            Counter.counts, Counter.name, hrow]
        · rfl
        · simp [Conclusion.map, Response.stale, Conclusion.answer, Except.map, counters, Counter.all,
            Counter.counts, Counter.name, hrow, hi]
    | heal topic subscriber =>
      obtain ⟨c, hc, rfl⟩ := h.of_map
      cases hc with
      | refused hr => cases hr
      | recovered _ => rfl
      | ended hb =>
        obtain ⟨changed, hres, hn⟩ := Healing.heal_ended hb
        rw [Conclusion.map, hn, hres]
        cases changed <;> rfl
    | _ => cases hcounted

/-! ## Counters of a collection -/

namespace Metrics

def counted (m : Metrics) (name : String) : Int := (m.counters.lookup (fullName name)).getD 0

def tallied (m : Metrics) (names : List String) : Metrics := names.foldl (fun m name => m.add name 1) m

/-- Gives a name a value, in the place of the one that it had. -/
def put {α : Type} (name : String) (value : α) : List (String × α) → List (String × α)
  | [] => [(name, value)]
  | (k, v) :: rest => if k = name then (k, value) :: rest else (k, v) :: put name value rest

section
variable {α : Type} (name : String) (value : α) (l : List (String × α)) (other : String)

theorem lookup_put :
    (put name value l).lookup other = if other = name then some value else l.lookup other := by
  induction l with
  | nil =>
    by_cases h : other = name
    · simp [put, h]
    · simp [put, List.lookup_cons, h, beq_eq_false_iff_ne.mpr h]
  | cons entry rest ih =>
    obtain ⟨k, v⟩ := entry
    simp only [put]
    by_cases hk : k = name
    · subst hk
      by_cases h : other = k
      · simp [h]
      · simp [List.lookup_cons, h, beq_eq_false_iff_ne.mpr h]
    · by_cases h : other = k
      · subst h
        simp [hk]
      · simp [hk, List.lookup_cons, beq_eq_false_iff_ne.mpr h, ih]

theorem keys_put : (put name value l).map (·.1) =
    if name ∈ l.map (·.1) then l.map (·.1) else l.map (·.1) ++ [name] := by
  induction l with
  | nil => rfl
  | cons entry rest ih =>
    obtain ⟨k, v⟩ := entry
    by_cases hk : k = name
    · simp [put, hk]
    · have hne : name ≠ k := Ne.symm hk
      simp only [put, hk, if_false, List.map_cons, List.mem_cons, hne, false_or, ih]
      split <;> rfl

end

theorem addTo_eq_put (name : String) (n : Int) (counters : List (String × Int)) :
    addTo name n counters = put name ((counters.lookup name).getD 0 + n) counters := by
  induction counters with
  | nil => simp [addTo, put]
  | cons entry rest ih =>
    obtain ⟨k, m⟩ := entry
    by_cases hk : k = name
    · simp [addTo, put, hk]
    · have hne : name ≠ k := Ne.symm hk
      simp [addTo, put, hk, ih, List.lookup_cons, beq_eq_false_iff_ne.mpr hne]

theorem lookup_addTo (name : String) (n : Int) (counters : List (String × Int)) (other : String) :
    ((addTo name n counters).lookup other).getD 0 =
      (counters.lookup other).getD 0 + if other = name then n else 0 := by
  rw [addTo_eq_put, lookup_put]
  by_cases h : other = name
  · simp [h]
  · simp [h]

theorem fullName_injective {name other : String} : fullName other = fullName name ↔ other = name := by
  constructor
  · intro h
    exact String.append_right_inj _ |>.mp h
  · rintro rfl
    rfl

theorem counted_add (m : Metrics) (name : String) (n : Int) (other : String) :
    (m.add name n).counted other = m.counted other + if other = name then n else 0 := by
  unfold counted add
  rw [lookup_addTo]
  simp only [fullName_injective]

theorem counted_tallied (m : Metrics) (names : List String) (name : String) :
    (m.tallied names).counted name = m.counted name + names.count name := by
  induction names generalizing m with
  | nil => simp [tallied]
  | cons first names ih =>
    have := ih (m.add first 1)
    rw [counted_add] at this
    rw [List.count_cons]
    unfold tallied at this ⊢
    rw [List.foldl_cons, this]
    by_cases h : name = first
    · simp [h]
      omega
    · simp [h, Ne.symm h]

theorem gauges_tallied (m : Metrics) (names : List String) : (m.tallied names).gauges = m.gauges := by
  induction names generalizing m with
  | nil => rfl
  | cons first names ih => exact ih (m.add first 1)

theorem get_of_no_gauge {m : Metrics} (h : m.gauges = []) (name : String) :
    m.get name = .whole (m.counted name) := by
  unfold get
  rw [h]
  rfl

end Metrics

theorem Counter.name_injective : Function.Injective name := by
  intro a b h
  cases a <;> cases b <;> first | rfl | simp [name] at h

theorem Call.count_counters (before : Database) (call : Call) (result : Except Failure Reply)
    (counter : Counter) : ((call.counters before result).map Counter.name).count counter.name =
      if counter.counts before call result then 1 else 0 := by
  rw [List.count_map_of_injective _ _ Counter.name_injective]
  unfold counters
  cases h : counter.counts before call result with
  | true =>
    have hone : Counter.all.count counter = 1 := by cases counter <;> rfl
    exact (List.count_filter (a := counter) h).trans hone
  | false =>
    refine List.count_eq_zero.mpr fun hm => ?_
    rw [(List.mem_filter.mp hm).2] at h
    cases h

/-! ## The collection of a store -/

namespace World

theorem store_takeNotes {w : World} {i : Nat} {s : Store} (hs : w.stores[i]? = some s)
    (notes : List Note) :
    (w.takeNotes i notes).stores[i]? =
      some { s with metrics := s.metrics.tallied (tally notes) } := by
  unfold takeNotes
  induction notes generalizing w s with
  | nil => exact hs
  | cons n notes ih =>
    cases n with
    | event e => exact ih (w := w.report e) hs
    | count name =>
      have hs' : (takeNote i w (.count name)).stores[i]? =
          some { s with metrics := s.metrics.add name 1 } := by
        simp only [takeNote, hs]
        rw [getElem?_setStore w i hs, if_pos rfl]
      exact ih hs'

theorem store_putBack {w : World} {i : Nat} {s : Store} (hs : w.stores[i]? = some s) (link : Link)
    (c : Connection) : ∃ link', (w.putBack i s link c).stores[i]? = some { s with link := some link' } := by
  unfold putBack
  exact ⟨_, by rw [getElem?_setStore _ i ((keep_stores w link.home c.committed).1 ▸ hs), if_pos rfl]⟩

theorem committed_of_link {w : World} {i : Nat} {s : Store} {link : Link}
    (hs : w.stores[i]? = some s) (hl : s.link = some link) :
    w.committed i = (w.connection i link).committed := by
  unfold committed committed? handle?
  simp only [hs, hl]
  cases hd : w.database link.home with
  | error fault => simp [connection, hd, Except.toOption]
  | ok db =>
    cases hk : link.home.keeps with
    | true => rfl
    | false =>
      -- A home that keeps nothing is a folder, in which there is an empty database at any time.
      have : db = .blank := by
        cases hh : link.home with
        | file place =>
          rw [hh] at hd hk
          have hp : place = [] ∨ place = Path.top := by
            simpa [Home.keeps, Decidable.or_iff_not_imp_left] using hk
          simpa [database, Files.database, Files.node?, hp, eq_comm] using hd
        | _ =>
          rw [hh] at hk
          cases hk
      simp [connection, hd, this, Except.toOption]

/-- A call outside every block is concluded on the database of its store, and what it counts is what
it notes down then. -/
theorem call_concludes {w : World} {i : Nat} {s : Store} (hs : w.stores[i]? = some s)
    (he : s.entered = false) (call : Call) :
    ∃ link last, call.operation.Concludes (w.committed i) last ∧
      (w.call i call.operation).2 = last.result ∧
      (w.call i call.operation).1.stores[i]? =
        some { s with link := link, metrics := s.metrics.tallied (tally last.notes) } := by
  obtain ⟨path, link, openings, entered, metrics⟩ := s
  obtain rfl : entered = false := he
  unfold World.call
  rw [hs]
  cases link with
  | none =>
    dsimp only [Bool.false_eq_true, if_false, callUnlinked]
    cases hr : call.operation.refusal with
    | some failure => exact ⟨none, _, .refused hr, rfl, hs⟩
    | none =>
      exact ⟨none, call.operation.recover (.store (.notOpen path)), .recovered (.inl rfl), rfl,
        store_takeNotes hs _⟩
  | some link =>
    dsimp only [Bool.false_eq_true, if_false]
    obtain ⟨last, hc, hres, hn⟩ := (w.connection i link).transact_concludes call.silent
    obtain ⟨link', hs'⟩ := store_putBack hs link ((w.connection i link).transact call.operation).connection
    refine ⟨some link', last, committed_of_link hs rfl ▸ hc, hres, ?_⟩
    rw [← hn]
    exact store_takeNotes hs' _

/-! ## Runs -/

end World

def Moment.counters (m : Moment) : List Counter := m.call.counters m.before m.result

def Moment.moves (counter : Counter) (m : Moment) : Bool := counter.counts m.before m.call m.result

theorem Moment.count_counters (moments : List Moment) (counter : Counter) :
    ((moments.flatMap counters).map Counter.name).count counter.name =
      moments.countP (moves counter) := by
  induction moments with
  | nil => rfl
  | cons m moments ih =>
    rw [List.flatMap_cons, List.map_append, List.count_append, ih, List.countP_cons, Nat.add_comm]
    exact congrArg _ (Call.count_counters m.before m.call m.result counter)

theorem Metrics.tallied_append (m : Metrics) (names more : List String) :
    m.tallied (names ++ more) = (m.tallied names).tallied more := List.foldl_append

namespace World

section
variable {w : World} {i : Nat} {s : Store} (hs : w.stores[i]? = some s)

include hs

theorem store_refusing (refusals : List Refusal) :
    ∃ link, (w.refusing i refusals).stores[i]? = some { s with link := link } ∧
      (w.refusing i refusals).committed i = w.committed i := by
  have hset : ∀ s', (w.setStore i s').stores[i]? = some s' := fun s' => by
    rw [getElem?_setStore w i hs, if_pos rfl]
  obtain ⟨path, link, openings, entered, metrics⟩ := s
  unfold refusing
  rw [hs]
  cases link with
  | none =>
    refine ⟨none, hset _, ?_⟩
    unfold committed committed? handle?
    rw [hs, hset]
    rfl
  | some link =>
    have hd := committed_of_link
      (hset ⟨path, some { link with refusals := refusals }, openings, entered, metrics⟩) rfl
    exact ⟨_, hset _, hd.trans (committed_of_link hs rfl).symm⟩

variable (hout : s.entered = false)

include hout

theorem counters_turn (t : Turn) :
    ∃ link, (w.turn i t).1.stores[i]? = some { s with
      link := link
      metrics := s.metrics.tallied ((t.call.counters (w.committed i) (w.turn i t).2).map Counter.name) } := by
  obtain ⟨link, hs₁, hd⟩ := store_refusing hs t.refusals
  obtain ⟨link', last, hc, hres, hs₂⟩ := call_concludes hs₁ hout t.call
  refine ⟨link', ?_⟩
  rw [hd] at hc
  rw [show (w.turn i t).2 = last.result from hres, ← Call.tally_of_concludes hc]
  exact hs₂

theorem counters_run (turns : List Turn) :
    ∃ link, (w.run i turns).stores[i]? = some { s with
      link := link
      metrics := s.metrics.tallied (((w.history i turns).flatMap Moment.counters).map Counter.name) } := by
  induction turns generalizing w s with
  | nil => exact ⟨s.link, hs⟩
  | cons t turns ih =>
    obtain ⟨link, hs₁⟩ := counters_turn hs hout t
    obtain ⟨link', hs₂⟩ := ih hs₁ hout
    refine ⟨link', ?_⟩
    rw [history, List.flatMap_cons, List.map_append, Metrics.tallied_append]
    exact hs₂

/-- After any run of calls outside every block, whatever was refused, each counter of a new
collection stands at the number of calls that it counts. A call that fails moves none, unless it is
refused as a step. -/
theorem counters_count_calls (hc : s.metrics.counters = []) (hg : s.metrics.gauges = [])
    (turns : List Turn) :
    ∃ s', (w.run i turns).stores[i]? = some s' ∧
      (∀ counter : Counter, s'.metrics.get counter.name =
        .whole ((w.history i turns).countP (Moment.moves counter))) ∧
      ∀ (t : Turn) (failure : Failure), ((w.run i turns).turn i t).2 = .error failure →
        failure.isInvalidTransition = false →
        ((w.run i turns).turn i t).1.stores[i]?.map (·.metrics) = some s'.metrics := by
  obtain ⟨link, hrun⟩ := counters_run hs hout turns
  refine ⟨_, hrun, fun counter => ?_, fun t failure hf hi => ?_⟩
  · rw [Metrics.get_of_no_gauge ((Metrics.gauges_tallied _ _).trans hg), Metrics.counted_tallied,
      Moment.count_counters]
    simp [Metrics.counted, hc]
  · obtain ⟨link', hturn⟩ := counters_turn hrun hout t
    rw [hturn, hf, Call.counters_of_error hi]
    rfl

end

/-- A confirmation whose commit is refused, the same again, and once more when nothing is pending. -/
def confirmedTwice : List Turn :=
  [⟨[], .registerTopic "t" "p" none (.plain true)⟩,
    ⟨[], .requestSubscribe "t" "r"⟩,
    ⟨[⟨.commit, 0, 1⟩], .applyConfirmation "t" "s" (.list []) (some 0)⟩,
    ⟨[], .applyConfirmation "t" "s" (.list []) (some 0)⟩,
    ⟨[], .handleResponse (some "r") true "s" (.list []) (some 0)⟩]

theorem counters_count_calls_confirmedTwice :
    ∃ s, ((lone .fresh []).run 0 confirmedTwice).stores[0]? = some s ∧
      s.metrics.get "transitions_total" = .whole 1 ∧
      s.metrics.get "transitions_rejected_total" = .whole 1 ∧
      s.metrics.get "responses_ignored_total" = .whole 1 := by
  obtain ⟨s, hs, hget, -⟩ := counters_count_calls (w := lone .fresh []) (i := 0) rfl rfl rfl rfl
    confirmedTwice
  have hcount : ∀ counter n, ((lone .fresh []).history 0 confirmedTwice).countP (Moment.moves counter) = n →
      s.metrics.get counter.name = .whole n := fun counter n hn => hn ▸ hget counter
  exact ⟨s, hs, hcount .transitions 1 (by decide +kernel), hcount .rejected 1 (by decide +kernel),
    hcount .ignored 1 (by decide +kernel)⟩

end World

end PubSub
