import PubSub.Proofs.Calls

/-!
# What calls write

`Call.Issues` lists the writes that a call can come to, wherever its script leads, and
`Call.issues` says that there are no others. What holds of all writes of a call is read off
the list.
-/

namespace PubSub

/-! ## Scripts and operations -/

namespace Script

section
variable {α : Type} {P Q : Write → Prop}

theorem Only.mono (hPQ : ∀ w, P w → Q w) {s : Script α} (hs : s.Only P) : s.Only Q := by
  induction s with
  | done value => trivial
  | fail failure => trivial
  | look table next ih => exact fun db => ih db (hs db)
  | write w next ih => exact ⟨hPQ w hs.1, fun rows => ih rows (hs.2 rows)⟩
  | note n next ih => exact ih hs

theorem issue_only {w : Write} (h : P w) : (issue w).Only P := ⟨h, fun _ => trivial⟩

theorem Only.catching (caught : Failure → Bool) {s : Script α} (hs : s.Only P) :
    (s.catching caught).Only P := by
  induction s with
  | done value => trivial
  | fail failure =>
    simp only [Script.catching]
    split <;> trivial
  | look table next ih => exact fun db => ih db (hs db)
  | write w next ih => exact ⟨hs.1, fun rows => ih rows (hs.2 rows)⟩
  | note n next ih => exact ih hs

end

end Script

namespace Operation

section
variable {α β : Type} {P : Write → Prop} {op : Operation α}

def Only (P : Write → Prop) (op : Operation α) : Prop := op.body.Only P

theorem Only.map (h : op.Only P) (f : α → β) : (op.map f).Only P :=
  Script.Only.bind h fun _ => trivial

theorem Only.concluding (h : op.Only P) (f : Except Failure α → Conclusion β) :
    (op.concluding f).Only P :=
  Script.Only.bind h fun _ => trivial

theorem Only.inline (h : op.Only P) : op.inline.Only P := by
  unfold Operation.inline
  split
  · trivial
  · exact Script.Only.bind h fun c => .noteAll c.notes (.ofExcept _ _)

theorem Reads.only (h : op.Reads) : op.Only P := Script.Only.mono (fun _ hw => hw.elim) h

end

end Operation

open Script (issue_only see_only)

/-! ## The parts of calls -/

namespace Write

/-- An insert of a pair, with details that are texts written out. -/
def Inserts (topic subscriber : String) : Write → Prop
  | .addMember new => new.topic = topic ∧ new.subscriber = subscriber ∧
      ∃ texts, new.details = Details.encodeTexts texts
  | _ => False

/-- A write that applies a response: the new state and, with a confirmation, the membership that is
due to it. -/
def Applies (topic : String) (accepted : Bool) (subscriber : String) (w : Write) : Prop :=
  (∃ state, w = .setState topic state) ∨
    accepted = true ∧ (w = .dropMember topic subscriber ∨ w.Inserts topic subscriber)

end Write

namespace Membership

theorem add_only (topic subscriber : String) (details : Details) (expiry : Option Int)
    (requestId : Option String) :
    (add topic subscriber details expiry requestId).Only (·.Inserts topic subscriber) := by
  unfold add Operation.Only Details.encode
  cases details.texts? with
  | error failure => trivial
  | ok texts =>
    refine ⟨⟨rfl, rfl, texts, rfl⟩, fun rows => ?_⟩
    simp only [Script.bind]
    split <;> trivial

theorem remove_only (topic subscriber : String) :
    (remove topic subscriber).Only (· = .dropMember topic subscriber) := by
  refine Script.Only.bind (issue_only rfl) fun rows => ?_
  split <;> trivial

end Membership

namespace Negotiation

theorem check_only (P : Write → Prop) (topic : String) (current next : State) :
    (check topic current next).Only P := by
  unfold check
  split <;> trivial

theorem request_only (topic : String) (next : State) (requestId : String) :
    (request topic next requestId).Only (· = .putSubscription topic next (some requestId)) := by
  refine Script.Only.bind (stateNow_only _ topic) fun current => ?_
  refine Script.Only.bind (check_only _ topic current next) fun _ => ?_
  exact Script.Only.bind (issue_only rfl) fun _ => trivial

theorem resolve_only (topic : String) (accepted : Bool) :
    (resolve topic accepted).Only fun w => ∃ state, w = .setState topic state := by
  refine Script.Only.bind (lookUp_only _ topic) fun record => ?_
  simp only
  split
  · trivial
  · refine Script.Only.bind (check_only _ topic _ _) fun _ => ?_
    exact Script.Only.bind (issue_only ⟨_, rfl⟩) fun _ => trivial

theorem retire_only (topic : String) :
    (retire topic).Only fun w => ∃ requestId, w = .putSubscription topic .deprecated requestId := by
  refine Script.Only.bind (lookUp_only _ topic) fun record => ?_
  refine Script.Only.bind (issue_only ⟨_, rfl⟩) fun _ => ?_
  split <;> trivial

end Negotiation

namespace Response

theorem confirmWithMember_only (topic subscriber : String) (details : Details)
    (expiry : Option Int) :
    (confirmWithMember topic subscriber details expiry).Only (·.Applies topic true subscriber) := by
  have hresolve := (Negotiation.resolve_only topic true).inline
  have hadd := fun requestId => (Membership.add_only topic subscriber details expiry requestId).inline
  have hremove := (Membership.remove_only topic subscriber).inline
  refine Script.Only.bind (Negotiation.get_reads topic).only.inline fun record => ?_
  refine Script.Only.bind (hresolve.mono fun _ => .inl) fun state => ?_
  split
  · exact Script.Only.bind ((hadd _).mono fun _ h => .inr ⟨rfl, .inr h⟩) fun _ => trivial
  · exact Script.Only.bind (hremove.mono fun _ h => .inr ⟨rfl, .inl h⟩) fun _ => trivial

theorem apply_only (topic : String) (accepted : Bool) (subscriber : String) (details : Details)
    (expiry : Option Int) : (apply topic accepted subscriber details expiry).Only
      (·.Applies topic accepted subscriber) := by
  cases accepted with
  | true => exact confirmWithMember_only topic subscriber details expiry
  | false => exact (Negotiation.resolve_only topic false).inline.mono fun _ => .inl

theorem handle_only (requestId : Option String) (accepted : Bool) (subscriber : String)
    (details : Details) (expiry : Option Int) :
    (handle requestId accepted subscriber details expiry).Only
      fun w => ∃ topic, w.Applies topic accepted subscriber := by
  refine Script.Only.bind (Negotiation.topicOfRequest_reads requestId).only.inline fun topic => ?_
  cases topic with
  | none => trivial
  | some topic =>
    have happly := (apply_only topic accepted subscriber details expiry).catching Failure.isStale
    refine Script.Only.bind (happly.mono fun _ h => ⟨topic, h⟩) fun result => ?_
    cases result <;> trivial

end Response

theorem Healing.heal_only (topic subscriber : String) : (heal topic subscriber).Only fun w =>
    w = .dropMember topic subscriber ∨ w.Inserts topic subscriber := by
  have hregistered : (Directory.isRegistered topic).Reads :=
    Script.Only.bind (see_only _ _ _) fun _ => trivial
  have hpresent := (Membership.get_reads topic subscriber).map Option.isSome
  refine Script.Only.bind hregistered.only.inline fun registered => ?_
  refine Script.Only.bind (Negotiation.get_reads topic).only.inline fun record => ?_
  refine Script.Only.bind hpresent.only.inline fun present => ?_
  have hrepair : (repair topic subscriber registered record present).Only fun w =>
      w = .dropMember topic subscriber ∨ w.Inserts topic subscriber := by
    rcases repair_cases topic subscriber registered record present with he | he | ⟨-, _, he⟩
    · rw [he]
      trivial
    · rw [he]
      exact (Membership.remove_only topic subscriber).inline.mono fun _ => .inl
    · rw [he]
      exact (Membership.add_only ..).inline.mono fun _ => .inr
  refine Script.Only.bind hrepair fun changed => ?_
  split <;> trivial

/-! ## Calls -/

/-- The writes that a call can come to. The topic of a response by request stands in the database. -/
def Call.Issues (w : Write) : Call → Prop
  | .registerTopic topic .. => ∃ row : TopicRow, row.topic = topic ∧ w = .putTopic row
  | .deregisterTopic topic => w = .dropTopic topic ∨ w = .dropMembers topic
  | .setNotification topic _ => ∃ code, w = .setNotification topic code
  | .addSubscriber topic subscriber .. => w.Inserts topic subscriber
  | .removeSubscriber topic subscriber => w = .dropMember topic subscriber
  | .removeAllForTopic topic => w = .dropMembers topic
  | .requestSubscribe topic requestId =>
    w = .putSubscription topic .subscribePending (some requestId)
  | .requestUnsubscribe topic requestId =>
    w = .putSubscription topic .unsubscribePending (some requestId)
  | .confirm topic | .deny topic | .applyDenial topic => ∃ state, w = .setState topic state
  | .retire topic | .handleWithdrawal topic =>
    ∃ requestId, w = .putSubscription topic .deprecated requestId
  | .purge topic => w = .dropSubscription topic
  | .purgeDeprecated => w = .dropInState .deprecated
  | .applyConfirmation topic subscriber .. => w.Applies topic true subscriber
  | .handleResponse _ accepted subscriber .. => ∃ topic, w.Applies topic accepted subscriber
  | .heal topic subscriber => w = .dropMember topic subscriber ∨ w.Inserts topic subscriber
  | _ => False

theorem Call.issues (call : Call) : call.operation.Only (Call.Issues · call) := by
  cases hq : call.isQuery with
  | true => exact (Call.reads_of_isQuery hq).only
  | false =>
    cases call with
    | registerTopic topic publisher details enabled =>
      refine Operation.Only.map ?_ doneReply
      refine Script.Only.bind (.ofExcept _ _) fun code => ?_
      exact Script.Only.bind (issue_only ⟨_, rfl, rfl⟩) fun _ => trivial
    | deregisterTopic topic =>
      refine Operation.Only.map ?_ countReply
      refine Script.Only.bind (issue_only (.inl rfl)) fun topics => ?_
      exact Script.Only.bind (issue_only (.inr rfl)) fun members => trivial
    | setNotification topic enabled =>
      refine Operation.Only.map ?_ _
      refine Script.Only.bind (.ofExcept _ _) fun code => ?_
      refine Script.Only.bind (issue_only ⟨code, rfl⟩) fun rows => ?_
      split
      · trivial
      · refine Script.Only.bind (see_only _ _ _) fun registered => ?_
        split <;> trivial
    | addSubscriber topic subscriber details expiry requestId =>
      exact (Membership.add_only topic subscriber details expiry requestId).map _
    | removeSubscriber topic subscriber => exact (Membership.remove_only topic subscriber).map _
    | removeAllForTopic topic =>
      refine Operation.Only.map ?_ countReply
      exact Script.Only.bind (issue_only rfl) fun _ => trivial
    | requestSubscribe topic requestId =>
      refine Operation.Only.map ?_ doneReply
      refine Script.Only.bind (see_only _ _ _) fun registered => ?_
      split
      · exact Negotiation.request_only topic _ requestId
      · trivial
    | requestUnsubscribe topic requestId =>
      refine Operation.Only.map ?_ doneReply
      exact Negotiation.request_only topic _ requestId
    | confirm topic => exact (Negotiation.resolve_only topic true).map _
    | deny topic => exact (Negotiation.resolve_only topic false).map _
    | retire topic => exact (Negotiation.retire_only topic).map _
    | purge topic =>
      refine Operation.Only.map ?_ _
      refine Script.Only.bind (issue_only rfl) fun rows => ?_
      split <;> trivial
    | purgeDeprecated =>
      refine Operation.Only.map ?_ countReply
      exact Script.Only.bind (issue_only rfl) fun _ => trivial
    | applyConfirmation topic subscriber details expiry =>
      refine Operation.Only.map (Operation.Only.concluding ?_ _) _
      have hboth := Response.confirmWithMember_only topic subscriber details expiry
      exact hboth.bind fun _ => trivial
    | applyDenial topic => exact ((Negotiation.resolve_only topic false).concluding _).map _
    | handleResponse requestId accepted subscriber details expiry =>
      exact (Response.handle_only requestId accepted subscriber details expiry).map _
    | handleWithdrawal topic => exact ((Negotiation.retire_only topic).concluding _).map _
    | heal topic subscriber => exact (Healing.heal_only topic subscriber).map _
    | _ => cases hq

end PubSub
