import PubSub.Proofs.Confirmations
import PubSub.Proofs.Effects
import PubSub.Proofs.Logbook

/-!
# The log of changes

Most calls tell the log of a change only once their transaction has ended. Three of them
are put together from other calls, and those tell of what they did while the transaction of
the whole is still open. Where that fails, the log has been told of every write that was
executed, and none of them is in the database (`failure_reports`).
-/

namespace PubSub

/-! ## Events that report a change -/

def Event.isChange : Event → Bool
  | .topicRegistered .. | .topicDeregistered .. | .notificationChanged .. | .subscriberAdded ..
  | .subscriberRemoved .. | .topicCleared .. | .transition .. | .purged _ | .deprecatedPurged _
  | .healed .. => true
  | _ => false

def Note.event? : Note → Option Event
  | .event e => some e
  | .count _ => none

def eventsIn (notes : List Note) : List Event := notes.filterMap Note.event?

@[simp] theorem eventsIn_append (notes more : List Note) :
    eventsIn (notes ++ more) = eventsIn notes ++ eventsIn more := List.filterMap_append

def changesIn (notes : List Note) : List Event := (eventsIn notes).filter Event.isChange

@[simp] theorem changesIn_nil : changesIn [] = [] := rfl

@[simp] theorem changesIn_append (notes more : List Note) :
    changesIn (notes ++ more) = changesIn notes ++ changesIn more := by
  simp [changesIn]

/-- Whether a write found rows to change. -/
def Effect.touches (e : Effect) : Bool :=
  match e.write.run e.before.view with
  | .ok (rows, _) => 0 < rows
  | .error _ => false

/-- What the log is told of a write on a membership, or of a step of a topic. -/
def Effect.event? (e : Effect) : Option Event :=
  if e.touches then
    match e.write with
    | .addMember new => some (.subscriberAdded new.topic new.subscriber)
    | .dropMember topic subscriber => some (.subscriberRemoved topic subscriber)
    | .setState topic next => (e.before.view.record? topic).map fun record =>
        .transition topic record.state next record.requestId
    | _ => none
  else none

/-! ## Runs of combined scripts -/

namespace Connection

section
variable {α β : Type}

theorem exec_bind_of_ok {c : Connection} {s : Script α} {a : α} (h : (c.exec s).result = .ok a)
    (f : α → Script β) : c.exec (s.bind f) =
      { (c.exec s).connection.exec (f a) with
        notes := (c.exec s).notes ++ ((c.exec s).connection.exec (f a)).notes } := by
  induction s generalizing c with
  | done b =>
    cases h
    rfl
  | fail failure => cases h
  | look table next ih =>
    simp only [Script.bind, exec] at h ⊢
    split
    · rename_i hv
      rw [if_pos hv] at h
      exact ih _ h
    · rename_i hv
      rw [if_neg hv] at h
      cases h
  | write w next ih =>
    simp only [Script.bind, exec] at h ⊢
    rcases write_cases c w with ⟨failure, d, hw, -⟩ | ⟨rows, d, hw, -⟩
    · simp only [hw] at h
      cases h
    · simp only [hw] at h ⊢
      exact ih rows h
  | note n next ih =>
    simp only [Script.bind, exec] at h ⊢
    rw [ih h, List.cons_append]

theorem exec_bind_of_error {c : Connection} {s : Script α} {failure : Failure}
    (h : (c.exec s).result = .error failure) (f : α → Script β) :
    c.exec (s.bind f) = ⟨(c.exec s).connection, (c.exec s).notes, .error failure⟩ := by
  induction s generalizing c with
  | done b => cases h
  | fail failure' =>
    cases h
    rfl
  | look table next ih =>
    simp only [Script.bind, exec] at h ⊢
    split
    · rename_i hv
      rw [if_pos hv] at h
      exact ih _ h
    · rename_i hv
      rw [if_neg hv] at h
      cases h
      rfl
  | write w next ih =>
    simp only [Script.bind, exec] at h ⊢
    rcases write_cases c w with ⟨failure', d, hw, -⟩ | ⟨rows, d, hw, -⟩
    · simp only [hw] at h ⊢
      cases h
      rfl
    · simp only [hw] at h ⊢
      exact ih rows h
  | note n next ih =>
    simp only [Script.bind, exec] at h ⊢
    rw [ih h]

def effectsAfter (f : α → Script β) (run : Run α) : List Effect :=
  match run.result with
  | .ok a => run.connection.effects (f a)
  | .error _ => []

theorem effects_bind (c : Connection) (s : Script α) (f : α → Script β) :
    c.effects (s.bind f) = c.effects s ++ effectsAfter f (c.exec s) := by
  induction s generalizing c with
  | done a => rfl
  | fail failure => rfl
  | look table next ih =>
    simp only [Script.bind, effects, exec]
    split
    · exact ih _ c.succeeded
    · rfl
  | write w next ih =>
    simp only [Script.bind, effects, exec]
    rcases write_cases c w with ⟨failure, d, hw, -⟩ | ⟨rows, d, hw, -⟩
    · simp only [hw]
      rfl
    · simp only [hw, ih rows d, List.cons_append]
  | note n next ih => exact ih c

end

end Connection

namespace Script

section
variable {α β : Type}

/-! ## Scripts that note nothing -/

def Mute : Script α → Prop
  | .done _ | .fail _ => True
  | .look _ next => ∀ db, (next db).Mute
  | .write _ next => ∀ rows, (next rows).Mute
  | .note _ _ => False

theorem Mute.bind {s : Script α} {f : α → Script β} (hs : s.Mute) (hf : ∀ a, (f a).Mute) :
    (s.bind f).Mute := by
  induction s with
  | done a => exact hf a
  | fail failure => trivial
  | look table next ih => exact fun db => ih db (hs db)
  | write w next ih => exact fun rows => ih rows (hs rows)
  | note n next ih => exact hs.elim

theorem mute_see (table : Table) (view : Database → α) : (see table view).Mute := fun _ => trivial

theorem mute_issue (w : Write) : (issue w).Mute := fun _ => trivial

theorem mute_ofExcept (e : Except Failure α) : (ofExcept e).Mute := by
  cases e <;> trivial

theorem Mute.exec {s : Script α} (hs : s.Mute) (c : Connection) : (c.exec s).notes = [] := by
  induction s generalizing c with
  | done a => rfl
  | fail failure => rfl
  | look table next ih =>
    unfold Connection.exec
    split
    · exact ih _ (hs _) _
    · rfl
  | write w next ih =>
    unfold Connection.exec
    split
    · exact ih _ (hs _) _
    · rfl
  | note n next ih => exact hs.elim

/-! ## Scripts that note what they write -/

/-- However far the script comes, it has told of all the changes it has made, and of no others. -/
def Accounts (s : Script α) : Prop :=
  ∀ c : Connection, changesIn (c.exec s).notes = (c.effects s).filterMap Effect.event?

theorem accounts_of_mute {s : Script α} (hs : s.Mute) (hr : s.Only fun _ => False) : s.Accounts := by
  intro c
  have he : c.effects s = [] := by
    induction s generalizing c with
    | done a => rfl
    | fail failure => rfl
    | look table next ih =>
      unfold Connection.effects
      split
      · exact ih _ (hs _) (hr _) _
      · rfl
    | write w next ih => exact hr.1.elim
    | note n next ih => exact hs.elim
  rw [hs.exec, he]
  rfl

theorem Accounts.bind {s : Script α} {f : α → Script β} (hs : s.Accounts)
    (hf : ∀ a, (f a).Accounts) : (s.bind f).Accounts := by
  intro c
  rw [Connection.effects_bind, List.filterMap_append, ← hs c]
  unfold Connection.effectsAfter
  cases hr : (c.exec s).result with
  | ok a => rw [Connection.exec_bind_of_ok hr, changesIn_append, hf a]
  | error failure => simp [Connection.exec_bind_of_error hr]

theorem Accounts.catching {s : Script α} (hs : s.Accounts) (caught : Failure → Bool) :
    (s.catching caught).Accounts := by
  have hboth : ∀ (s : Script α) (c : Connection),
      (c.exec (s.catching caught)).notes = (c.exec s).notes ∧
        c.effects (s.catching caught) = c.effects s := by
    intro s
    induction s with
    | done a => exact fun c => ⟨rfl, rfl⟩
    | fail failure =>
      intro c
      unfold Script.catching
      split <;> exact ⟨rfl, rfl⟩
    | look table next ih =>
      intro c
      simp only [Script.catching, Connection.exec, Connection.effects]
      split
      · exact ih _ _
      · exact ⟨rfl, rfl⟩
    | write w next ih =>
      intro c
      simp only [Script.catching, Connection.exec, Connection.effects]
      rcases Connection.write_cases c w with ⟨failure, d, hw, -⟩ | ⟨rows, d, hw, -⟩
      · simp [hw]
      · simpa only [hw, (ih rows d).2, and_true] using (ih rows d).1
    | note n next ih =>
      intro c
      exact ⟨congrArg (n :: ·) (ih c).1, (ih c).2⟩
  intro c
  rw [(hboth s c).1, (hboth s c).2]
  exact hs c

theorem accounts_done (a : α) : (Script.done a).Accounts := fun _ => rfl

theorem accounts_ofExcept (e : Except Failure α) : (ofExcept e).Accounts :=
  accounts_of_mute (mute_ofExcept e) (.ofExcept _ e)

end

end Script

/-! ## Calls that are parts of others -/

theorem Connection.touches_of_write {c d : Connection} {w : Write} {rows : Nat}
    (h : c.write w = (.ok rows, d)) : Effect.touches ⟨w, c, d⟩ = decide (0 < rows) := by
  rcases write_cases c w with ⟨failure, d', hw, -⟩ | ⟨rows', d', hw, hd⟩
  · rw [h] at hw
    cases hw
  · rw [h] at hw
    cases hw
    simp [Effect.touches, hd.run]

theorem Connection.accounts_write {α : Type} {c : Connection} {w : Write} {next : Nat → Script α}
    (h : ∀ rows d, c.write w = (.ok rows, d) → d.effects (next rows) = [] ∧
      changesIn (d.exec (next rows)).notes = (Effect.event? ⟨w, c, d⟩).toList) :
    changesIn (c.exec (.write w next)).notes =
      (c.effects (.write w next)).filterMap Effect.event? := by
  unfold exec effects
  rcases write_cases c w with ⟨failure, d, hw, -⟩ | ⟨rows, d, hw, -⟩
  · simp [hw]
  · obtain ⟨he, hn⟩ := h rows d hw
    simp only [hw, he, hn, List.filterMap_cons, List.filterMap_nil]
    cases Effect.event? ⟨w, c, d⟩ <;> rfl

namespace Membership

theorem accounts_add (topic subscriber : String) (details : Details) (expiry : Option Int)
    (requestId : Option String) :
    (add topic subscriber details expiry requestId).inline.Accounts := by
  unfold Operation.inline
  split
  · exact fun _ => rfl
  · unfold add
    simp only [Script.bind_eq, Script.bind_assoc]
    refine .bind (Script.accounts_ofExcept _) fun written c => ?_
    apply Connection.accounts_write
    intro rows d hw
    simp only [Effect.event?, Connection.touches_of_write hw, Script.bind]
    by_cases hr : 0 < rows
    · simp only [hr, if_true, decide_true]
      exact ⟨rfl, rfl⟩
    · simp only [hr, if_false, decide_false]
      exact ⟨rfl, rfl⟩

theorem accounts_remove (topic subscriber : String) :
    (remove topic subscriber).inline.Accounts := by
  intro c
  apply Connection.accounts_write
  intro rows d hw
  simp only [Effect.event?, Connection.touches_of_write hw, Script.bind]
  by_cases hr : 0 < rows
  · simp only [hr, if_true, decide_true]
    exact ⟨rfl, rfl⟩
  · simp only [hr, if_false, decide_false]
    exact ⟨rfl, rfl⟩

end Membership

namespace Negotiation

theorem exec_lookUp (c : Connection) (topic : String) :
    (c.exec (lookUp topic)).notes = [] ∧ c.effects (lookUp topic) = [] ∧
      ((∃ failure, (c.exec (lookUp topic)).result = .error failure) ∨
        (c.exec (lookUp topic)).result = .ok (c.view.record? topic) ∧
          (c.exec (lookUp topic)).connection.view = c.view) := by
  simp only [lookUp, Script.bind_eq, Script.see, Script.bind, Connection.exec, Connection.effects]
  by_cases ht : c.view.has .subscriptions = true
  · simp only [ht, if_true, Database.record?]
    cases hrow : c.view.subscription? topic with
    | none => exact ⟨rfl, rfl, .inr ⟨rfl, rfl⟩⟩
    | some row =>
      unfold SubscriptionRow.record
      cases hcode : State.ofCode? row.code with
      | none =>
        simp only [hcode, Except.map, Script.ofExcept]
        exact ⟨rfl, rfl, .inl ⟨.unknownCode row.code, rfl⟩⟩
      | some state =>
        simp only [hcode, Except.map, Script.ofExcept, Option.map_some, Option.getD_some]
        exact ⟨rfl, rfl, .inr ⟨rfl, rfl⟩⟩
  · simp [ht]

theorem touches_setState {c d : Connection} {topic : String} {record : SubscriptionRecord}
    (h : c.view.record? topic = some record) (next : State) :
    Effect.touches ⟨.setState topic next, c, d⟩ = true := by
  obtain ⟨row, hrow, -⟩ := Option.map_eq_some_iff.mp h
  have hpos : 0 < c.view.subscriptions.countP (·.topic = topic) := by
    apply List.countP_pos_iff.mpr
    exact ⟨row, List.mem_of_find?_eq_some hrow, by simpa using List.find?_some hrow⟩
  simpa [Effect.touches, Write.run, Database.setState] using hpos

theorem accounts_resolve (topic : String) (accepted : Bool) :
    (resolve topic accepted).inline.Accounts := by
  intro c
  have hb : (resolve topic accepted).inline = (lookUp topic).bind _ := Script.bind_assoc ..
  obtain ⟨hn, he, ⟨failure, hf⟩ | ⟨hok, hv⟩⟩ := exec_lookUp c topic
  · rw [hb, Connection.exec_bind_of_error hf, Connection.effects_bind, Connection.effectsAfter, hn,
      he, hf]
    rfl
  · rw [hb, Connection.exec_bind_of_ok hok, Connection.effects_bind, Connection.effectsAfter, hn,
      he, hok, List.nil_append, List.nil_append]
    generalize (c.exec (lookUp topic)).connection = d at hv
    rw [← hv]
    dsimp only
    cases hr : (SubscriptionRecord.stateOf (d.view.record? topic)).resolution? with
    | none => rfl
    | some resolution =>
      -- Only a topic with a record has a step to take, so the write finds its row.
      cases hrec : d.view.record? topic with
      | none =>
        rw [hrec] at hr
        cases hr
      | some record =>
        rw [hrec] at hr
        simp only [check, State.canBecome_outcome hr accepted, if_true, Script.bind_eq, Script.bind]
        apply Connection.accounts_write
        intro rows e hw
        refine ⟨rfl, ?_⟩
        simp only [Effect.event?, touches_setState hrec, if_true, hrec]
        rfl

end Negotiation

/-! ## Calls that are put together -/

theorem Operation.accounts_inline {α : Type} {op : Operation α} (hr : op.Reads)
    (hm : op.body.Mute) (he : op.body.Ends fun last => last.notes = []) : op.inline.Accounts := by
  refine Script.accounts_of_mute ?_ (inline_reads hr)
  unfold Operation.inline
  split
  · trivial
  · have key : ∀ s : Script (Conclusion α), s.Mute → (s.Ends fun last => last.notes = []) →
        (s.bind fun c => .noteAll c.notes (.ofExcept c.result)).Mute := by
      intro s
      induction s with
      | done c =>
        intro _ hn
        simp only [Script.Ends] at hn
        simp only [Script.bind, hn]
        exact Script.mute_ofExcept _
      | fail failure => exact fun _ _ => trivial
      | look table next ih => exact fun hm he db => ih db (hm db) (he db)
      | write w next ih => exact fun hm he rows => ih rows (hm rows) (he rows)
      | note n next ih => exact fun hm => hm.elim
    exact key _ hm he

namespace Negotiation

theorem mute_lookUp (topic : String) : (lookUp topic).Mute := by
  refine .bind (Script.mute_see _ _) fun row => ?_
  cases row with
  | none => trivial
  | some row => exact Script.mute_ofExcept _

theorem mute_check (topic : String) (current next : State) : (check topic current next).Mute := by
  unfold check
  split <;> trivial

theorem accounts_get (topic : String) : (get topic).inline.Accounts :=
  Operation.accounts_inline (get_reads topic) ((mute_lookUp topic).bind fun _ => trivial)
    (.bind (.true _) fun _ _ => rfl)

end Negotiation

theorem Membership.concludeOne_notes (row : Option MemberRow) : (concludeOne row).notes = [] := by
  cases row <;> rfl

theorem Membership.accounts_isSubscribed (topic subscriber : String) :
    (isSubscribed topic subscriber).inline.Accounts := by
  refine Operation.accounts_inline ((get_reads topic subscriber).map _) (fun _ => trivial) ?_
  exact fun db => concludeOne_notes (db.member? topic subscriber)

namespace Response

theorem accounts_confirmWithMember (topic subscriber : String) (details : Details)
    (expiry : Option Int) : (confirmWithMember topic subscriber details expiry).Accounts := by
  refine .bind (Negotiation.accounts_get topic) fun record =>
    .bind (Negotiation.accounts_resolve topic true) fun state => ?_
  dsimp only
  split
  · exact .bind (Membership.accounts_add topic subscriber details expiry _) fun _ =>
      Script.accounts_done _
  · exact .bind (Membership.accounts_remove topic subscriber) fun _ => Script.accounts_done _

theorem accounts_handle (requestId : Option String) (accepted : Bool) (subscriber : String)
    (details : Details) (expiry : Option Int) :
    (handle requestId accepted subscriber details expiry).body.Accounts := by
  have hreads := Negotiation.topicOfRequest_reads requestId
  refine .bind (Operation.accounts_inline hreads (fun _ => trivial) fun _ => rfl) fun topic => ?_
  cases topic with
  | none => exact Script.accounts_done _
  | some topic =>
    refine .bind (.catching ?_ _) fun result => ?_
    · cases accepted with
      | true => exact accounts_confirmWithMember topic subscriber details expiry
      | false => exact Negotiation.accounts_resolve topic false
    · cases result <;> exact Script.accounts_done _

end Response

theorem Healing.accounts_heal (topic subscriber : String) : (heal topic subscriber).body.Accounts := by
  refine .bind (Operation.accounts_inline (fun _ => trivial) (fun _ => trivial) fun _ => rfl)
    fun registered => .bind (Negotiation.accounts_get topic) fun record =>
      .bind (Membership.accounts_isSubscribed topic subscriber) fun present =>
        .bind ?_ fun changed => ?_
  · rcases repair_cases topic subscriber registered record present with h | h | ⟨-, requestId, h⟩
    · exact h ▸ Script.accounts_done false
    · exact h ▸ Membership.accounts_remove topic subscriber
    · exact h ▸ Membership.accounts_add topic subscriber .empty (some 0) requestId
  · cases changed <;> exact Script.accounts_done _

namespace Call

/-- The calls in whose transactions other calls are made. -/
def isComposed : Call → Bool
  | .applyConfirmation .. | .handleResponse .. | .heal .. => true
  | _ => false

theorem accounts {call : Call} (h : call.isComposed = true) : call.operation.body.Accounts := by
  cases call with
  | applyConfirmation topic subscriber details expiry =>
    refine .bind (.bind (.bind ?_ fun _ => Script.accounts_done _) fun _ => Script.accounts_done _)
      fun _ => Script.accounts_done _
    exact Response.accounts_confirmWithMember topic subscriber details expiry
  | handleResponse requestId accepted subscriber details expiry =>
    refine .bind ?_ fun _ => Script.accounts_done _
    exact Response.accounts_handle requestId accepted subscriber details expiry
  | heal topic subscriber =>
    exact .bind (Healing.accounts_heal topic subscriber) fun _ => Script.accounts_done _
  | _ => cases h

/-! ## Other calls -/

theorem mute_reading {α : Type} (topic : String) (f : TopicRecord → α) :
    (Directory.reading topic f).body.Mute := by
  refine .bind (Script.mute_see _ _) fun record => ?_
  cases record <;> trivial

theorem mute_request (topic : String) (next : State) (requestId : String) :
    (Negotiation.request topic next requestId).Mute :=
  .bind (.bind (Negotiation.mute_lookUp topic) fun _ => trivial) fun _ =>
    .bind (Negotiation.mute_check topic _ next) fun _ _ => trivial

theorem mute_resolve (topic : String) (accepted : Bool) :
    (Negotiation.resolve topic accepted).body.Mute := by
  refine .bind (Negotiation.mute_lookUp topic) fun record => ?_
  dsimp only
  split
  · trivial
  · exact .bind (Negotiation.mute_check topic _ _) fun _ _ => trivial

theorem mute_retire (topic : String) : (Negotiation.retire topic).body.Mute := by
  refine .bind (Negotiation.mute_lookUp topic) fun record => .bind (Script.mute_issue _) fun _ => ?_
  split <;> trivial

theorem mute {call : Call} (h : call.isComposed = false) : call.operation.body.Mute := by
  cases call with
  | registerTopic topic publisher details enabled =>
    exact .bind (.bind (Script.mute_ofExcept _) fun _ _ => trivial) fun _ => trivial
  | deregisterTopic topic => exact fun _ _ => trivial
  | setNotification topic enabled =>
    refine .bind (.bind (Script.mute_ofExcept _) fun code =>
      .bind (Script.mute_issue _) fun rows => ?_) fun _ => trivial
    split
    · trivial
    · refine .bind (Script.mute_see _ _) fun registered => ?_
      cases registered <;> trivial
  | getPublisher topic => exact (mute_reading topic _).bind fun _ => trivial
  | isNotificationEnabled topic => exact (mute_reading topic _).bind fun _ => trivial
  | getActivePublisher topic => exact (mute_reading topic _).bind fun _ => trivial
  | addSubscriber topic subscriber details expiry requestId =>
    refine .bind (.bind (Script.mute_ofExcept _) fun written =>
      .bind (Script.mute_issue _) fun rows => ?_) fun _ => trivial
    split <;> trivial
  | removeSubscriber topic subscriber =>
    refine .bind (.bind (Script.mute_issue _) fun rows => ?_) fun _ => trivial
    split <;> trivial
  | requestSubscribe topic requestId =>
    refine .bind (.bind (Script.mute_see _ _) fun registered => ?_) fun _ => trivial
    cases registered with
    | true => exact mute_request topic .subscribePending requestId
    | false => trivial
  | requestUnsubscribe topic requestId =>
    exact (mute_request topic .unsubscribePending requestId).bind fun _ => trivial
  | confirm topic => exact (mute_resolve topic true).bind fun _ => trivial
  | deny topic => exact (mute_resolve topic false).bind fun _ => trivial
  | retire topic => exact (mute_retire topic).bind fun _ => trivial
  | currentState topic =>
    refine .bind (.bind (.bind (Negotiation.mute_lookUp topic) ?_) ?_) ?_ <;> exact fun _ => trivial
  | getSubscription topic =>
    exact .bind (.bind (Negotiation.mute_lookUp topic) fun _ => trivial) fun _ => trivial
  | purge topic =>
    refine .bind (.bind (Script.mute_issue _) fun rows => ?_) fun _ => trivial
    split <;> trivial
  | checkPublish topic =>
    exact .bind (.bind (mute_reading topic _) fun _ => trivial) fun _ => trivial
  | applyDenial topic => exact .bind (.bind (mute_resolve topic false) fun _ => trivial) fun _ => trivial
  | handleWithdrawal topic => exact .bind (.bind (mute_retire topic) fun _ => trivial) fun _ => trivial
  | applyConfirmation | handleResponse | heal => cases h
  | _ => exact fun _ => trivial

/-! ## Conclusions from failures -/

theorem reading_ends {α : Type} (topic : String) (f : TopicRecord → α) :
    (Directory.reading topic f).body.Ends fun last => last.notes = [] := by
  intro db
  cases hrow : db.topic? topic <;>
  simp [Script.bind, hrow, Script.Ends, Conclusion.answer, Conclusion.refuse]

theorem ends_discreet (call : Call) : call.operation.body.Ends fun last =>
    ∀ failure, last.result = .error failure → changesIn last.notes = [] := by
  cases hq : call.isQuery with
  | false =>
    have h := Script.Ends.bind (f := .done) (R := fun last : Conclusion Reply =>
      ∀ failure, last.result = .error failure → changesIn last.notes = [])
      (call.answers_of_not_isQuery hq) fun last hl failure hf => by
        obtain ⟨reply, hok⟩ := hl
        rw [hok] at hf
        cases hf
    rwa [Script.bind_done] at h
  | true =>
    have hplain : ∀ {α : Type} {op : Operation α} (f : α → Reply),
        (op.body.Ends fun last => last.notes = []) → (op.map f).body.Ends fun last =>
          ∀ failure, last.result = .error failure → changesIn last.notes = [] := by
      intro α op f hop
      refine Script.Ends.bind hop fun last hn failure _ => ?_
      simp only [Conclusion.map, hn, changesIn_nil]
    cases call with
    | getPublisher topic => exact hplain _ (reading_ends topic _)
    | isNotificationEnabled topic => exact hplain _ (reading_ends topic _)
    | getActivePublisher topic => exact hplain _ (reading_ends topic _)
    | checkPublish topic =>
      refine Script.Ends.bind (Q := fun last => changesIn last.notes = [])
        (Script.Ends.bind (reading_ends topic _) fun last hn => ?_) fun last hl _ _ => hl
      simp only [hn, List.nil_append, Script.Ends]
      split <;> rfl
    | firstSubscriber topic => exact hplain _ fun db => Membership.concludeOne_notes _
    | getSubscriber topic subscriber => exact hplain _ fun db => Membership.concludeOne_notes _
    | isSubscribed topic subscriber => exact hplain _ fun db => Membership.concludeOne_notes _
    | currentState topic => exact hplain _ (.bind (.true _) fun _ _ => rfl)
    | getSubscription topic => exact hplain _ (.bind (.true _) fun _ _ => rfl)
    | _ =>
      first
        | exact fun _ _ _ => rfl
        | cases hq

theorem changesIn_recover (call : Call) (failure : Failure) :
    changesIn (call.operation.recover failure).notes = [] := by
  cases call with
  | checkPublish topic => cases failure <;> rfl
  | applyConfirmation topic subscriber details expiry => cases failure <;> rfl
  | applyDenial topic => cases failure <;> rfl
  | _ => rfl

end Call

/-! ## Failed calls -/

theorem Connection.changesIn_rollback (c : Connection) : changesIn c.rollback.1 = [] := by
  unfold rollback
  split
  · rfl
  · simp only
    split <;> rfl

theorem Handle.changes_of_failure {h : Handle} (he : h.entered = false) {call : Call}
    {failure : Failure} (hf : (h.perform call.operation).result = .error failure) :
    changesIn (h.perform call.operation).notes =
      if call.isComposed then (h.effects call.operation).filterMap Effect.event? else [] := by
  -- The body has told of what it has written, if the call is put together, and else of nothing.
  have hbody : ∀ c : Connection, changesIn (c.exec call.operation.body).notes =
      if call.isComposed then (c.effects call.operation.body).filterMap Effect.event? else [] := by
    intro c
    cases hc : call.isComposed with
    | true => exact call.accounts hc c
    | false => simp [(call.mute hc).exec c]
  have hup : ∀ (c : Connection) (before : List Note) (cause : Failure),
      changesIn (c.giveUp before call.operation cause).notes = changesIn before := by
    intro c before cause
    simp [Connection.giveUp, Connection.conclude, Connection.changesIn_rollback,
      call.changesIn_recover]
  simp only [perform, effects, he, Bool.false_eq_true, if_false] at hf ⊢
  unfold Connection.transact at hf ⊢
  cases hr : call.operation.refusal with
  | some refusal => simp
  | none =>
    simp only [hr] at hf
    cases ho : h.connection.open? with
    | mk fault? d =>
      cases fault? with
      | some fault => simp [hup]
      | none =>
        simp only [ho] at hf
        simp only [← hbody]
        cases hx : (d.exec call.operation.body).result with
        | error cause => simp only [hup]
        | ok last =>
          simp only [hx] at hf
          cases hcom : (d.exec call.operation.body).connection.commit with
          | mk fault? e =>
            cases fault? with
            | some fault => simp only [hup]
            | none =>
              simp only [hcom, Connection.conclude] at hf ⊢
              have heval := congrArg Prod.fst (Connection.eval_of_exec hx)
              rw [changesIn_append, call.ends_discreet.of_eval heval failure hf, List.append_nil]

namespace World

theorem log_takeNote (w : World) (i : Nat) (n : Note) :
    (takeNote i w n).log = w.log ++ eventsIn [n] := by
  cases n with
  | event e => rfl
  | count name =>
    have hlog : (takeNote i w (.count name)).log = w.log := by
      simp only [takeNote]
      split <;> rfl
    rw [hlog]
    exact (List.append_nil _).symm

theorem log_takeNotes (w : World) (i : Nat) (notes : List Note) :
    (w.takeNotes i notes).log = w.log ++ eventsIn notes := by
  unfold takeNotes
  induction notes generalizing w with
  | nil => exact (List.append_nil _).symm
  | cons n notes ih =>
    rw [List.foldl_cons, ih, log_takeNote, List.append_assoc, ← eventsIn_append]
    rfl

/-- The writes that a call executes on a store, whether or not they last. -/
def executed {α : Type} (w : World) (i : Nat) (op : Operation α) : List Effect :=
  match w.stores[i]? with
  | none => []
  | some s =>
    match s.link with
    | none => []
    | some link => Handle.effects ⟨s.openings, s.entered, w.connection i link⟩ op

/-- A call outside every block that fails changes nothing in its database. The log has been told of no
change, unless the call is put together from others; then it has been told of every write on a
membership and every step that was executed before the failure. -/
theorem failure_reports {w : World} {i : Nat} (ho : ∀ s, w.stores[i]? = some s → s.entered = false)
    {call : Call} {failure : Failure} (hf : (w.call i call.operation).2 = .error failure) :
    (∃ events, (w.call i call.operation).1.log = w.log ++ events ∧
      events.filter Event.isChange = if call.isComposed then
        (w.executed i call.operation).filterMap Effect.event? else []) ∧
    ∀ db, w.committed? i = some db → (w.call i call.operation).1.committed? i = some db := by
  -- Without a connection no write is executed, and there is none to tell of.
  have hunlinked : ∀ cause, ∃ events,
      (w.callUnlinked i call.operation cause).1.log = w.log ++ events ∧
        events.filter Event.isChange = [] := by
    intro cause
    unfold callUnlinked
    split
    · exact ⟨[], (List.append_nil _).symm, rfl⟩
    · exact ⟨_, log_takeNotes .., call.changesIn_recover cause⟩
  constructor
  · cases hs : w.stores[i]? with
    | none =>
      obtain ⟨events, hlog, hnone⟩ := hunlinked .unlinked
      exact ⟨events, by simpa only [World.call, hs] using hlog, by simp [executed, hs, hnone]⟩
    | some s =>
      cases hl : s.link with
      | none =>
        obtain ⟨events, hlog, hnone⟩ :=
          hunlinked (if s.entered then .unlinked else .store (.notOpen s.path))
        exact ⟨events, by simpa only [World.call, hs, hl] using hlog, by simp [executed, hs, hl, hnone]⟩
      | some link =>
        have he := ho s hs
        unfold World.call executed at *
        simp only [hs, hl] at hf ⊢
        refine ⟨_, by rw [log_takeNotes, log_putBack], ?_⟩
        exact Handle.changes_of_failure (h := ⟨s.openings, s.entered, w.connection i link⟩) he hf
  · intro db hd
    obtain ⟨h, hh, rfl⟩ := Option.map_eq_some_iff.mp hd
    obtain ⟨s, link, _, hs, -, -, -, he⟩ := handle?_eq_some.mp hh
    have hout : h.entered = false := by rw [he]; exact ho s hs
    obtain ⟨hr, hh'⟩ := handle_call hh call.operation
    have hp : h.perform call.operation = h.connection.transact call.operation := by
      simp [Handle.perform, hout]
    rw [committed?_of_handle hh', hp]
    rw [hr, hp] at hf
    rcases h.connection.transact_call call with ⟨_, -, hc⟩ | ⟨reply, hok, -⟩
    · rw [hc]
    · rw [hok] at hf
      cases hf

/-- A pending request on a store that will refuse its next commit. -/
def doomed : World := ((lone .fresh []).run 0 asked).refusing 0 [⟨.commit, 0, 1⟩]

theorem failure_reports_doomed :
    let op := (Call.applyConfirmation "t" "s" (.list []) (some 0)).operation
    (doomed.call 0 op).2 = .error (.store (.transaction .refused)) ∧
      ∃ events, (doomed.call 0 op).1.log = doomed.log ++ events ∧
        (events.filter Event.isChange).map Event.name =
          ["subscriptions.transition", "subscribers.added"] := by
  intro op
  have hf : (doomed.call 0 op).2 = .error (.store (.transaction .refused)) := rfl
  have ho : ∀ s, doomed.stores[0]? = some s → s.entered = false := by
    intro s hs
    cases hs
    rfl
  obtain ⟨⟨events, hlog, hchanges⟩, -⟩ := failure_reports ho hf
  refine ⟨hf, events, hlog, ?_⟩
  rw [hchanges]
  decide +kernel

/-- A confirmation whose commit is refused has reported the step and the new member, and the database
is as it was. -/
theorem reported_and_lost :
    let op := (Call.applyConfirmation "t" "s" (.list []) (some 0)).operation
    (doomed.call 0 op).2 = .error (.store (.transaction .refused)) ∧
      (doomed.call 0 op).1.log = doomed.log ++
        [.transition "t" .subscribePending .subscribed (some "r"), .subscriberAdded "t" "s"] ∧
      (doomed.call 0 op).1.committed? 0 = doomed.committed? 0 :=
  ⟨rfl, rfl, rfl⟩

end World

end PubSub
