import PubSub.Proofs.Calls
import PubSub.Proofs.Rows

/-!
# What operations return

On a well-formed database, each operation that changes states or memberships
returns under one condition and leaves one database, both written out here. The
rest of the development does not open their bodies.
-/

namespace PubSub

open Script (eval_bind_ok eval_see_ok eval_issue_ok eval_ofExcept_ok)

theorem required_eq_none {what value : String} : required what value = none ↔ value ≠ "" := by
  unfold required
  split
  · rename_i h
    simp [String.isEmpty_iff.mp h]
  · rename_i h
    simp only [true_iff]
    rintro rfl
    exact h rfl

theorem orElse_eq_none {α : Type} {a b : Option α} : (a <|> b) = none ↔ a = none ∧ b = none := by
  cases a <;> simp

theorem eq_of_required {what value : String} {failure : Failure}
    (h : required what value = some failure) : failure = .empty what := by
  unfold required at h
  split at h <;> cases h
  rfl

theorem forall_orElse {α : Type} {P : α → Prop} {a b : Option α} (ha : ∀ x, a = some x → P x)
    (hb : ∀ x, b = some x → P x) (x : α) (h : (a <|> b) = some x) : P x := by
  cases a with
  | none => exact hb x h
  | some first => exact ha x h

theorem Flag.eq_of_code_error {flag : Flag} {failure : Failure} (h : flag.code = .error failure) :
    failure = .missingNumber := by
  cases flag with
  | plain b => cases b <;> cases h
  | coded n => cases h
  | absent =>
    cases h
    rfl

theorem State.resolution?_cases {s : State} {r : Resolution} (h : s.resolution? = some r) :
    (s = .subscribePending ∧ r = ⟨.subscribed, .unsubscribed⟩) ∨
      (s = .unsubscribePending ∧ r = ⟨.unsubscribed, .subscribed⟩) := by
  cases s with
  | subscribePending =>
    cases h
    exact .inl ⟨rfl, rfl⟩
  | unsubscribePending =>
    cases h
    exact .inr ⟨rfl, rfl⟩
  | _ => cases h

theorem State.not_pending_outcome {s : State} {r : Resolution} (h : s.resolution? = some r)
    (accepted : Bool) : (r.outcome accepted).isPending = false := by
  rcases State.resolution?_cases h with ⟨-, rfl⟩ | ⟨-, rfl⟩ <;> cases accepted <;> rfl

/-! ## Well-formed databases -/

theorem Database.WellFormed.eval {α : Type} {db : Database} (h : db.WellFormed) (s : Script α) :
    (s.eval db).2.WellFormed := by
  have hs : s.Only fun _ => True := by
    induction s with
    | done value => trivial
    | fail failure => trivial
    | look table next ih => exact ih
    | write w next ih => exact ⟨trivial, ih⟩
    | note n next ih => exact ih
  exact hs.keeps (fun w _ db rows db' hdb hrun => wellFormed_run hrun hdb) h

theorem Database.WellFormed.returns {α : Type} {db db' : Database} {op : Operation α} {a : α}
    (h : db.WellFormed) (hr : op.Returns db a db') : db'.WellFormed := by
  have := h.eval op.inline
  rw [hr] at this
  exact this

/-- The record of a topic, which reading its row gives. -/
def Database.record? (db : Database) (topic : String) : Option SubscriptionRecord :=
  (db.subscription? topic).map fun row =>
    ⟨row.topic, (State.ofCode? row.code).getD .unsubscribed, row.requestId⟩

theorem stateOf_record? (db : Database) (topic : String) :
    SubscriptionRecord.stateOf (db.record? topic) = db.stateOf topic := by
  unfold Database.record? Database.stateOf
  cases db.subscription? topic <;> rfl

theorem requestOf_record? (db : Database) (topic : String) :
    (db.record? topic).bind (·.requestId) = db.requestOf topic := by
  unfold Database.record? Database.requestOf
  cases db.subscription? topic <;> rfl

section
variable {db db' : Database} (h : db.WellFormed)

include h

/-! ## States -/

namespace Negotiation

theorem lookUp_eval (topic : String) :
    (lookUp topic).eval db = (.ok (db.record? topic), db) := by
  simp only [lookUp, Script.bind_eq, Script.eval_bind, Script.eval_see (h.has .subscriptions),
    Script.andThen_ok, Database.record?]
  cases hs : db.subscription? topic with
  | none => rfl
  | some row =>
    obtain ⟨state, hc⟩ := h.codes row (List.mem_of_find?_eq_some hs)
    simp [SubscriptionRow.record, hc, State.ofCode?_code, Except.map]

theorem stateNow_eval (topic : String) :
    (stateNow topic).eval db = (.ok (db.stateOf topic), db) := by
  simp [stateNow, Script.eval_bind, lookUp_eval h, stateOf_record?]

theorem currentState_returns (topic : String) :
    (currentState topic).Returns db (db.stateOf topic) db := by
  refine Operation.returns_iff.mpr ⟨rfl, .answer (db.stateOf topic), ?_, rfl⟩
  simp [currentState, Script.eval_bind, stateNow_eval h]

theorem get_returns (topic : String) : (get topic).Returns db (db.record? topic) db := by
  refine Operation.returns_iff.mpr ⟨rfl, .answer (db.record? topic), ?_, rfl⟩
  simp [get, Script.eval_bind, lookUp_eval h]

theorem request_eval (topic : String) (next : State) (requestId : String) :
    (request topic next requestId).eval db =
      if (db.stateOf topic).canBecome next then
        (.ok (.answer () [.event (.transition topic (db.stateOf topic) next (some requestId))]),
          db.putSubscription ⟨topic, next.code, some requestId⟩)
      else (.error (.invalidTransition topic (db.stateOf topic) next), db) := by
  simp only [request, Script.bind_eq, Script.eval_bind, stateNow_eval h, Script.andThen_ok, check]
  have hw : (Script.issue (.putSubscription topic next (some requestId))).eval db =
      (.ok 1, db.putSubscription ⟨topic, next.code, some requestId⟩) :=
    eval_issue_ok.mpr ⟨h.has _, rfl, rfl⟩
  split
  · simp [Script.eval_bind, hw]
  · simp

theorem requestSubscribe_eval (topic requestId : String) :
    (requestSubscribe topic requestId).body.eval db =
      if (db.topic? topic).isSome then (request topic .subscribePending requestId).eval db
      else (.error (.notFound "topic" topic), db) := by
  simp only [requestSubscribe, Script.bind_eq, Script.eval_bind, Script.eval_see (h.has .topics),
    Script.andThen_ok]
  split <;> rfl

theorem requestSubscribe_returns {topic requestId : String} :
    (requestSubscribe topic requestId).Returns db () db' ↔
      requestId ≠ "" ∧ (db.topic? topic).isSome ∧
        (db.stateOf topic).canBecome .subscribePending ∧
        db' = db.putSubscription ⟨topic, State.subscribePending.code, some requestId⟩ := by
  have hb := requestSubscribe_eval h topic requestId
  by_cases ht : (db.topic? topic).isSome
  · rw [if_pos ht, request_eval h] at hb
    by_cases hc : (db.stateOf topic).canBecome .subscribePending
    · rw [if_pos hc] at hb
      rw [Operation.returns_of_ok hb]
      simp [requestSubscribe, required_eq_none, Conclusion.answer, ht, hc]
    · rw [if_neg hc] at hb
      simp [Operation.not_returns_of_error hb, hc]
  · rw [if_neg ht] at hb
    simp [Operation.not_returns_of_error hb, ht]

theorem requestUnsubscribe_returns {topic requestId : String} :
    (requestUnsubscribe topic requestId).Returns db () db' ↔
      requestId ≠ "" ∧ (db.stateOf topic).canBecome .unsubscribePending ∧
        db' = db.putSubscription ⟨topic, State.unsubscribePending.code, some requestId⟩ := by
  have hb : (requestUnsubscribe topic requestId).body.eval db = _ :=
    request_eval h topic .unsubscribePending requestId
  by_cases hc : (db.stateOf topic).canBecome .unsubscribePending
  · rw [if_pos hc] at hb
    rw [Operation.returns_of_ok hb]
    simp [requestUnsubscribe, required_eq_none, Conclusion.answer, hc]
  · rw [if_neg hc] at hb
    simp [Operation.not_returns_of_error hb, hc]

theorem resolve_body_eval (topic : String) (accepted : Bool) :
    (resolve topic accepted).body.eval db =
      match (db.stateOf topic).resolution? with
      | some resolution =>
        (.ok (.answer (resolution.outcome accepted) [.event (.transition topic (db.stateOf topic)
            (resolution.outcome accepted) (db.requestOf topic))]),
          (db.setState topic (resolution.outcome accepted)).2)
      | none =>
        (.error (.invalidTransition topic (db.stateOf topic) (.expected accepted)), db) := by
  simp only [resolve, Script.bind_eq, Script.eval_bind, lookUp_eval h, Script.andThen_ok,
    stateOf_record?, requestOf_record?]
  cases hr : (db.stateOf topic).resolution? with
  | none => rfl
  | some resolution =>
    have hw : (Script.issue (.setState topic (resolution.outcome accepted))).eval db =
        (.ok _, (db.setState topic (resolution.outcome accepted)).2) :=
      eval_issue_ok.mpr ⟨h.has _, rfl, rfl⟩
    simp [check, State.canBecome_outcome hr, Script.eval_bind, hw]

theorem resolve_eval (topic : String) (accepted : Bool) :
    (resolve topic accepted).inline.eval db =
      match (db.stateOf topic).resolution? with
      | some resolution =>
        (.ok (resolution.outcome accepted),
          (db.setState topic (resolution.outcome accepted)).2)
      | none =>
        (.error (.invalidTransition topic (db.stateOf topic) (.expected accepted)), db) := by
  rw [Operation.eval_inline rfl, resolve_body_eval h]
  cases (db.stateOf topic).resolution? <;> rfl

theorem resolve_returns {topic : String} {accepted : Bool} {state : State} :
    (resolve topic accepted).Returns db state db' ↔
      ∃ resolution, (db.stateOf topic).resolution? = some resolution ∧
        state = resolution.outcome accepted ∧ db' = (db.setState topic state).2 := by
  unfold Operation.Returns
  rw [resolve_eval h]
  cases (db.stateOf topic).resolution? with
  | none => simp
  | some resolution =>
    simp only [Prod.mk.injEq, Except.ok.injEq, Option.some.injEq, exists_eq_left']
    constructor
    · rintro ⟨rfl, rfl⟩
      exact ⟨rfl, rfl⟩
    · rintro ⟨rfl, rfl⟩
      exact ⟨rfl, rfl⟩

theorem retire_body_eval (topic : String) :
    (retire topic).body.eval db =
      (.ok (if db.stateOf topic = .deprecated then .answer ()
        else .answer () [.event (.transition topic (db.stateOf topic) .deprecated none)]),
        db.putSubscription ⟨topic, State.deprecated.code, db.requestOf topic⟩) := by
  have hw : (Script.issue (.putSubscription topic .deprecated (db.requestOf topic))).eval db =
      (.ok 1, db.putSubscription ⟨topic, State.deprecated.code, db.requestOf topic⟩) :=
    eval_issue_ok.mpr ⟨h.has _, rfl, rfl⟩
  simp only [retire, Script.bind_eq, Script.eval_bind, lookUp_eval h, Script.andThen_ok,
    stateOf_record?, requestOf_record?, hw]
  split <;> simp

theorem retire_returns {topic : String} :
    (retire topic).Returns db () db' ↔
      db' = db.putSubscription ⟨topic, State.deprecated.code, db.requestOf topic⟩ := by
  rw [Operation.returns_of_ok (retire_body_eval h topic)]
  refine (and_iff_right rfl).trans (and_iff_right ?_)
  split <;> rfl

omit h in
theorem purge_returns {topic : String} {gone : Bool} (hr : (purge topic).Returns db gone db') :
    gone = decide (0 < (db.dropSubscription topic).1) ∧ db' = (db.dropSubscription topic).2 := by
  obtain ⟨-, last, hb, hl⟩ := Operation.returns_iff.mp hr
  obtain ⟨rows, db₁, hw, hd⟩ := eval_bind_ok.mp hb
  obtain ⟨-, -, hrun⟩ := eval_issue_ok.mp hw
  cases hrun
  split at hd
  · rename_i hrows
    cases hd
    cases hl
    exact ⟨(decide_eq_true hrows).symm, rfl⟩
  · rename_i hrows
    cases hd
    cases hl
    exact ⟨(decide_eq_false hrows).symm, rfl⟩

omit h in
theorem purgeDeprecated_returns {rows : Nat} (hr : purgeDeprecated.Returns db rows db') :
    (rows, db') = db.dropInState .deprecated := by
  obtain ⟨-, last, hb, hl⟩ := Operation.returns_iff.mp hr
  obtain ⟨rows', db₁, hw, hd⟩ := eval_bind_ok.mp hb
  obtain ⟨-, -, hrun⟩ := eval_issue_ok.mp hw
  cases hd
  cases hl
  exact (Except.ok.inj hrun).symm

theorem topicOfRequest_returns {requestId : Option String} {topic : Option String} :
    (topicOfRequest requestId).Returns db topic db' ↔
      topic = (db.carrier? requestId).map (·.topic) ∧ db' = db := by
  have hb : (topicOfRequest requestId).body.eval db =
      (.ok (.answer ((db.carrier? requestId).map (·.topic))), db) := by
    simp [topicOfRequest, Script.eval_bind, Script.eval_see (h.has .subscriptions)]
  rw [Operation.returns_of_ok hb]
  simp [topicOfRequest, Conclusion.answer, eq_comm]

end Negotiation

/-! ## Topics and members -/

theorem Directory.isRegistered_returns {topic : String} {registered : Bool} :
    (isRegistered topic).Returns db registered db' ↔
      registered = (db.topic? topic).isSome ∧ db' = db := by
  have hb : (isRegistered topic).body.eval db = (.ok (.answer (db.topic? topic).isSome), db) := by
    simp [isRegistered, holds, Script.eval_bind, Script.eval_see (h.has .topics)]
  rw [Operation.returns_of_ok hb]
  simp [isRegistered, Conclusion.answer, eq_comm]

omit h in
theorem Directory.register_returns {topic publisher : String} {details : Option String}
    {enabled : Flag} (hr : (register topic publisher details enabled).Returns db () db') :
    topic ≠ "" ∧ ∃ row : TopicRow, row.topic = topic ∧ db' = db.putTopic row := by
  obtain ⟨hn, last, hb, -⟩ := Operation.returns_iff.mp hr
  refine ⟨required_eq_none.mp (orElse_eq_none.mp hn).1, ?_⟩
  simp only [register, Script.bind_eq, eval_bind_ok, eval_ofExcept_ok, eval_issue_ok] at hb
  obtain ⟨code, _, ⟨-, rfl⟩, rows, _, ⟨-, -, hrun⟩, hdone⟩ := hb
  cases hrun
  cases hdone
  exact ⟨_, rfl, rfl⟩

omit h in
theorem Directory.deregister_returns {topic : String} {rows : Nat}
    (hr : (deregister topic).Returns db rows db') :
    db' = ((db.dropTopic topic).2.dropMembers topic).2 := by
  obtain ⟨-, last, hb, -⟩ := Operation.returns_iff.mp hr
  obtain ⟨topics, db₁, hw, hb⟩ := eval_bind_ok.mp hb
  obtain ⟨members, db₂, hw', hd⟩ := eval_bind_ok.mp hb
  cases (eval_issue_ok.mp hw).2.2
  cases (eval_issue_ok.mp hw').2.2
  cases hd
  rfl

theorem Directory.returns_deregister (topic : String) :
    (deregister topic).Returns db
      (db.topics.countP (·.topic = topic) + db.members.countP (·.topic = topic))
      ((db.dropTopic topic).2.dropMembers topic).2 := by
  have htopics : (Script.issue (.dropTopic topic)).eval db = (.ok _, _) :=
    eval_issue_ok.mpr ⟨h.has .topics, rfl, rfl⟩
  have hmembers : (Script.issue (.dropMembers topic)).eval (db.dropTopic topic).2 = (.ok _, _) :=
    eval_issue_ok.mpr ⟨h.has .subscribers, rfl, rfl⟩
  exact Operation.returns_iff.mpr ⟨rfl, _,
    eval_bind_ok.mpr ⟨_, _, htopics, eval_bind_ok.mpr ⟨_, _, hmembers, rfl⟩⟩, rfl⟩

omit h in
theorem Directory.setNotification_returns {topic : String} {enabled : Flag} {changed : Bool}
    (hr : (setNotification topic enabled).Returns db changed db') :
    ∃ code, db' = (db.setNotification topic code).2 := by
  obtain ⟨-, last, hb, -⟩ := Operation.returns_iff.mp hr
  simp only [setNotification, Script.bind_eq, eval_bind_ok, eval_ofExcept_ok, eval_issue_ok] at hb
  obtain ⟨code, _, ⟨-, rfl⟩, rows, _, ⟨-, -, hrun⟩, hd⟩ := hb
  cases hrun
  refine ⟨code, ?_⟩
  split at hd
  · cases hd
    rfl
  · obtain ⟨registered, _, hsee, hd⟩ := eval_bind_ok.mp hd
    obtain ⟨-, -, rfl⟩ := eval_see_ok.mp hsee
    split at hd
    · cases hd
      rfl
    · cases hd

namespace Membership

omit h in
theorem removeAll_returns {topic : String} {rows : Nat}
    (hr : (removeAll topic).Returns db rows db') : (rows, db') = db.dropMembers topic := by
  obtain ⟨-, last, hb, hl⟩ := Operation.returns_iff.mp hr
  obtain ⟨rows', db₁, hw, hd⟩ := eval_bind_ok.mp hb
  obtain ⟨-, -, hrun⟩ := eval_issue_ok.mp hw
  cases hd
  cases hl
  exact (Except.ok.inj hrun).symm

theorem add_returns {topic subscriber : String} {details : Details} {expiry : Option Int}
    {requestId : Option String} {new : Bool} :
    (add topic subscriber details expiry requestId).Returns db new db' ↔
      topic ≠ "" ∧ subscriber ≠ "" ∧ (expiry.map Write.fits).getD true = true ∧
        ∃ written rows, details.encode = .ok written ∧ new = decide (0 < rows) ∧
          db.addMember ⟨topic, subscriber, written, expiry, requestId⟩ = .ok (rows, db') := by
  rw [Operation.returns_iff]
  simp only [add, orElse_eq_none, required_eq_none, Script.bind_eq, eval_bind_ok,
    eval_ofExcept_ok, eval_issue_ok]
  constructor
  · rintro ⟨⟨ht, hs⟩, last, ⟨written, _, ⟨he, rfl⟩, rows, db₁, ⟨-, hfit, hrun⟩, hd⟩, hl⟩
    refine ⟨ht, hs, hfit, written, rows, he, ?_⟩
    split at hd
    · rename_i hrows
      cases hd
      cases hl
      exact ⟨(decide_eq_true hrows).symm, hrun⟩
    · rename_i hrows
      cases hd
      cases hl
      exact ⟨(decide_eq_false hrows).symm, hrun⟩
  · rintro ⟨ht, hs, hfit, written, rows, he, rfl, hrun⟩
    by_cases hrows : 0 < rows
    · refine ⟨⟨ht, hs⟩, .answer true [.event (.subscriberAdded topic subscriber)],
        ⟨written, db, ⟨he, rfl⟩, rows, db', ?_, ?_⟩, ?_⟩
      · exact ⟨h.has _, hfit, hrun⟩
      · rw [if_pos hrows]
        rfl
      · simp [hrows, Conclusion.answer]
    · refine ⟨⟨ht, hs⟩, .answer false [.event (.duplicateIgnored topic subscriber)],
        ⟨written, db, ⟨he, rfl⟩, rows, db', ?_, ?_⟩, ?_⟩
      · exact ⟨h.has _, hfit, hrun⟩
      · rw [if_neg hrows]
        rfl
      · simp [hrows, Conclusion.answer]

theorem remove_returns {topic subscriber : String} {gone : Bool} :
    (remove topic subscriber).Returns db gone db' ↔
      gone = decide (0 < (db.dropMember topic subscriber).1) ∧
        db' = (db.dropMember topic subscriber).2 := by
  have hw : (Script.issue (.dropMember topic subscriber)).eval db =
      (.ok (db.dropMember topic subscriber).1, (db.dropMember topic subscriber).2) :=
    eval_issue_ok.mpr ⟨h.has _, rfl, rfl⟩
  have hb : (remove topic subscriber).body.eval db =
      (.ok (if 0 < (db.dropMember topic subscriber).1 then
          .answer true [.event (.subscriberRemoved topic subscriber)] else .answer false),
        (db.dropMember topic subscriber).2) := by
    simp only [remove, Script.bind_eq, Script.eval_bind, hw, Script.andThen_ok]
    split <;> rfl
  rw [Operation.returns_of_ok hb]
  split <;> simp [*, remove, Conclusion.answer, eq_comm]

theorem isSubscribed_returns {topic subscriber : String} {present : Bool}
    (hr : (isSubscribed topic subscriber).Returns db present db') :
    present = (db.member? topic subscriber).isSome ∧ db' = db := by
  obtain ⟨record, hg, rfl⟩ := Operation.returns_map.mp hr
  have hb : (get topic subscriber).body.eval db =
      (.ok (concludeOne (db.member? topic subscriber)), db) := by
    simp [get, Script.eval_bind, Script.eval_see (h.has .subscribers)]
  obtain ⟨-, hc, hd⟩ := (Operation.returns_of_ok hb).mp hg
  refine ⟨?_, hd⟩
  cases hm : db.member? topic subscriber with
  | none =>
    rw [hm] at hc
    cases hc
    rfl
  | some row =>
    rw [hm] at hc
    cases hrow : row.record with
    | error failure => simp [concludeOne, hrow, Except.map] at hc
    | ok read =>
      simp only [concludeOne, hrow, Except.map, Except.ok.injEq] at hc
      subst hc
      rfl

/-! ## One membership set -/

/-- One membership is there or not, and nothing else has changed but numbers. -/
structure Sets (topic subscriber : String) (present : Bool) (db db' : Database) : Prop where
  topics : db'.topics = db.topics
  subscriptions : db'.subscriptions = db.subscriptions
  members : ∀ t s, (db'.member? t s).isSome =
    if t = topic ∧ s = subscriber then present else (db.member? t s).isSome

omit h in
theorem Sets.refl (db : Database) (topic subscriber : String) :
    Sets topic subscriber (db.member? topic subscriber).isSome db db := by
  refine ⟨rfl, rfl, fun t s => ?_⟩
  split
  · rename_i hts
    rw [hts.1, hts.2]
  · rfl

theorem add_sets {topic subscriber : String} {details : Details} {expiry : Option Int}
    {requestId : Option String} {new : Bool} (he : expiry.isSome)
    (hr : (add topic subscriber details expiry requestId).Returns db new db') :
    Sets topic subscriber true db db' := by
  obtain ⟨-, -, -, written, rows, -, -, hrun⟩ := (add_returns h).mp hr
  obtain ⟨ht, hs, -⟩ := Database.addMember_frame hrun
  refine ⟨ht, hs, fun t s => ?_⟩
  rw [Database.member?_addMember hrun he]
  by_cases hts : t = topic ∧ s = subscriber
  · simp [hts]
  · simp [hts]

theorem remove_sets {topic subscriber : String} {gone : Bool}
    (hr : (remove topic subscriber).Returns db gone db') :
    Sets topic subscriber false db db' := by
  obtain ⟨-, rfl⟩ := (remove_returns h).mp hr
  refine ⟨rfl, rfl, fun t s => ?_⟩
  rw [Database.member?_dropMember]
  by_cases hts : t = topic ∧ s = subscriber
  · simp [hts]
  · simp [hts]

end Membership

end

end PubSub
