import PubSub.Proofs.Operations

/-!
# What responses and repairs return

A response that is applied moves one topic as the table of resolutions says. If
it grants something, the membership follows the new state. Where a response does
not fit, nothing was written. A repair touches one membership and no state.
-/

namespace PubSub

open Script (eval_bind_ok)

/-! ## Failures of parts -/

/-- A failure that a response does not pass over. -/
def Failure.Lasting (failure : Failure) : Prop := failure.isStale = false

theorem Failure.Lasting.of_statement {failure : Failure} (h : failure.FromStatement) :
    failure.Lasting := by
  cases failure <;> first | rfl | exact h.elim

namespace Membership

theorem add_fails (topic subscriber : String) (details : Details) (expiry : Option Int)
    (requestId : Option String) :
    (add topic subscriber details expiry requestId).Fails Failure.Lasting := by
  refine .of_answers (add_answers topic subscriber details expiry requestId) ?_ ?_
  · intro failure hr
    simp only [add, required] at hr
    split at hr
    · cases hr
      rfl
    · split at hr <;> cases hr
      rfl
  · refine Script.Fails.bind ?_ (Script.Ends.true _) fun written _ =>
      Script.Fails.bind (fun _ => trivial) (Script.Ends.true _) fun rows _ => ?_
    · cases details <;> trivial
    · split <;> trivial

theorem remove_fails (topic subscriber : String) :
    (remove topic subscriber).Fails Failure.Lasting := by
  refine .of_answers (remove_answers topic subscriber) (fun _ hr => by cases hr) ?_
  refine Script.Fails.bind (fun _ => trivial) (Script.Ends.true _) fun rows _ => ?_
  split <;> trivial

end Membership

theorem Operation.Fails.lasting_of_inline {α : Type} {op : Operation α} (h : op.Fails Failure.Lasting)
    {db : Database} {failure : Failure} (he : (op.inline.eval db).1 = .error failure) :
    failure.Lasting :=
  (h.inline.of_eval he).elim .of_statement id

/-! ## Responses -/

namespace Response

def follow (topic subscriber : String) (details : Details) (expiry : Option Int)
    (requestId : Option String) (state : State) : Script State :=
  if state = .subscribed then
    (Membership.add topic subscriber details expiry requestId).inline.bind fun _ => .done state
  else (Membership.remove topic subscriber).inline.bind fun _ => .done state

section
variable {db db' : Database} (h : db.WellFormed)

include h

theorem confirmWithMember_eval (topic subscriber : String) (details : Details)
    (expiry : Option Int) :
    (confirmWithMember topic subscriber details expiry).eval db =
      match (db.stateOf topic).resolution? with
      | some resolution =>
        (follow topic subscriber details expiry (db.requestOf topic) resolution.granted).eval
          (db.setState topic resolution.granted).2
      | none => (.error (.invalidTransition topic (db.stateOf topic) .subscribed), db) := by
  have hget : (Negotiation.get topic).inline.eval db = _ := Negotiation.get_returns h topic
  simp only [confirmWithMember, Script.bind_eq, Script.eval_bind, hget, Script.andThen_ok,
    Negotiation.confirm, Negotiation.resolve_eval h, requestOf_record?]
  cases (db.stateOf topic).resolution? with
  | none => rfl
  | some resolution =>
    simp only [Script.andThen_ok, follow]
    rfl

theorem apply_error {topic subscriber : String} {accepted : Bool} {details : Details}
    {expiry : Option Int} {failure : Failure}
    (ha : (apply topic accepted subscriber details expiry).eval db = (.error failure, db')) :
    (db.stateOf topic).resolution? = none ∧ db' = db ∨ failure.Lasting := by
  unfold apply at ha
  split at ha
  · rw [confirmWithMember_eval h] at ha
    cases hr : (db.stateOf topic).resolution? with
    | none =>
      rw [hr] at ha
      cases ha
      exact .inl ⟨rfl, rfl⟩
    | some resolution =>
      rw [hr] at ha
      simp only [follow] at ha
      right
      split at ha
      · exact (Membership.add_fails ..).lasting_of_inline (Script.error_of_bind_done (congrArg Prod.fst ha))
      · exact (Membership.remove_fails ..).lasting_of_inline (Script.error_of_bind_done (congrArg Prod.fst ha))
  · rw [Negotiation.deny, Negotiation.resolve_eval h] at ha
    cases hr : (db.stateOf topic).resolution? with
    | none =>
      rw [hr] at ha
      cases ha
      exact .inl ⟨rfl, rfl⟩
    | some resolution =>
      rw [hr] at ha
      cases ha

theorem apply_stale {topic subscriber : String} {accepted : Bool} {details : Details}
    {expiry : Option Int} {failure : Failure}
    (ha : (apply topic accepted subscriber details expiry).eval db = (.error failure, db'))
    (hs : failure.isStale = true) : (db.stateOf topic).resolution? = none ∧ db' = db := by
  refine (apply_error h ha).resolve_right fun hl => ?_
  rw [hl] at hs
  cases hs

theorem apply_iff {topic subscriber : String} {accepted : Bool} {details : Details}
    {expiry : Option Int} {state : State} :
    (apply topic accepted subscriber details expiry).eval db = (.ok state, db') ↔
      ∃ resolution, (db.stateOf topic).resolution? = some resolution ∧
        state = resolution.outcome accepted ∧
        if accepted = true then
          if state = .subscribed then
            ∃ new, (Membership.add topic subscriber details expiry (db.requestOf topic)).Returns
              (db.setState topic state).2 new db'
          else db' = ((db.setState topic state).2.dropMember topic subscriber).2
        else db' = (db.setState topic state).2 := by
  cases accepted with
  | false =>
    simp only [apply, Bool.false_eq_true, if_false]
    exact Negotiation.resolve_returns h
  | true =>
    simp only [apply, if_true, confirmWithMember_eval h]
    cases hr : (db.stateOf topic).resolution? with
    | none => simp
    | some resolution =>
      -- The membership follows in the database in which the state has moved already.
      have hw := h.setState topic resolution.granted
      simp only [follow, Option.some.injEq, exists_eq_left', Resolution.outcome, if_true]
      split
      · rename_i hg
        rw [eval_bind_ok]
        constructor
        · rintro ⟨new, db₁, ha, hd⟩
          cases hd
          exact ⟨rfl, by rw [if_pos hg]; exact ⟨new, ha⟩⟩
        · rintro ⟨rfl, ha⟩
          rw [if_pos hg] at ha
          obtain ⟨new, ha⟩ := ha
          exact ⟨new, db', ha, rfl⟩
      · rename_i hg
        rw [eval_bind_ok]
        constructor
        · rintro ⟨gone, db₁, ha, hd⟩
          cases hd
          exact ⟨rfl, by rw [if_neg hg]; exact ((Membership.remove_returns hw).mp ha).2⟩
        · rintro ⟨rfl, ha⟩
          rw [if_neg hg] at ha
          exact ⟨_, db', (Membership.remove_returns hw).mpr ⟨rfl, ha⟩, rfl⟩

section
variable {topic subscriber : String} {accepted : Bool} {details : Details} {expiry : Option Int}
  {state : State}
  (ha : (apply topic accepted subscriber details expiry).eval db = (.ok state, db'))

include ha

theorem apply_ok :
    ∃ resolution, (db.stateOf topic).resolution? = some resolution ∧
      state = resolution.outcome accepted ∧ db'.topics = db.topics ∧
      db'.subscriptions = (db.setState topic state).2.subscriptions := by
  obtain ⟨resolution, hr, hs, hm⟩ := (apply_iff h).mp ha
  refine ⟨resolution, hr, hs, ?_⟩
  split at hm
  · split at hm
    · obtain ⟨new, hadd⟩ := hm
      obtain ⟨-, -, -, written, rows, -, -, hrun⟩ :=
        (Membership.add_returns (h.setState topic state)).mp hadd
      obtain ⟨ht, hsub, -⟩ := Database.addMember_frame hrun
      exact ⟨ht, hsub⟩
    · subst hm
      exact ⟨rfl, rfl⟩
  · subst hm
    exact ⟨rfl, rfl⟩

/-- If it grants something, the subscriber is a member afterwards just if the topic is subscribed.
A refusal changes no membership. -/
theorem apply_sets (he : expiry.isSome) :
    if accepted = true then
      Membership.Sets topic subscriber (decide (state = .subscribed)) (db.setState topic state).2 db'
    else db' = (db.setState topic state).2 := by
  obtain ⟨resolution, -, -, hm⟩ := (apply_iff h).mp ha
  have hw := h.setState topic state
  split
  · rename_i hacc
    rw [if_pos hacc] at hm
    split at hm
    · rename_i hg
      obtain ⟨new, hadd⟩ := hm
      rw [decide_eq_true hg]
      exact Membership.add_sets hw he hadd
    · rename_i hg
      rw [decide_eq_false hg]
      exact Membership.remove_sets hw ((Membership.remove_returns hw).mpr ⟨rfl, hm⟩)
  · rename_i hacc
    rwa [if_neg hacc] at hm

end

/-! ## Responses by request -/

theorem handle_eval (requestId : Option String) (accepted : Bool) (subscriber : String)
    (details : Details) (expiry : Option Int) :
    (handle requestId accepted subscriber details expiry).body.eval db =
      match db.carrier? requestId with
      | none => (.ok (unknown requestId), db)
      | some row =>
        match (apply row.topic accepted subscriber details expiry).eval db with
        | (.ok _, db₁) => (.ok (.answer .applied [.count "transitions_total"]), db₁)
        | (.error failure, db₁) =>
          if failure.isStale then (.ok (stale requestId row.topic accepted failure), db₁)
          else (.error failure, db₁) := by
  have ht : (Negotiation.topicOfRequest requestId).inline.eval db =
      (.ok ((db.carrier? requestId).map (·.topic)), db) :=
    (Negotiation.topicOfRequest_returns h).mpr ⟨rfl, rfl⟩
  simp only [handle, Script.bind_eq, Script.eval_bind, ht, Script.andThen_ok]
  cases db.carrier? requestId with
  | none => rfl
  | some row =>
    simp only [Option.map_some, Script.eval_bind,
      Script.eval_catching Failure.isStale (fun _ => rfl) rfl]
    cases (apply row.topic accepted subscriber details expiry).eval db with
    | mk result db₁ =>
      cases result with
      | ok state => rfl
      | error failure =>
        simp only
        split <;> rfl

theorem handle_returns {requestId : Option String} {accepted : Bool} {subscriber : String}
    {details : Details} {expiry : Option Int} {outcome : ResponseOutcome}
    (hr : (handle requestId accepted subscriber details expiry).Returns db outcome db') :
    (outcome = .ignored ∧ db' = db) ∨
      outcome = .applied ∧ ∃ row state, db.carrier? requestId = some row ∧
        (apply row.topic accepted subscriber details expiry).eval db = (.ok state, db') := by
  have hb := handle_eval h requestId accepted subscriber details expiry
  cases hc : db.carrier? requestId with
  | none =>
    rw [hc] at hb
    obtain ⟨-, ho, hd⟩ := (Operation.returns_of_ok hb).mp hr
    cases ho
    exact .inl ⟨rfl, hd⟩
  | some row =>
    cases ha : (apply row.topic accepted subscriber details expiry).eval db with
    | mk result db₁ =>
      simp only [hc, ha] at hb
      cases result with
      | ok state =>
        obtain ⟨-, ho, rfl⟩ := (Operation.returns_of_ok hb).mp hr
        cases ho
        exact .inr ⟨rfl, row, state, rfl, ha⟩
      | error failure =>
        simp only at hb
        split at hb
        · rename_i hs
          obtain ⟨-, ho, rfl⟩ := (Operation.returns_of_ok hb).mp hr
          cases ho
          exact .inl ⟨rfl, (apply_stale h ha hs).2⟩
        · exact absurd hr (Operation.not_returns_of_error hb _ _)

theorem not_ignored {requestId : Option String} {accepted : Bool} {subscriber : String}
    {details : Details} {expiry : Option Int} {row : SubscriptionRow} {resolution : Resolution}
    (hc : db.carrier? requestId = some row)
    (hp : (db.stateOf row.topic).resolution? = some resolution) :
    ¬(handle requestId accepted subscriber details expiry).Returns db .ignored db' := by
  have hb := handle_eval h requestId accepted subscriber details expiry
  intro hr
  cases ha : (apply row.topic accepted subscriber details expiry).eval db with
  | mk result db₁ =>
    simp only [hc, ha] at hb
    cases result with
    | ok state =>
      obtain ⟨-, ho, -⟩ := (Operation.returns_of_ok hb).mp hr
      cases ho
    | error failure =>
      simp only at hb
      split at hb
      · rename_i hs
        have hnone := (apply_stale h ha hs).1
        rw [hp] at hnone
        cases hnone
      · exact Operation.not_returns_of_error hb _ _ hr

theorem handle_applied {requestId : Option String} {accepted : Bool} {subscriber : String}
    {details : Details} {expiry : Option Int} {row : SubscriptionRow} {state : State}
    (hc : db.carrier? requestId = some row)
    (ha : (apply row.topic accepted subscriber details expiry).eval db = (.ok state, db')) :
    (handle requestId accepted subscriber details expiry).Returns db .applied db' := by
  have hb := handle_eval h requestId accepted subscriber details expiry
  simp only [hc, ha] at hb
  exact (Operation.returns_of_ok hb).mpr ⟨rfl, rfl, rfl⟩

end

/-! ## Direct responses -/

theorem counted_result {α : Type} (result : Except Failure α) : (counted result).result = result := by
  cases result <;> rfl

theorem applyConfirmation_returns {topic subscriber : String} {details : Details}
    {expiry : Option Int} {db db' : Database} {state : State} :
    (applyConfirmation topic subscriber details expiry).Returns db state db' ↔
      (apply topic true subscriber details expiry).eval db = (.ok state, db') := by
  rw [applyConfirmation, Operation.returns_concluding counted_result, Operation.returns_iff]
  simp only [eval_bind_ok, Script.eval_done, Prod.mk.injEq, Except.ok.injEq, true_and]
  constructor
  · rintro ⟨last, ⟨state', db₁, ha, rfl, rfl⟩, hl⟩
    cases hl
    exact ha
  · intro ha
    exact ⟨.answer state, ⟨state, db', ha, rfl, rfl⟩, rfl⟩

theorem applyDenial_returns {topic : String} {db db' : Database} {state : State} :
    (applyDenial topic).Returns db state db' ↔ (Negotiation.deny topic).Returns db state db' :=
  Operation.returns_concluding counted_result

theorem handleWithdrawal_returns {topic : String} {db db' : Database} :
    (handleWithdrawal topic).Returns db () db' ↔ (Negotiation.retire topic).Returns db () db' :=
  Operation.returns_concluding fun result => by cases result <;> rfl

end Response

/-! ## Repairs -/

namespace Healing

/-- Whether a membership should be there after a repair. While a request is pending it stays as it
is. -/
def wanted (registered : Bool) (state : State) (present : Bool) : Bool :=
  registered &&
    match state with
    | .subscribed => true
    | .unsubscribed | .deprecated => false
    | .subscribePending | .unsubscribePending => present

theorem repair_sets {db db' : Database} (h : db.WellFormed) {topic subscriber : String}
    {registered : Bool} {record : Option SubscriptionRecord} {changed : Bool}
    (hr : (repair topic subscriber registered record (db.member? topic subscriber).isSome).eval db =
      (.ok changed, db')) :
    Membership.Sets topic subscriber
      (wanted registered (SubscriptionRecord.stateOf record) (db.member? topic subscriber).isSome)
      db db' := by
  have hkeep : (Script.done false : Script Bool).eval db = (.ok changed, db') →
      Membership.Sets topic subscriber (db.member? topic subscriber).isSome db db' := by
    intro hd
    cases hd
    exact .refl db topic subscriber
  unfold repair at hr
  generalize (db.member? topic subscriber).isSome = present at hr hkeep
  generalize SubscriptionRecord.stateOf record = state at hr
  cases registered with
  | false =>
    cases present with
    | true => exact Membership.remove_sets h hr
    | false => exact hkeep hr
  | true =>
    cases state with
    | subscribed =>
      cases present with
      | true => exact hkeep hr
      | false => exact Membership.add_sets h rfl hr
    | unsubscribed | deprecated =>
      cases present with
      | true => exact Membership.remove_sets h hr
      | false => exact hkeep hr
    | subscribePending | unsubscribePending => cases present <;> exact hkeep hr

theorem heal_repairs {db db' : Database} (h : db.WellFormed) {topic subscriber : String}
    {changed : Bool} (hr : (heal topic subscriber).Returns db changed db') :
    ∃ repaired, (repair topic subscriber (db.topic? topic).isSome (db.record? topic)
      (db.member? topic subscriber).isSome).eval db = (.ok repaired, db') := by
  obtain ⟨-, last, hb, -⟩ := Operation.returns_iff.mp hr
  simp only [heal, Script.bind_eq] at hb
  obtain ⟨registered, db₁, hreg, hb⟩ := eval_bind_ok.mp hb
  obtain ⟨rfl, rfl⟩ := (Directory.isRegistered_returns h).mp hreg
  obtain ⟨record, db₂, hget, hb⟩ := eval_bind_ok.mp hb
  cases hget.symm.trans (Negotiation.get_returns h topic)
  obtain ⟨present, db₃, hpres, hb⟩ := eval_bind_ok.mp hb
  obtain ⟨rfl, rfl⟩ := Membership.isSubscribed_returns h hpres
  obtain ⟨repaired, db₄, hrep, hb⟩ := eval_bind_ok.mp hb
  have hd : db' = db₄ := by split at hb <;> cases hb <;> rfl
  exact ⟨repaired, hd ▸ hrep⟩

theorem heal_sets {db db' : Database} (h : db.WellFormed) {topic subscriber : String}
    {changed : Bool} (hr : (heal topic subscriber).Returns db changed db') :
    Membership.Sets topic subscriber
      (wanted (db.topic? topic).isSome (db.stateOf topic) (db.member? topic subscriber).isSome)
      db db' := by
  obtain ⟨repaired, hrep⟩ := heal_repairs h hr
  rw [← stateOf_record?]
  exact repair_sets h hrep

end Healing

end PubSub
