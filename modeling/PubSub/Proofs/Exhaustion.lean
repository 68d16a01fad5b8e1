import PubSub.Proofs.Responses
import PubSub.Proofs.Transaction

/-!
# When no number is left

Once the numbers have run out, every call that comes to an insert of a membership fails
inside its transaction (`Call.full_of_insert`). Outside every block it then fails as a
transaction of its own does, whatever is refused, and commits nothing (`transact_full`).
-/

namespace PubSub

open Database (NewMember lastId)

/-! ## Inserts -/

def Membership.insertOf (topic subscriber : String) (details : Details) (expiry : Option Int)
    (requestId : Option String) : Option NewMember :=
  match (add topic subscriber details expiry requestId).refusal, details.encode with
  | none, .ok written => some ⟨topic, subscriber, written, expiry, requestId⟩
  | _, _ => none

/-- The insert of a membership that a call comes to. A response comes to one where it grants what
is pending, and healing where a member is missing. -/
def Call.insert? (db : Database) : Call → Option NewMember
  | .addSubscriber topic subscriber details expiry requestId =>
    Membership.insertOf topic subscriber details expiry requestId
  | .applyConfirmation topic subscriber details expiry =>
    if db.stateOf topic = .subscribePending then
      Membership.insertOf topic subscriber details expiry (db.requestOf topic)
    else none
  | .handleResponse requestId true subscriber details expiry =>
    match db.carrier? requestId with
    | some row =>
      if db.stateOf row.topic = .subscribePending then
        Membership.insertOf row.topic subscriber details expiry (db.requestOf row.topic)
      else none
    | none => none
  | .heal topic subscriber =>
    if (db.topic? topic).isSome ∧ db.stateOf topic = .subscribed ∧
        db.member? topic subscriber = none then
      Membership.insertOf topic subscriber .empty (some 0) (db.requestOf topic)
    else none
  | _ => none

theorem Database.run_full {db : Database} (hfull : lastId ≤ db.lastMember) (new : NewMember) :
    (Write.addMember new).run db = .error .full := if_pos hfull

section
variable {db : Database} (h : db.WellFormed) (hfull : lastId ≤ db.lastMember)
  {topic subscriber : String}
  {details : Details} {expiry : Option Int} {requestId : Option String} {new : NewMember}
  (hst : (Write.addMember new).storable = true)

include h hfull hst

namespace Membership

theorem add_full (hnew : insertOf topic subscriber details expiry requestId = some new) :
    (add topic subscriber details expiry requestId).refusal = none ∧
      (add topic subscriber details expiry requestId).body.eval db = (.error (.engine .full), db) := by
  unfold insertOf at hnew
  split at hnew
  · rename_i written hr he
    cases hnew
    refine ⟨hr, ?_⟩
    have hw : (Script.issue (.addMember ⟨topic, subscriber, written, expiry, requestId⟩)).eval db =
        (.error (.engine .full), db) := by
      simp [Script.issue, Script.eval, h.has, hst, Database.run_full hfull]
    simp only [add, Script.bind_eq, Script.eval_bind, he, Script.eval_ofExcept, Script.andThen_ok, hw]
    rfl
  · cases hnew

theorem add_inline_full (hnew : insertOf topic subscriber details expiry requestId = some new) :
    (add topic subscriber details expiry requestId).inline.eval db = (.error (.engine .full), db) := by
  obtain ⟨hr, hb⟩ := add_full h hfull hst hnew
  rw [Operation.eval_inline hr, hb]

end Membership

theorem Response.confirmWithMember_full (hp : db.stateOf topic = .subscribePending)
    (hnew : Membership.insertOf topic subscriber details expiry (db.requestOf topic) = some new) :
    ((confirmWithMember topic subscriber details expiry).eval db).1 = .error (.engine .full) := by
  have hadd := Membership.add_inline_full (h.setState topic .subscribed) hfull hst hnew
  simp only [confirmWithMember_eval h, hp, State.resolution?, follow, if_true, Script.eval_bind, hadd]
  rfl

theorem Healing.heal_full (ht : (db.topic? topic).isSome) (hs : db.stateOf topic = .subscribed)
    (hm : db.member? topic subscriber = none)
    (hnew : Membership.insertOf topic subscriber .empty (some 0) (db.requestOf topic) = some new) :
    ((heal topic subscriber).body.eval db).1 = .error (.engine .full) := by
  have hreg : (Directory.isRegistered topic).inline.eval db = (.ok true, db) :=
    Directory.isRegistered_returns h |>.mpr ⟨ht.symm, rfl⟩
  have hget : (Negotiation.get topic).inline.eval db = (.ok (db.record? topic), db) :=
    Negotiation.get_returns h topic
  have hsub : (Membership.isSubscribed topic subscriber).inline.eval db = (.ok false, db) := by
    rw [Operation.eval_inline rfl]
    simp [Membership.isSubscribed, Membership.get, Operation.map, Script.eval_bind,
      Script.eval_see (h.has .subscribers), hm, Membership.concludeOne, Conclusion.map,
      Conclusion.answer, Except.map]
  have hrepair : repair topic subscriber true (db.record? topic) false =
      (Membership.add topic subscriber .empty (some 0) (db.requestOf topic)).inline := by
    simp [repair, stateOf_record?, requestOf_record?, hs]
  have hadd := Membership.add_inline_full h hfull hst hnew
  simp only [heal, Script.bind_eq, Script.eval_bind, hreg, hget, hsub, Script.andThen_ok, hrepair,
    hadd]
  rfl

theorem Call.full_of_insert {call : Call} (hnew : call.insert? db = some new) :
    call.operation.refusal = none ∧
      (call.operation.body.eval db).1 = .error (.engine .full) := by
  -- What is concluded on top of a script does not hide its failure.
  have hmap : ∀ {α β : Type} {s : Script α} {g : α → β},
      (s.eval db).1 = .error (.engine .full) →
      ((s.bind fun a => .done (g a)).eval db).1 = .error (.engine .full) := by
    intro α β s g hs
    rw [Script.eval_bind]
    cases he : s.eval db with
    | mk result d =>
      rw [he] at hs
      obtain rfl : result = .error (.engine .full) := hs
      rfl
  cases call with
  | addSubscriber topic subscriber details expiry requestId =>
    obtain ⟨hr, hb⟩ := Membership.add_full h hfull hst hnew
    exact ⟨hr, hmap (congrArg Prod.fst hb)⟩
  | applyConfirmation topic subscriber details expiry =>
    simp only [insert?] at hnew
    split at hnew
    · rename_i hp
      exact ⟨rfl, hmap (hmap (hmap (Response.confirmWithMember_full h hfull hst hp hnew)))⟩
    · cases hnew
  | handleResponse requestId accepted subscriber details expiry =>
    cases accepted with
    | false => cases hnew
    | true =>
      simp only [insert?] at hnew
      split at hnew
      · rename_i row hrow
        split at hnew
        · rename_i hp
          refine ⟨rfl, hmap ?_⟩
          have hc := Response.confirmWithMember_full h hfull hst hp hnew
          rw [Response.handle_eval h, hrow]
          simp only [Response.apply, if_true]
          cases he : (Response.confirmWithMember row.topic subscriber details expiry).eval db with
          | mk result d =>
            rw [he] at hc
            obtain rfl : result = .error (.engine .full) := hc
            rfl
        · cases hnew
      · cases hnew
  | heal topic subscriber =>
    simp only [insert?] at hnew
    split at hnew
    · rename_i hdue
      exact ⟨rfl, hmap (Healing.heal_full h hfull hst hdue.1 hdue.2.1 hdue.2.2 hnew)⟩
    · cases hnew
  | _ => cases hnew

end

/-! ## Transactions -/

namespace Connection

section
variable {α : Type} {c : Connection} {db : Database}

theorem write_error {c' : Connection} (h : c.working = some db) {w : Write} {failure : Failure}
    (hw : c.write w = (.error failure, c')) :
    (∃ fault, failure = .engine fault) ∨
      db.has w.table = true ∧ w.storable = false ∧ failure = .oversized := by
  have hview : (c.ask w.verb).2.view = db := view_of_working h
  unfold write at hw
  simp only [hview] at hw
  split at hw
  · cases hw
    exact .inl ⟨_, rfl⟩
  · split at hw
    · cases hw
      exact .inl ⟨_, rfl⟩
    · rename_i ht
      generalize (c.ask w.verb).2.preparing w = d at hw
      split at hw
      · rename_i hs
        cases hw
        cases c'.lastFault with
        | some fault => exact .inl ⟨fault, rfl⟩
        | none => exact .inr ⟨by simpa using ht, by simpa using hs, rfl⟩
      · split at hw
        · cases hw
          exact .inl ⟨_, rfl⟩
        · split at hw
          · cases hw
          · cases hw
            exact .inl ⟨_, rfl⟩

theorem exec_error (h : c.working = some db) {s : Script α} {failure : Failure}
    (hr : (c.exec s).result = .error failure) :
    (∃ fault, failure = .engine fault) ∨ (s.eval db).1 = .error failure := by
  induction s generalizing c db with
  | done a => cases hr
  | fail f => exact .inr (by simpa [exec] using hr)
  | look table next ih =>
    unfold exec at hr
    simp only [Script.eval, view_of_working h] at hr ⊢
    split at hr
    · rename_i ht
      simp only [ht, if_true]
      exact ih _ (c := c.succeeded) h hr
    · cases hr
      exact .inl ⟨_, rfl⟩
  | write w next ih =>
    unfold exec at hr
    rcases write_cases c w with ⟨f, c', hw, -⟩ | ⟨rows, c', hw, ht, hs, -, db', hrun, hk, -⟩
    · simp only [hw] at hr
      cases hr
      refine (write_error h hw).imp_right ?_
      rintro ⟨ht, hs, rfl⟩
      simp [Script.eval, ht, hs]
    · rw [view_of_working h] at ht hrun
      simp only [h, Option.map_some] at hk
      simp only [hw] at hr
      simp only [Script.eval, ht, hs, hrun]
      exact ih rows hk hr
  | note n next ih => exact ih h hr

theorem transact_engine {op : Operation α} (hr : op.refusal = none) {fault : Fault}
    (he : (op.body.eval c.committed).1 = .error (.engine fault)) :
    c.Unseen (c.transact op).connection ∧
      ∃ fault, (c.transact op).result = (op.recover (.store (.transaction fault))).result := by
  unfold transact
  simp only [hr]
  rcases open?_cases c with ⟨fault', d, ho, hu, -⟩ | ⟨d, ho, hu, -, hw⟩
  · simp only [ho]
    exact ⟨hu.trans (rollback_unseen d), fault', rfl⟩
  · simp only [ho]
    have hx := hu.trans (exec_unseen hw op.body)
    cases hres : (d.exec op.body).result with
    | ok last =>
      obtain ⟨db, hb, -⟩ := exec_of_ok hw hres
      rw [hb] at he
      cases he
    | error failure =>
      refine ⟨hx.trans (rollback_unseen _), ?_⟩
      rcases exec_error hw hres with ⟨fault', rfl⟩ | hf
      · exact ⟨fault', rfl⟩
      · rw [he] at hf
        cases hf
        exact ⟨fault, rfl⟩

/-- Where no number is left, a call that comes to an insert fails and commits nothing. -/
theorem transact_full (h : c.committed.WellFormed) (hfull : lastId ≤ c.committed.lastMember)
    {call : Call} {new : NewMember} (hnew : call.insert? c.committed = some new)
    (hst : (Write.addMember new).storable = true) :
    (c.transact call.operation).connection.committed = c.committed ∧
      ∃ fault, (c.transact call.operation).result = .error (.store (.transaction fault)) := by
  obtain ⟨hr, he⟩ := Call.full_of_insert h hfull hst hnew
  obtain ⟨hu, fault, hres⟩ := transact_engine hr he
  refine ⟨hu.committed, fault, hres.trans ?_⟩
  exact call.recover_fails (.inl (show (Failure.engine fault).FromStatement from trivial))

end

end Connection

end PubSub
