import PubSub.Proofs.Readback

/-!
# Inserts of memberships

An insert either puts a new membership last or changes no row, and its caller learns which. With an
expiry the pair is a member afterwards in both cases, since only a pair that is there already is
passed over (`insert_absorbs_duplicates`). A pair without an expiry is passed over as well, and then
nobody is a member for it.
-/

namespace PubSub

/-! ## What an insert does to the table -/

namespace Database

/-- How an insert can go, and whether a row came of it. -/
inductive Takes (new : NewMember) (db db' : Database) : Bool → Prop where
  | added {row : MemberRow} (hnone : db.member? new.topic new.subscriber = none)
    (hrow : db'.member? new.topic new.subscriber = some row) (hexp : new.expiry = some row.expiry)
    (hdet : row.details = new.details) (hreq : row.requestId = new.requestId)
    (hm : db'.members = db.members ++ [row]) : Takes new db db' true
  | absorbed {row : MemberRow} (hold : db.member? new.topic new.subscriber = some row)
    (hexp : new.expiry.isSome) (hm : db'.members = db.members) : Takes new db db' false
  | dropped (hexp : new.expiry = none) (hm : db'.members = db.members) : Takes new db db' false

theorem takes_of_addMember {db db' : Database} {new : NewMember} {rows : Nat}
    (h : db.addMember new = .ok (rows, db')) : db.Takes new db' (decide (0 < rows)) := by
  unfold addMember at h
  split at h
  · cases h
  · cases he : new.expiry with
    | none =>
      rw [he] at h
      cases h
      exact .dropped he rfl
    | some expiry =>
      cases hm : db.member? new.topic new.subscriber with
      | some row =>
        rw [he, hm] at h
        cases h
        exact .absorbed hm (by rw [he]; rfl) rfl
      | none =>
        rw [he, hm] at h
        cases h
        have hrow : ∀ row : MemberRow, row.topic = new.topic → row.subscriber = new.subscriber →
            ({ db with members := db.members ++ [row], lastMember := db.lastMember + 1 } :
              Database).member? new.topic new.subscriber = some row := fun row ht hs => by
          rw [← ht, ← hs] at hm ⊢
          exact member?_append hm rfl
        exact .added hm (hrow _ rfl rfl) he rfl rfl rfl

section
variable {db db' : Database} {new : NewMember} {came : Bool} (h : db.Takes new db' came)

include h

theorem Takes.of_expiry (he : new.expiry.isSome) :
    (db'.member? new.topic new.subscriber).isSome ∧
      (came = false ↔ (db.member? new.topic new.subscriber).isSome) := by
  cases h with
  | added hnone hrow => simp [hnone, hrow]
  | absorbed hold _ hm =>
    have hrow : db'.member? new.topic new.subscriber = db.member? new.topic new.subscriber := by
      unfold member?
      rw [hm]
    simp [hrow, hold]
  | dropped hexp => simp [hexp] at he

theorem Takes.of_none (he : new.expiry = none) : came = false := by
  cases h with
  | added _ _ hexp =>
    rw [he] at hexp
    cases hexp
  | absorbed | dropped => rfl

theorem Takes.same (hc : came = false) : db'.members = db.members := by
  cases h with
  | added => cases hc
  | absorbed _ _ hm | dropped _ hm => exact hm

end

end Database

/-! ## Inserts that calls execute -/

theorem Connection.wrote_of_effects {α : Type} {c : Connection} {s : Script α} {e : Effect}
    (he : e ∈ c.effects s) : ∃ rows, e.before.Wrote e.after e.write rows := by
  induction s generalizing c with
  | done value => cases he
  | fail failure => cases he
  | look table next ih =>
    unfold effects at he
    split at he
    · exact ih _ he
    · cases he
  | write w next ih =>
    unfold effects at he
    rcases write_cases c w with ⟨failure, d, hw, -⟩ | ⟨rows, d, hw, hd⟩
    · simp only [hw] at he
      cases he
    · simp only [hw] at he
      rcases List.mem_cons.mp he with rfl | he
      · exact ⟨rows, hd⟩
      · exact ih rows he
  | note n next ih => exact ih he

theorem Handle.wrote_of_effects {α : Type} {h : Handle} {op : Operation α} {e : Effect}
    (he : e ∈ h.effects op) : ∃ rows, e.before.Wrote e.after e.write rows := by
  unfold effects at he
  split at he
  · cases he
  · split at he
    · exact Connection.wrote_of_effects he
    · split at he
      · cases he
      · exact Connection.wrote_of_effects he

theorem Membership.takes_of_add {db db' : Database} (h : db.WellFormed) {topic subscriber : String}
    {details : Details} {expiry : Option Int} {requestId : Option String} {came : Bool}
    (hr : (add topic subscriber details expiry requestId).Returns db came db') :
    ∃ written, details.encode = .ok written ∧
      db.Takes ⟨topic, subscriber, written, expiry, requestId⟩ db' came := by
  obtain ⟨-, -, -, written, rows, hw, rfl, hrun⟩ := (add_returns h).mp hr
  exact ⟨written, hw, Database.takes_of_addMember hrun⟩

namespace World

/-- Where an insert with an expiry returns, the pair is a member, and it was one before exactly if
the answer is no; then every row is as it was. Without an expiry the answer is no and every row is as
it was, whoever is a member. The same goes for every insert that is part of another call. -/
theorem insert_absorbs_duplicates {w : World} {i : Nat} {h : Handle} (hh : w.handle? i = some h)
    (hwell : h.connection.view.WellFormed) :
    (∀ topic subscriber details expiry requestId reply,
      let add := Call.addSubscriber topic subscriber details expiry requestId
      (w.call i add.operation).2 = .ok reply →
        let before := w.view i
        let after := (w.call i add.operation).1.view i
        ∃ came, reply = .truth came ∧
          (expiry.isSome → (after.member? topic subscriber).isSome ∧
            (came = false ↔ (before.member? topic subscriber).isSome)) ∧
          (expiry = none → came = false) ∧
          (came = false → after.members = before.members) ∧
          (came = true → ∃ row, after.members = before.members ++ [row] ∧
            after.member? topic subscriber = some row ∧ expiry = some row.expiry ∧
            details.encode = .ok row.details ∧ row.requestId = requestId)) ∧
    ∀ call : Call, ∀ e ∈ h.effects call.operation, ∀ new, e.write = .addMember new →
      ∃ came, e.before.view.Takes new e.after.view came ∧
        (new.expiry.isSome → (e.after.view.member? new.topic new.subscriber).isSome ∧
          (came = false ↔ (e.before.view.member? new.topic new.subscriber).isSome)) := by
  constructor
  · intro topic subscriber details expiry requestId reply add hr before after
    obtain ⟨hres, hh'⟩ := handle_call hh add.operation
    have hbefore : before = h.connection.view := view_of_handle hh
    have hafter : after = (h.perform add.operation).connection.view := view_of_handle hh'
    have hret := Handle.returns_of_perform (hres.symm.trans hr)
    rw [← hbefore, ← hafter] at hret
    obtain ⟨came, hadd, rfl⟩ := Operation.returns_map.mp hret
    obtain ⟨written, hw, htakes⟩ := Membership.takes_of_add (hbefore ▸ hwell) hadd
    refine ⟨came, rfl, htakes.of_expiry, htakes.of_none, htakes.same, fun hc => ?_⟩
    cases htakes with
    | @added row _ hrow hexp hdet hreq hm =>
      exact ⟨row, hm, hrow, hexp, hw.trans (congrArg Except.ok hdet.symm), hreq⟩
    | absorbed | dropped => cases hc
  · intro call e he new hnew
    obtain ⟨rows, hwrote⟩ := Handle.wrote_of_effects he
    have hrun := hwrote.run
    rw [hnew] at hrun
    exact ⟨_, Database.takes_of_addMember hrun, (Database.takes_of_addMember hrun).of_expiry⟩

/-- A pair comes once; the second insert of it is answered no, and nothing of it is taken. -/
theorem insert_absorbs_duplicates_again :
    let first := Call.addSubscriber "t" "s" (.list [some "a"]) (some 1) none
    let again := Call.addSubscriber "t" "s" (.list [some "b"]) (some 2) (some "r")
    let w := ((lone .fresh []).call 0 first.operation).1
    (w.call 0 again.operation).2 = .ok (.truth false) ∧
      ((w.call 0 again.operation).1.view 0).members = (w.view 0).members ∧
      (((w.call 0 again.operation).1.view 0).member? "t" "s").isSome := by
  intro first again w
  obtain ⟨hres, hh⟩ := handle_call (lone_handle .fresh []) first.operation
  have hfirst : ((lone .fresh []).call 0 first.operation).2 = .ok (.truth true) := rfl
  have hret := Handle.returns_of_perform (hres.symm.trans hfirst)
  obtain ⟨hadd, -⟩ := insert_absorbs_duplicates hh (Database.wellFormed_fresh.returns hret)
  have hr : (w.call 0 again.operation).2 = .ok (.truth false) := rfl
  obtain ⟨came, hcame, hmember, -, hsame, -⟩ := hadd "t" "s" _ _ _ _ hr
  cases hcame
  exact ⟨hr, hsame rfl, (hmember rfl).1⟩

/-- Without an expiry nothing is inserted, and the answer is that of a duplicate. -/
theorem insert_without_expiry_lost :
    let add := Call.addSubscriber "t" "s" (.list []) none none
    ((lone .fresh []).call 0 add.operation).2 = .ok (.truth false) ∧
      ((lone .fresh []).view 0).member? "t" "s" = none ∧
      (((lone .fresh []).call 0 add.operation).1.view 0).member? "t" "s" = none :=
  ⟨rfl, rfl, rfl⟩

end World

end PubSub
