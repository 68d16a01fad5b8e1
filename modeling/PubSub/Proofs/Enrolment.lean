import PubSub.Proofs.Roster

/-!
# Calls and the roster

Memberships come and go by direct calls, by answers of the authority, by repairs and with
their topics. Whatever the way, the table of members goes on as the list does
(`Mirrors.step`), and so it does along a whole run (`roster_answers`).
-/

namespace PubSub

/-! ## Calls that return -/

theorem Details.encode_given {d : Details} {written : String} (h : d.encode = .ok written) :
    written = encodeTexts d.given := by
  cases d with
  | absent => cases h
  | _ =>
    cases h
    rfl

theorem Roster.leave_of_not_has {m : Roster} {topic subscriber : String}
    (h : m.has topic subscriber = false) : m.leave topic subscriber = m := by
  unfold has at h
  unfold leave
  rw [List.filter_eq_self]
  intro e he
  simpa [imp_iff_not_or] using List.any_eq_false.mp h e he

theorem Roster.step_of_isQuery (m : Roster) (s : Setting) {call : Call} (h : call.isQuery = true) :
    m.step s call = m := by
  cases call <;> first | rfl | cases h

namespace Database.Mirrors

section
variable {db db' : Database} {m : Roster} (hm : db.Mirrors m) (h : db.WellFormed)

include hm h

theorem add_returns {topic subscriber : String} {details : Details} {expiry : Option Int}
    {requestId : Option String} {new : Bool}
    (hr : (Membership.add topic subscriber details expiry requestId).Returns db new db') :
    db'.Mirrors (m.add topic subscriber details expiry requestId) ∧
      new = (expiry.isSome && !m.has topic subscriber) := by
  obtain ⟨-, -, -, written, rows, hw, rfl, hrun⟩ := (Membership.add_returns h).mp hr
  rw [Details.encode_given hw] at hrun
  exact hm.addMember hrun

theorem remove_returns {topic subscriber : String} {gone : Bool}
    (hr : (Membership.remove topic subscriber).Returns db gone db') :
    db'.Mirrors (m.leave topic subscriber) ∧ gone = m.has topic subscriber := by
  obtain ⟨rfl, rfl⟩ := (Membership.remove_returns h).mp hr
  exact ⟨hm.dropMember topic subscriber, hm.dropMember_answer topic subscriber⟩

theorem apply_granted {topic subscriber : String} {details : Details} {expiry : Option Int}
    {state : State}
    (ha : (Response.apply topic true subscriber details expiry).eval db = (.ok state, db')) :
    db'.Mirrors (m.confirm db.setting topic subscriber details expiry) := by
  obtain ⟨resolution, hr, rfl, hdone⟩ := (Response.apply_iff h).mp ha
  have hm' : ∀ state, (db.setState topic state).2.Mirrors m := fun state => hm.congr rfl rfl
  rw [if_pos rfl] at hdone
  have hstate : db.setting.state topic = db.stateOf topic := rfl
  unfold Roster.confirm
  rw [hstate]
  rcases State.resolution?_cases hr with ⟨hp, rfl⟩ | ⟨hp, rfl⟩
  · obtain ⟨new, hadd⟩ := hdone
    rw [hp]
    exact ((hm' .subscribed).add_returns (h.setState topic _) hadd).1
  · obtain rfl : db' = _ := hdone
    rw [hp]
    exact (hm' .unsubscribed).dropMember topic subscriber

theorem heal_returns {topic subscriber : String} {changed : Bool}
    (hr : (Healing.heal topic subscriber).Returns db changed db') :
    db'.Mirrors (m.heal db.setting topic subscriber) := by
  obtain ⟨repaired, hrep⟩ := Healing.heal_repairs h hr
  simp only [Healing.repair, stateOf_record?, requestOf_record?, ← hm.has] at hrep
  have hstate : db.setting.state topic = db.stateOf topic := rfl
  have hregistered : db.setting.registered topic = (db.topic? topic).isSome := rfl
  have hrequest : db.setting.request topic = db.requestOf topic := rfl
  -- Nobody is added who is there, and nobody is removed who is not.
  have hkeep : (Script.done false).eval db = (.ok repaired, db') → db'.Mirrors m := by
    intro hd
    cases hd
    exact hm
  have hleave : (if m.has topic subscriber = true then (Membership.remove topic subscriber).inline
      else .done false).eval db = (.ok repaired, db') → db'.Mirrors (m.leave topic subscriber) := by
    intro hd
    split at hd
    · exact (hm.remove_returns h hd).1
    · rename_i hn
      rw [Roster.leave_of_not_has (by simpa using hn)]
      exact hkeep hd
  unfold Roster.heal
  rw [hregistered, hstate, hrequest]
  by_cases hreg : (db.topic? topic).isSome = true
  · rw [if_pos hreg]
    simp only [hreg, Bool.not_true, Bool.false_eq_true, if_false] at hrep
    cases hs : db.stateOf topic with
    | subscribed =>
      simp only [hs, true_and] at hrep
      split at hrep
      · exact (hm.add_returns h hrep).1
      · rename_i hhas
        have hpresent : m.has topic subscriber = true := by simpa using hhas
        simp only [Roster.add, Roster.join, hpresent, if_true]
        exact hkeep (by simpa using hrep)
    | unsubscribed | deprecated =>
      simp only [hs, reduceCtorEq, false_and, if_false, or_true, true_or, and_true] at hrep
      exact hleave hrep
    | subscribePending | unsubscribePending =>
      simp only [hs, reduceCtorEq, false_and, if_false, or_self, and_false] at hrep
      exact hkeep hrep
  · rw [if_neg hreg]
    simp only [hreg] at hrep
    exact hleave (by simpa using hrep)

theorem handle_returns {requestId : Option String} {accepted : Bool} {subscriber : String}
    {details : Details} {expiry : Option Int} {outcome : ResponseOutcome}
    (hr : (Response.handle requestId accepted subscriber details expiry).Returns db outcome db') :
    db'.Mirrors (m.step db.setting
      (.handleResponse requestId accepted subscriber details expiry)) := by
  cases accepted with
  | false =>
    rcases Response.handle_returns h hr with ⟨-, rfl⟩ | ⟨-, row, state, -, ha⟩
    · exact hm
    · obtain ⟨resolution, -, -, hdone⟩ := (Response.apply_iff h).mp ha
      rw [if_neg (by simp)] at hdone
      exact hdone ▸ hm.congr rfl rfl
  | true =>
    have hcarrier : db.setting.carrier requestId = (db.carrier? requestId).map (·.topic) := rfl
    simp only [Roster.step, hcarrier]
    rcases Response.handle_returns h hr with ⟨rfl, rfl⟩ | ⟨-, row, state, hc, ha⟩
    · cases hc : db'.carrier? requestId with
      | none => exact hm
      | some row =>
        -- A response is ignored only where nothing is pending.
        have hstate : db'.setting.state row.topic = db'.stateOf row.topic := rfl
        simp only [Option.map_some, Roster.confirm, hstate]
        cases hs : db'.stateOf row.topic with
        | subscribePending | unsubscribePending =>
          exact absurd hr (Response.not_ignored h hc (by rw [hs]; rfl))
        | _ => exact hm
    · rw [hc]
      exact hm.apply_granted h ha

theorem step {call : Call} {reply : Reply} (hr : call.operation.Returns db reply db') :
    db'.Mirrors (m.step db.setting call) ∧ m.Answers call reply := by
  cases hq : call.isQuery with
  | true =>
    have hu := (Operation.inline_reads (call.reads_of_isQuery hq)).unchanged db
    rw [hr] at hu
    obtain rfl : db' = db := hu
    rw [Roster.step_of_isQuery m _ hq]
    refine ⟨hm, ?_⟩
    cases ha : call.asksMembers with
    | true =>
      obtain ⟨reply', hr', hanswer⟩ := hm.query_answers h ha
      rwa [(hr.unique hr').1]
    | false => cases call <;> trivial
  | false =>
    cases call with
    | registerTopic topic publisher details enabled =>
      obtain ⟨_, ho, -⟩ := Operation.returns_map.mp hr
      obtain ⟨-, row, -, rfl⟩ := Directory.register_returns ho
      exact ⟨hm.congr rfl rfl, trivial⟩
    | deregisterTopic topic =>
      obtain ⟨_, ho, -⟩ := Operation.returns_map.mp hr
      obtain rfl := Directory.deregister_returns ho
      have hm' : (db.dropTopic topic).2.Mirrors m := hm.congr rfl rfl
      exact ⟨hm'.dropMembers topic, trivial⟩
    | setNotification topic enabled =>
      obtain ⟨_, ho, -⟩ := Operation.returns_map.mp hr
      obtain ⟨code, rfl⟩ := Directory.setNotification_returns ho
      exact ⟨hm.congr rfl rfl, trivial⟩
    | addSubscriber topic subscriber details expiry requestId =>
      obtain ⟨new, ho, rfl⟩ := Operation.returns_map.mp hr
      obtain ⟨hm', rfl⟩ := hm.add_returns h ho
      exact ⟨hm', rfl⟩
    | removeSubscriber topic subscriber =>
      obtain ⟨gone, ho, rfl⟩ := Operation.returns_map.mp hr
      obtain ⟨hm', rfl⟩ := hm.remove_returns h ho
      exact ⟨hm', rfl⟩
    | removeAllForTopic topic =>
      obtain ⟨rows, ho, rfl⟩ := Operation.returns_map.mp hr
      have hdrop := Membership.removeAll_returns ho
      obtain ⟨rfl, rfl⟩ := Prod.mk.inj hdrop
      exact ⟨hm.dropMembers topic, congrArg (fun n : Nat => Reply.number n) (hm.dropMembers_answer topic)⟩
    | requestSubscribe topic requestId =>
      obtain ⟨_, ho, -⟩ := Operation.returns_map.mp hr
      obtain ⟨-, -, -, rfl⟩ := (Negotiation.requestSubscribe_returns h).mp ho
      exact ⟨hm.congr rfl rfl, trivial⟩
    | requestUnsubscribe topic requestId =>
      obtain ⟨_, ho, -⟩ := Operation.returns_map.mp hr
      obtain ⟨-, -, rfl⟩ := (Negotiation.requestUnsubscribe_returns h).mp ho
      exact ⟨hm.congr rfl rfl, trivial⟩
    | confirm topic | deny topic =>
      obtain ⟨_, ho, -⟩ := Operation.returns_map.mp hr
      obtain ⟨_, -, -, rfl⟩ := (Negotiation.resolve_returns h).mp ho
      exact ⟨hm.congr rfl rfl, trivial⟩
    | retire topic =>
      obtain ⟨_, ho, -⟩ := Operation.returns_map.mp hr
      obtain rfl := (Negotiation.retire_returns h).mp ho
      exact ⟨hm.congr rfl rfl, trivial⟩
    | purge topic =>
      obtain ⟨_, ho, -⟩ := Operation.returns_map.mp hr
      obtain ⟨-, rfl⟩ := Negotiation.purge_returns ho
      exact ⟨hm.congr rfl rfl, trivial⟩
    | purgeDeprecated =>
      obtain ⟨_, ho, -⟩ := Operation.returns_map.mp hr
      obtain ⟨-, rfl⟩ := Prod.mk.inj (Negotiation.purgeDeprecated_returns ho)
      exact ⟨hm.congr rfl rfl, trivial⟩
    | applyConfirmation topic subscriber details expiry =>
      obtain ⟨_, ho, -⟩ := Operation.returns_map.mp hr
      exact ⟨hm.apply_granted h (Response.applyConfirmation_returns.mp ho), trivial⟩
    | applyDenial topic =>
      obtain ⟨_, ho, -⟩ := Operation.returns_map.mp hr
      obtain ⟨_, -, -, rfl⟩ := (Negotiation.resolve_returns h).mp (Response.applyDenial_returns.mp ho)
      exact ⟨hm.congr rfl rfl, trivial⟩
    | handleResponse requestId accepted subscriber details expiry =>
      obtain ⟨_, ho, -⟩ := Operation.returns_map.mp hr
      exact ⟨hm.handle_returns h ho, trivial⟩
    | handleWithdrawal topic =>
      obtain ⟨_, ho, -⟩ := Operation.returns_map.mp hr
      obtain rfl := (Negotiation.retire_returns h).mp (Response.handleWithdrawal_returns.mp ho)
      exact ⟨hm.congr rfl rfl, trivial⟩
    | heal topic subscriber =>
      obtain ⟨_, ho, -⟩ := Operation.returns_map.mp hr
      exact ⟨hm.heal_returns h ho, trivial⟩
    | _ => cases hq

end

end Database.Mirrors

/-! ## Runs -/

namespace World

def view (w : World) (i : Nat) : Database :=
  ((w.handle? i).map fun h => h.connection.view).getD .blank

/-- A world in a run from a new store on, where every call has returned and every block is
committed, with the list that the calls have made. -/
inductive Kept (i : Nat) : World → Roster → Prop where
  | start {w : World} {h : Handle} (hh : w.handle? i = some h) (he : h.entered = false)
    (hc : h.connection.committed = .fresh) (hw : h.connection.working = none) : Kept i w []
  | call {w : World} {m : Roster} {reply : Reply} (h : Kept i w m) (call : Call)
    (hr : (w.call i call.operation).2 = .ok reply) :
    Kept i (w.call i call.operation).1 (m.step (w.view i).setting call)
  | enter {w : World} {m : Roster} {entry : Entry} (h : Kept i w m)
    (hr : (w.enter i).2 = .ok entry) : Kept i (w.enter i).1 m
  | leave {w : World} {m : Roster} (h : Kept i w m) (entry : Entry)
    (hr : (w.leave i entry none).2 = none) : Kept i (w.leave i entry none).1 m
  | refusing {w : World} {m : Roster} (h : Kept i w m) (refusals : List Refusal) :
    Kept i (w.refusing i refusals) m

/-- The store shows the list, and a transaction is open on it just inside of blocks. -/
structure Shows (w : World) (i : Nat) (m : Roster) (h : Handle) : Prop where
  handle : w.handle? i = some h
  entered : h.entered = h.connection.working.isSome
  wellFormed : h.connection.view.WellFormed
  mirrors : h.connection.view.Mirrors m

theorem view_of_handle {w : World} {i : Nat} {h : Handle} (hh : w.handle? i = some h) :
    w.view i = h.connection.view := by
  simp [view, hh]

section
variable {w : World} {i : Nat} {m : Roster} {h : Handle} (hs : w.Shows i m h)

include hs

theorem Shows.call {call : Call} {reply : Reply} (hr : (w.call i call.operation).2 = .ok reply) :
    (∃ h', (w.call i call.operation).1.Shows i (m.step (w.view i).setting call) h') ∧
      m.Answers call reply := by
  obtain ⟨hres, hh'⟩ := handle_call hs.handle call.operation
  rw [hr] at hres
  rw [view_of_handle hs.handle]
  have hgo : ∀ db', call.operation.Returns h.connection.view reply db' →
      (h.perform call.operation).connection.view = db' →
      h.entered = (h.perform call.operation).connection.working.isSome →
      (∃ h', (w.call i call.operation).1.Shows i (m.step h.connection.view.setting call) h') ∧
        m.Answers call reply := by
    intro db' hret hview he
    obtain ⟨hm, hanswer⟩ := hs.mirrors.step hs.wellFormed hret
    exact ⟨⟨_, hh', he, hview ▸ hs.wellFormed.returns hret, hview ▸ hm⟩, hanswer⟩
  have hentered := hs.entered
  unfold Handle.perform at hres hgo
  cases he : h.entered with
  | true =>
    obtain ⟨db, hdb⟩ := Option.isSome_iff_exists.mp (hentered.symm.trans he)
    simp only [he, if_true] at hres hgo
    obtain ⟨db', hret, hw⟩ := Connection.join_call hdb hres.symm
    rw [Connection.view_of_working hdb] at hgo
    rw [Connection.view_of_working hdb]
    exact hgo db' hret (Connection.view_of_working hw) (by rw [hw]; rfl)
  | false =>
    simp only [he, Bool.false_eq_true, if_false] at hres hgo
    obtain ⟨hn, hn'⟩ := Connection.working_of_transact hres.symm
    rcases h.connection.transact_call call with ⟨failure, hf, -⟩ | ⟨reply', hok, hret⟩
    · cases hf.symm.trans hres.symm
    · cases hok.symm.trans hres.symm
      rw [← Connection.view_of_idle hn] at hret
      exact hgo _ hret (Connection.view_of_idle hn') (by rw [hn']; rfl)

theorem Shows.enter {entry : Entry} (hr : (w.enter i).2 = .ok entry) :
    ∃ h', (w.enter i).1.Shows i m h' := by
  obtain ⟨hres, hh'⟩ := handle_enter hs.handle
  rw [hr] at hres
  unfold Handle.enter at hres hh'
  cases he : h.entered with
  | true =>
    simp only [he, if_true] at hh'
    exact ⟨h, hh', hs.entered, hs.wellFormed, hs.mirrors⟩
  | false =>
    simp only [he, Bool.false_eq_true, if_false] at hres hh'
    rcases h.connection.open?_cases with ⟨fault, c, ho, -⟩ | ⟨c, ho, hu, hn, hw⟩
    · rw [ho] at hres
      cases hres
    · rw [ho] at hh'
      have hview : c.view = h.connection.view := by
        simp [Connection.view, hn, hw]
      exact ⟨_, hh', by rw [hw]; rfl, hview ▸ hs.wellFormed, hview ▸ hs.mirrors⟩

theorem Shows.leave {entry : Entry} (hr : (w.leave i entry none).2 = none) :
    ∃ h', (w.leave i entry none).1.Shows i m h' := by
  obtain ⟨hres, hh'⟩ := handle_leave hs.handle entry none
  rw [hr] at hres
  cases entry with
  | joined => exact ⟨h, hh', hs.entered, hs.wellFormed, hs.mirrors⟩
  | outermost opening =>
    unfold Handle.leave at hres hh'
    by_cases hopen : h.opening = opening
    · simp only [hopen, ne_eq, not_true_eq_false, if_false, settle] at hres hh'
      rcases h.connection.commit_cases with ⟨fault, c, hc, -⟩ | ⟨db, c, hc, hdb, hn, hcom, -⟩
      · rw [hc] at hres
        cases hres
      · rw [hc] at hh'
        have hview : c.view = h.connection.view := by
          simp [Connection.view, hdb, hn, hcom]
        exact ⟨_, hh', by rw [hn]; rfl, hview ▸ hs.wellFormed, hview ▸ hs.mirrors⟩
    · simp only [ne_eq, hopen, not_false_eq_true, if_true] at hres
      cases hres

end

theorem Kept.shows {w : World} {i : Nat} {m : Roster} (h : w.Kept i m) : ∃ d, w.Shows i m d := by
  induction h with
  | @start w d hh he hc hw =>
    have hview : d.connection.view = .fresh := by simp [Connection.view, hc, hw]
    refine ⟨d, hh, by rw [he, hw]; rfl, hview ▸ Database.wellFormed_fresh, ?_⟩
    rw [hview]
    exact ⟨rfl, .nil, fun row hr => by cases hr⟩
  | call h call hr ih =>
    obtain ⟨d, hd⟩ := ih
    exact (hd.call hr).1
  | enter h hr ih =>
    obtain ⟨d, hd⟩ := ih
    exact hd.enter hr
  | leave h entry hr ih =>
    obtain ⟨d, hd⟩ := ih
    exact hd.leave hr
  | refusing h refusals ih =>
    obtain ⟨d, hd⟩ := ih
    exact ⟨_, handle_refusing hd.handle refusals, hd.entered, hd.wellFormed, hd.mirrors⟩

/-- At every point of a run of calls that return, in blocks and outside of them, the store answers
from the list that the calls have made. Every query is answered where nothing stands in its way. -/
theorem roster_answers {w : World} {i : Nat} {m : Roster} (h : w.Kept i m) :
    (∀ (call : Call) (reply : Reply), (w.call i call.operation).2 = .ok reply →
      m.Answers call reply) ∧
    ∀ (w₀ : World) (k : Nat), w₀.Calm k → w₀.committed? k = some (w.view i) →
      ∀ call : Call, call.asksMembers = true →
        ∃ reply, (w₀.call k call.operation).2 = .ok reply ∧ m.Answers call reply := by
  obtain ⟨d, hd⟩ := h.shows
  refine ⟨fun call reply hr => (hd.call hr).2, fun w₀ k hcalm hsame call hask => ?_⟩
  rw [view_of_handle hd.handle] at hsame
  obtain ⟨reply, hret, hanswer⟩ := hd.mirrors.query_answers hd.wellFormed hask
  exact ⟨reply, (answers_of_calm hcalm hsame).mpr ⟨_, hret⟩, hanswer⟩

/-! ### Lists of calls -/

def afterCalls (w : World) (i : Nat) : List Call → World
  | [] => w
  | call :: calls => (w.call i call.operation).1.afterCalls i calls

def allReturn (w : World) (i : Nat) : List Call → Bool
  | [] => true
  | call :: calls =>
    (w.call i call.operation).2.isOk && (w.call i call.operation).1.allReturn i calls

def rosterOf (w : World) (i : Nat) (m : Roster) : List Call → Roster
  | [] => m
  | call :: calls =>
    (w.call i call.operation).1.rosterOf i (m.step (w.view i).setting call) calls

theorem Kept.calls {w : World} {i : Nat} {m : Roster} (h : w.Kept i m) {calls : List Call}
    (hr : w.allReturn i calls = true) : (w.afterCalls i calls).Kept i (w.rosterOf i m calls) := by
  induction calls generalizing w m with
  | nil => exact h
  | cons call calls ih =>
    simp only [allReturn, Bool.and_eq_true] at hr
    cases hres : (w.call i call.operation).2 with
    | error failure =>
      rw [hres] at hr
      cases hr.1
    | ok reply => exact ih (h.call call hres) hr.2

/-- Two subscribers come; one is granted a subscription that it has, and the other goes and comes
back by a grant. -/
def comings : List Call :=
  [.registerTopic "t" "p" none (.plain true),
    .addSubscriber "t" "a" (.list [some "x", none]) (some 5) none,
    .addSubscriber "t" "b" (.list []) (some 5) none,
    .addSubscriber "t" "b" (.list [some "y"]) (some 6) none,
    .removeSubscriber "t" "a",
    .requestSubscribe "t" "r",
    .handleResponse (some "r") true "a" (.list [none, some "z"]) (some 7)]

theorem roster_answers_comings :
    let w := (lone .fresh []).afterCalls 0 comings
    ((lone (w.view 0) []).call 0 (Call.listSubscribers "t").operation).2 =
        .ok (.names ["b", "a"]) ∧
      ∃ record, ((lone (w.view 0) []).call 0 (Call.getSubscriber "t" "a").operation).2 =
          .ok (.member (some record)) ∧
        record.details = [.text "z"] ∧ record.expiry = 7 ∧ record.requestId = some "r" := by
  intro w
  have h₀ : (lone .fresh []).Kept 0 [] := .start (lone_handle .fresh []) rfl rfl rfl
  have hret : (lone .fresh []).allReturn 0 comings = true := by decide +kernel
  have h := h₀.calls hret
  have hm : (lone .fresh []).rosterOf 0 [] comings =
      [⟨"t", "b", [], 5, none⟩, ⟨"t", "a", ["z"], 7, some "r"⟩] := by
    decide +kernel
  rw [hm] at h
  obtain ⟨-, hask⟩ := roster_answers h
  have hcalm := lone_calm (w.view 0)
  obtain ⟨reply, hr, hanswer⟩ := hask _ 0 hcalm rfl (.listSubscribers "t") rfl
  obtain ⟨reply', hr', record, rfl, hrec⟩ := hask _ 0 hcalm rfl (.getSubscriber "t" "a") rfl
  refine ⟨by rw [hr, hanswer]; rfl, ?_⟩
  cases record with
  | none => cases hrec
  | some record =>
    obtain ⟨id, topic, subscriber, details, expiry, requestId⟩ := record
    cases hrec
    exact ⟨_, hr', rfl, rfl, rfl⟩

end World

end PubSub
