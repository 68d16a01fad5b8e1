import PubSub.Proofs.Transitions
import PubSub.Proofs.Written

/-!
# What a granted subscription leaves

A granted subscription is the only thing in the negotiation that adds a membership,
apart from repairs. Whether the topic is registered is not looked at then
(`regains_by_grant`), and a membership that is there already stays as it is
(`member_of_confirmed`).
-/

namespace PubSub

namespace Database

/-! ## New rows -/

theorem not_mem_of_member? {db : Database} {row : MemberRow}
    (h : db.member? row.topic row.subscriber = none) : row ∉ db.members := by
  intro hm
  have := List.find?_eq_none.mp h row hm
  simp at this

theorem addMember_adds_iff {db db' : Database} {new : NewMember} {rows : Nat}
    (h : db.addMember new = .ok (rows, db')) (t : String) :
    (∃ row ∈ db'.members, row.topic = t ∧ row ∉ db.members) ↔
      new.topic = t ∧ ∃ e, new.expiry = some e ∧ db.member? t new.subscriber = none := by
  rcases addMember_members h with ⟨row, ht, hs, -, he, -, hnone, hm⟩ | ⟨hno, hm⟩
  · constructor
    · rintro ⟨row', hr', rfl, hnew⟩
      rw [hm] at hr'
      have hrow : row' = row := by
        rcases List.mem_append.mp hr' with hold | hlast
        · exact absurd hold hnew
        · exact List.mem_singleton.mp hlast
      rw [hrow, ht]
      exact ⟨rfl, row.expiry, he.symm, hnone⟩
    · rintro ⟨rfl, -⟩
      refine ⟨row, ?_, ht, ?_⟩
      · rw [hm]
        exact List.mem_append_right _ (List.mem_singleton_self row)
      · apply not_mem_of_member?
        rw [ht, hs]
        exact hnone
  · constructor
    · rintro ⟨row, hr, -, hnew⟩
      rw [hm] at hr
      exact absurd hr hnew
    · rintro ⟨rfl, e, he, hnone⟩
      rcases hno with hno | hno
      · rw [he] at hno
        cases hno
      · rw [hnone] at hno
        cases hno

theorem member?_append {db db' : Database} {row : MemberRow}
    (h : db.member? row.topic row.subscriber = none) (hm : db'.members = db.members ++ [row]) :
    db'.member? row.topic row.subscriber = some row := by
  unfold member? at h ⊢
  rw [hm, List.find?_append, h]
  simp

theorem row_of_addMember {db db' : Database} {new : NewMember} {rows : Nat}
    (h : db.addMember new = .ok (rows, db')) {expiry : Int} (he : new.expiry = some expiry) :
    ∃ row : MemberRow, db'.member? new.topic new.subscriber = some row ∧
      (db.member? new.topic new.subscriber = some row ∨
        db.member? new.topic new.subscriber = none ∧ row.details = new.details ∧
          row.expiry = expiry ∧ row.requestId = new.requestId) := by
  rcases addMember_members h with ⟨row, ht, hs, hdet, hexp, hreq, hnone, hm⟩ | ⟨hno, hm⟩
  · rw [he, Option.some.injEq] at hexp
    refine ⟨row, ?_, .inr ⟨hnone, hdet, hexp, hreq⟩⟩
    rw [← ht, ← hs] at hnone ⊢
    exact member?_append hnone hm
  · rcases hno with hno | hno
    · rw [he] at hno
      cases hno
    · obtain ⟨row, hrow⟩ := Option.isSome_iff_exists.mp hno
      refine ⟨row, ?_, .inl hrow⟩
      unfold member? at hrow ⊢
      rwa [hm]

theorem mem_of_member? {db : Database} {topic subscriber : String} {row : MemberRow}
    (h : db.member? topic subscriber = some row) :
    row ∈ db.members ∧ row.topic = topic ∧ row.subscriber = subscriber := by
  have hp := List.find?_some h
  simp only [Bool.decide_and, Bool.and_eq_true, decide_eq_true_eq] at hp
  exact ⟨List.mem_of_find?_eq_some h, hp⟩

end Database

/-! ## Granted subscriptions -/

namespace Response

section
variable {db db' : Database} (h : db.WellFormed) {topic subscriber : String} {accepted : Bool}
  {details : Details} {expiry : Option Int} {state : State}
  (ha : (apply topic accepted subscriber details expiry).eval db = (.ok state, db'))

include h ha

theorem apply_granted (hacc : accepted = true) (hp : db.stateOf topic = .subscribePending) :
    ∃ texts rows, details.texts? = .ok texts ∧
      (db.setState topic .subscribed).2.addMember ⟨topic, subscriber, Details.encodeTexts texts,
        expiry, db.requestOf topic⟩ = .ok (rows, db') := by
  obtain ⟨resolution, hr, hs, hm⟩ := (apply_iff h).mp ha
  rw [hp] at hr
  cases hr
  rw [if_pos hacc] at hm
  have hst : state = .subscribed := by rw [hs, hacc]; rfl
  subst hst
  rw [if_pos rfl] at hm
  obtain ⟨new, hadd⟩ := hm
  obtain ⟨-, -, -, written, rows, hw, -, hrun⟩ :=
    (Membership.add_returns (h.setState topic .subscribed)).mp hadd
  unfold Details.encode at hw
  cases ht : details.texts? with
  | error failure =>
    rw [ht] at hw
    cases hw
  | ok texts =>
    rw [ht] at hw
    cases hw
    exact ⟨texts, rows, rfl, hrun⟩

theorem apply_ungranted (hn : ¬(accepted = true ∧ db.stateOf topic = .subscribePending)) :
    ∀ row ∈ db'.members, row ∈ db.members := by
  obtain ⟨resolution, hr, hs, hm⟩ := (apply_iff h).mp ha
  by_cases hacc : accepted = true
  · rw [if_pos hacc] at hm
    have hst : state ≠ .subscribed := by
      rcases State.resolution?_cases hr with ⟨hp, -⟩ | ⟨-, rfl⟩
      · exact absurd ⟨hacc, hp⟩ hn
      · rw [hs, hacc]
        decide
    rw [if_neg hst] at hm
    subst hm
    exact fun row hrow => (List.mem_filter.mp hrow).1
  · rw [if_neg hacc] at hm
    subst hm
    exact fun row hrow => hrow

theorem apply_adds_iff (t : String) :
    (∃ row ∈ db'.members, row.topic = t ∧ row ∉ db.members) ↔
      accepted = true ∧ topic = t ∧ db.stateOf t = .subscribePending ∧
        ∃ e, expiry = some e ∧ db.member? t subscriber = none := by
  by_cases hg : accepted = true ∧ db.stateOf topic = .subscribePending
  · obtain ⟨hacc, hp⟩ := hg
    obtain ⟨texts, rows, -, hrun⟩ := apply_granted h ha hacc hp
    have hadds := Database.addMember_adds_iff hrun t
    constructor
    · intro hrow
      obtain ⟨rfl, hnew⟩ := hadds.mp hrow
      exact ⟨hacc, rfl, hp, hnew⟩
    · rintro ⟨-, rfl, -, hnew⟩
      exact hadds.mpr ⟨rfl, hnew⟩
  · constructor
    · rintro ⟨row, hr, -, hnew⟩
      exact absurd (apply_ungranted h ha hg row hr) hnew
    · rintro ⟨hacc, rfl, hp, -⟩
      exact absurd ⟨hacc, hp⟩ hg

end

end Response

namespace Healing

theorem heal_rows {db db' : Database} (h : db.WellFormed) {topic subscriber : String}
    {changed : Bool} (hr : (heal topic subscriber).Returns db changed db') :
    ∀ row ∈ db'.members, row ∈ db.members ∨ row.topic = topic ∧ (db.topic? topic).isSome := by
  obtain ⟨repaired, hrep⟩ := heal_repairs h hr
  rcases repair_cases topic subscriber (db.topic? topic).isSome (db.record? topic)
    (db.member? topic subscriber).isSome with he | he | ⟨hreg, requestId, he⟩
  · rw [he] at hrep
    cases hrep
    exact fun row hrow => .inl hrow
  · rw [he] at hrep
    obtain ⟨-, rfl⟩ := (Membership.remove_returns h).mp hrep
    exact fun row hrow => .inl (List.mem_filter.mp hrow).1
  · rw [he] at hrep
    obtain ⟨-, -, -, written, rows, -, -, hrun⟩ := (Membership.add_returns h).mp hrep
    intro row hrow
    rcases Database.addMember_members hrun with ⟨new, ht, -, -, -, -, -, hm⟩ | ⟨-, hm⟩
    · rw [hm] at hrow
      rcases List.mem_append.mp hrow with hold | hlast
      · exact .inl hold
      · rw [List.mem_singleton.mp hlast]
        exact .inr ⟨ht, hreg⟩
    · rw [hm] at hrow
      exact .inl hrow

end Healing

/-! ## Topics that are not registered -/

namespace Call

def isFacade : Call → Bool
  | .checkPublish _ | .applyConfirmation .. | .applyDenial _ | .handleResponse .. |
    .handleWithdrawal _ | .heal .. => true
  | _ => false

/-- The topic that an accepted answer is for, the subscriber and the expiry it brings. -/
def grant? (db : Database) : Call → Option (String × String × Option Int)
  | .applyConfirmation topic subscriber _ expiry => some (topic, subscriber, expiry)
  | .handleResponse requestId true subscriber _ expiry =>
    (db.carrier? requestId).map fun row => (row.topic, subscriber, expiry)
  | _ => none

end Call

def Database.Regains (db db' : Database) (topic : String) : Prop :=
  ∃ row ∈ db'.members, row.topic = topic ∧ row ∉ db.members

namespace Call

/-- A call brings the answer that a pending topic waits for, with a new subscriber. -/
def Grants (call : Call) (db : Database) (topic : String) : Prop :=
  db.stateOf topic = .subscribePending ∧
    ∃ subscriber e, call.grant? db = some (topic, subscriber, some e) ∧
      db.member? topic subscriber = none

section
variable {db db' : Database} {call : Call} {topic : String}

theorem regains_of_kept (hkeep : ∀ row ∈ db'.members, row.topic = topic → row ∈ db.members)
    (hg : call.grant? db = none) : db.Regains db' topic ↔ call.Grants db topic := by
  constructor
  · rintro ⟨row, hrow, ht, hnew⟩
    exact absurd (hkeep row hrow ht) hnew
  · rintro ⟨-, _, _, hg', -⟩
    rw [hg] at hg'
    cases hg'

theorem regains_of_accepted (h : db.WellFormed) {t subscriber : String} {details : Details}
    {expiry : Option Int} {state : State}
    (ha : (Response.apply t true subscriber details expiry).eval db = (.ok state, db'))
    (hg : call.grant? db = some (t, subscriber, expiry)) :
    db.Regains db' topic ↔ call.Grants db topic := by
  unfold Database.Regains Grants
  rw [Response.apply_adds_iff h ha topic, hg]
  constructor
  · rintro ⟨-, rfl, hp, e, rfl, hm⟩
    exact ⟨hp, subscriber, e, rfl, hm⟩
  · rintro ⟨hp, _, e, he, hm⟩
    cases he
    exact ⟨rfl, rfl, hp, e, rfl, hm⟩

/-- The one way in which a call of the facade adds a row to a topic that is not registered. -/
theorem regains_iff (h : db.WellFormed) (hf : call.isFacade = true) {reply : Reply}
    (hr : call.operation.Returns db reply db') (hn : db.topic? topic = none) :
    db.Regains db' topic ↔ call.Grants db topic := by
  cases call with
  | checkPublish t =>
    have hreads : (Call.checkPublish t).operation.Reads := Call.reads_of_isQuery rfl
    have hu := (Operation.inline_reads hreads).unchanged db
    rw [hr] at hu
    obtain rfl : db' = db := hu
    exact regains_of_kept (fun row hrow _ => hrow) rfl
  | applyConfirmation t subscriber details expiry =>
    obtain ⟨state, ho, -⟩ := Operation.returns_map.mp hr
    exact regains_of_accepted h (Response.applyConfirmation_returns.mp ho) rfl
  | applyDenial t =>
    obtain ⟨state, ho, -⟩ := Operation.returns_map.mp hr
    obtain ⟨_, -, -, rfl⟩ := (Negotiation.resolve_returns h).mp (Response.applyDenial_returns.mp ho)
    exact regains_of_kept (fun row hrow _ => hrow) rfl
  | handleResponse requestId accepted subscriber details expiry =>
    obtain ⟨outcome, ho, -⟩ := Operation.returns_map.mp hr
    rcases Response.handle_returns h ho with ⟨rfl, rfl⟩ | ⟨-, row, state, hc, ha⟩
    · -- Ignored. The request it answers is then carried by no topic that is pending.
      constructor
      · rintro ⟨row, hrow, -, hnew⟩
        exact absurd hrow hnew
      · rintro ⟨hp, s, e, hg, -⟩
        cases accepted with
        | false => cases hg
        | true =>
          obtain ⟨row, hc, hrow⟩ := Option.map_eq_some_iff.mp hg
          cases hrow
          exact absurd ho (Response.not_ignored h hc (by rw [hp]; rfl))
    · cases accepted with
      | false =>
        have hkeep := Response.apply_ungranted h ha (by simp)
        exact regains_of_kept (fun row hrow _ => hkeep row hrow) rfl
      | true =>
        apply regains_of_accepted h ha
        simp [grant?, hc]
  | handleWithdrawal t =>
    obtain ⟨_, ho, -⟩ := Operation.returns_map.mp hr
    obtain rfl := (Negotiation.retire_returns h).mp (Response.handleWithdrawal_returns.mp ho)
    exact regains_of_kept (fun row hrow _ => hrow) rfl
  | heal t subscriber =>
    obtain ⟨changed, ho, -⟩ := Operation.returns_map.mp hr
    refine regains_of_kept (fun row hrow ht => ?_) rfl
    rcases Healing.heal_rows h ho row hrow with hold | ⟨rfl, hreg⟩
    · exact hold
    · rw [ht, hn] at hreg
      cases hreg
  | _ => cases hf

end

end Call

namespace World

theorem regains_by_grant {w : World} {i : Nat} (hi : w.Idle i) {db : Database}
    (hd : w.committed? i = some db) (h : db.Reached) {topic : String}
    (hn : db.topic? topic = none) (call : Call) (hf : call.isFacade = true) :
    ∃ db', (w.call i call.operation).1.committed? i = some db' ∧
      ((∃ row ∈ db'.members, row.topic = topic ∧ row ∉ db.members) ↔
        (∃ reply, (w.call i call.operation).2 = .ok reply) ∧
          db.stateOf topic = .subscribePending ∧
            ∃ subscriber e, call.grant? db = some (topic, subscriber, some e) ∧
              db.member? topic subscriber = none) := by
  obtain ⟨-, db', hd', ho⟩ := call_step hi hd call
  refine ⟨db', hd', ?_⟩
  generalize (w.call i call.operation).2 = result at ho
  cases ho with
  | fails failure =>
    constructor
    · rintro ⟨row, hrow, -, hnew⟩
      exact absurd hrow hnew
    · rintro ⟨⟨reply, hr⟩, -⟩
      cases hr
  | returns hr =>
    have hiff := Call.regains_iff h.wellFormed hf hr hn
    constructor
    · exact fun hrow => ⟨⟨_, rfl⟩, hiff.mp hrow⟩
    · exact fun hg => hiff.mpr hg.2

theorem reached_run (turns : List Turn) : ((lone .fresh []).run 0 turns).Idle 0 ∧
    ∃ db, ((lone .fresh []).run 0 turns).committed? 0 = some db ∧ db.Reached := by
  obtain ⟨hi, db, hd, hc⟩ := course_of_run (lone_calm .fresh).idle rfl turns
  exact ⟨hi, db, hd, hc.reached⟩

def deregistered : List Turn :=
  [⟨[], .registerTopic "t" "p" none (.plain true)⟩, ⟨[], .requestSubscribe "t" "r"⟩,
    ⟨[], .deregisterTopic "t"⟩]

theorem reached_deregistered : ∃ db, ((lone .fresh []).run 0 deregistered).Idle 0 ∧
    ((lone .fresh []).run 0 deregistered).committed? 0 = some db ∧ db.Reached ∧
      db.topic? "t" = none := by
  obtain ⟨hi, db, hd, hr⟩ := reached_run deregistered
  refine ⟨db, hi, hd, hr, ?_⟩
  rw [← committed_of_committed? hd]
  decide +kernel

theorem regains_by_grant_healed :
    let w := (lone .fresh []).run 0 deregistered
    ∃ db db', w.committed? 0 = some db ∧ db.topic? "t" = none ∧ db.stateOf "t" = .subscribePending ∧
      (w.call 0 (Call.heal "t" "s").operation).1.committed? 0 = some db' ∧
        ¬∃ row ∈ db'.members, row.topic = "t" ∧ row ∉ db.members := by
  intro w
  obtain ⟨db, hi, hd, hr, hn⟩ := reached_deregistered
  obtain ⟨db', hd', hiff⟩ := regains_by_grant hi hd hr hn (.heal "t" "s") rfl
  refine ⟨db, db', hd, hn, ?_, hd', ?_⟩
  · rw [← committed_of_committed? hd]
    decide +kernel
  · rw [hiff]
    rintro ⟨-, -, _, _, hg, -⟩
    cases hg

theorem deregistered_regains :
    let w := (lone .fresh []).run 0 deregistered
    let call := Call.handleResponse (some "r") true "s" (.list []) (some 0)
    ∃ db db', w.Idle 0 ∧ w.committed? 0 = some db ∧ db.Reached ∧ db.topic? "t" = none ∧
      call.isFacade = true ∧ (w.call 0 call.operation).1.committed? 0 = some db' ∧
        ∃ row ∈ db'.members, row.topic = "t" ∧ row ∉ db.members := by
  intro w call
  obtain ⟨db, hi, hd, hr, hn⟩ := reached_deregistered
  obtain ⟨-, db', hd', -⟩ := call_step hi hd call
  refine ⟨db, db', hi, hd, hr, hn, rfl, hd', ?_⟩
  rw [← committed_of_committed? hd, ← committed_of_committed? hd']
  exact ⟨⟨1, "t", "s", "[]", 0, some "r"⟩, by decide +kernel, rfl, by decide +kernel⟩

end World

/-! ## The membership of a granted subscription -/

/-- The subscriber, details and expiry that an accepted answer brings. -/
def Call.confirmation? : Call → Option (String × Details × Option Int)
  | .applyConfirmation _ subscriber details expiry
  | .handleResponse _ true subscriber details expiry => some (subscriber, details, expiry)
  | _ => none

theorem Call.applied_of_confirmation {db db' : Database} (h : db.Reached) {call : Call}
    {subscriber : String} {details : Details} {expiry : Option Int}
    (hc : call.confirmation? = some (subscriber, details, expiry)) {reply : Reply}
    (hr : call.operation.Returns db reply db') {topic : String}
    (hne : db'.stateOf topic ≠ db.stateOf topic) :
    (∃ state, (Response.apply topic true subscriber details expiry).eval db = (.ok state, db')) ∧
      ∀ requestId accepted s d e, call = .handleResponse requestId accepted s d e →
        db.requestOf topic = requestId := by
  have hmoved : ∀ {t state},
      (Response.apply t true subscriber details expiry).eval db = (.ok state, db') → t = topic := by
    intro t state ha
    by_contra htt
    -- A response moves only its own topic, and only `topic` has moved.
    obtain ⟨resolution, hres, -, -, hs⟩ := Response.apply_ok h.wellFormed ha
    apply hne
    rw [Database.stateOf_congr hs, Database.stateOf_resolve hres, if_neg (Ne.symm htt)]
  cases call with
  | applyConfirmation t s d e =>
    cases hc
    obtain ⟨state, ho, -⟩ := Operation.returns_map.mp hr
    have ha := Response.applyConfirmation_returns.mp ho
    obtain rfl := hmoved ha
    exact ⟨⟨state, ha⟩, fun _ _ _ _ _ he => by cases he⟩
  | handleResponse requestId accepted s d e =>
    cases accepted with
    | false => cases hc
    | true =>
      cases hc
      obtain ⟨outcome, ho, -⟩ := Operation.returns_map.mp hr
      rcases Response.handle_returns h.wellFormed ho with ⟨-, rfl⟩ | ⟨-, row, state, hrow, ha⟩
      · exact absurd rfl hne
      · obtain rfl := hmoved ha
        refine ⟨⟨state, ha⟩, fun r _ _ _ _ he => ?_⟩
        cases he
        cases requestId with
        | none => cases hrow
        | some requestId =>
          obtain ⟨hm, hid⟩ := Database.mem_of_carrier? hrow
          rw [Database.requestOf, Database.subscription?_of_mem h.keyed hm]
          exact hid
  | _ => cases hc

/-! ## Reading memberships -/

theorem MemberRow.record_eq {row : MemberRow} {texts : List String}
    (h : row.details = Details.encodeTexts texts) :
    row.record = .ok ⟨row.id, row.topic, row.subscriber, texts.map .text, row.expiry,
      row.requestId⟩ := by
  unfold MemberRow.record
  rw [h, Details.decode_encodeTexts]
  rfl

theorem Membership.get_returns {db : Database} (h : db.WellFormed) {topic subscriber : String}
    {row : MemberRow} (hm : db.member? topic subscriber = some row) {record : MemberRecord}
    (hr : row.record = .ok record) : (get topic subscriber).Returns db (some record) db := by
  have hb : (get topic subscriber).body.eval db = (.ok (concludeOne (some row)), db) := by
    simp [get, Script.eval_bind, Script.eval_see (h.has .subscribers), hm]
  rw [Operation.returns_of_ok hb]
  exact ⟨rfl, by rw [concludeOne, hr]; rfl, rfl⟩

namespace World

theorem getSubscriber_of_row {db : Database} (h : db.Reached) {topic subscriber : String}
    {row : MemberRow} (hm : db.member? topic subscriber = some row) :
    ∃ record, row.record = .ok record ∧ record.topic = topic ∧ record.subscriber = subscriber ∧
      ∀ (w : World) (i : Nat), w.Calm i → w.committed? i = some db →
        (w.call i (Call.getSubscriber topic subscriber).operation).2 =
          .ok (.member (some record)) := by
  obtain ⟨hmem, htopic, hsub⟩ := Database.mem_of_member? hm
  obtain ⟨texts, ht⟩ := h.readable row hmem
  have hr := MemberRow.record_eq ht
  refine ⟨_, hr, htopic, hsub, fun w i hc hd => (answers_of_calm hc hd).mpr ⟨db, ?_⟩⟩
  exact Operation.returns_map.mpr ⟨_, Membership.get_returns h.wellFormed hm hr, rfl⟩

/-- After a pending subscription was granted, the subscriber has a record that can be read. If there
was no membership before, it brings what the answer brought, and the request that was pending. A
membership that was there is left as it was. -/
theorem member_of_confirmed {w : World} {i : Nat} (hi : w.Idle i) {db db' : Database}
    (hd : w.committed? i = some db) (h : db.Reached) {call : Call} {subscriber : String}
    {details : Details} {expiry : Int}
    (hc : call.confirmation? = some (subscriber, details, some expiry))
    (hd' : (w.call i call.operation).1.committed? i = some db') {topic : String}
    (hp : db.stateOf topic = .subscribePending) (hs : db'.stateOf topic = .subscribed) :
    ∃ record : MemberRecord,
      (∀ (w' : World) (k : Nat), w'.Calm k → w'.committed? k = some db' →
        (w'.call k (Call.getSubscriber topic subscriber).operation).2 =
          .ok (.member (some record))) ∧
      record.topic = topic ∧ record.subscriber = subscriber ∧
      (∀ requestId accepted s d e, call = .handleResponse requestId accepted s d e →
        db.requestOf topic = requestId) ∧
      match db.member? topic subscriber with
      | none => ∃ texts, details.texts? = .ok texts ∧ record.details = texts.map .text ∧
          record.expiry = expiry ∧ record.requestId = db.requestOf topic
      | some row => row.record = .ok record := by
  obtain ⟨-, db₁, hd₁, ho⟩ := call_step hi hd call
  obtain rfl : db' = db₁ := Option.some.inj (hd'.symm.trans hd₁)
  have hne : db'.stateOf topic ≠ db.stateOf topic := by
    rw [hp, hs]
    decide
  generalize (w.call i call.operation).2 = result at ho
  cases ho with
  | fails failure => exact absurd rfl hne
  | returns hr =>
    obtain ⟨⟨state, ha⟩, hid⟩ := Call.applied_of_confirmation h hc hr hne
    obtain ⟨texts, rows, ht, hrun⟩ := Response.apply_granted h.wellFormed ha rfl hp
    obtain ⟨row, hrow, hold⟩ := Database.row_of_addMember hrun rfl
    obtain ⟨record, hrec, htopic, hsub, hget⟩ := getSubscriber_of_row (h.returns hr) hrow
    have hbefore : (db.setState topic .subscribed).2.member? topic subscriber =
        db.member? topic subscriber := rfl
    rw [hbefore] at hold
    refine ⟨record, hget, htopic, hsub, hid, ?_⟩
    rcases hold with hsome | ⟨hnone, hdet, hexp, hreq⟩
    · rw [hsome]
      exact hrec
    · rw [hnone]
      cases hrec.symm.trans (MemberRow.record_eq hdet)
      exact ⟨texts, ht, rfl, hexp, hreq⟩

def asked : List Turn :=
  [⟨[], .registerTopic "t" "p" none (.plain true)⟩, ⟨[], .requestSubscribe "t" "r"⟩]

def insertedBefore : List Turn :=
  ⟨[], .addSubscriber "t" "s" (.list [some "a"]) (some 1) none⟩ :: asked

theorem member_of_confirmed_asked :
    let w := (lone .fresh []).run 0 asked
    let call := Call.handleResponse (some "r") true "s" (.list [some "a", none]) (some 5)
    ∃ db db' record, w.committed? 0 = some db ∧ db.stateOf "t" = .subscribePending ∧
      (w.call 0 call.operation).1.committed? 0 = some db' ∧ db'.stateOf "t" = .subscribed ∧
        ((lone db' []).call 0 (Call.getSubscriber "t" "s").operation).2 =
          .ok (.member (some record)) ∧
        record.details = [.text "a"] ∧ record.expiry = 5 ∧ record.requestId = some "r" := by
  intro w call
  obtain ⟨hi, db, hd, hr⟩ := reached_run asked
  obtain ⟨-, db', hd', -⟩ := call_step hi hd call
  have hp : db.stateOf "t" = .subscribePending := by
    rw [← committed_of_committed? hd]
    decide +kernel
  have hs : db'.stateOf "t" = .subscribed := by
    rw [← committed_of_committed? hd']
    decide +kernel
  have hnone : db.member? "t" "s" = none := by
    rw [← committed_of_committed? hd]
    decide +kernel
  obtain ⟨record, hget, -, -, hid, hrec⟩ := member_of_confirmed hi hd hr rfl hd' hp hs
  rw [hnone] at hrec
  obtain ⟨texts, ht, hdet, hexp, hreq⟩ := hrec
  cases ht
  exact ⟨db, db', record, hd, hp, hd', hs, hget (lone db' []) 0 (lone_calm db') rfl, hdet, hexp,
    hreq.trans (hid _ _ _ _ _ rfl)⟩

/-- A membership from before the request keeps its details, its expiry and its request. -/
theorem confirmed_keeps_inserted :
    let w := (lone .fresh []).run 0 insertedBefore
    let call := Call.applyConfirmation "t" "s" (.list [some "b"]) (some 2)
    ∃ db db' record, w.Idle 0 ∧ w.committed? 0 = some db ∧ db.Reached ∧
      db.stateOf "t" = .subscribePending ∧ db.requestOf "t" = some "r" ∧
      (w.call 0 call.operation).1.committed? 0 = some db' ∧ db'.stateOf "t" = .subscribed ∧
        ((lone db' []).call 0 (Call.getSubscriber "t" "s").operation).2 =
          .ok (.member (some record)) ∧
        record.details = [.text "a"] ∧ record.expiry = 1 ∧ record.requestId = none := by
  intro w call
  obtain ⟨hi, db, hd, hr⟩ := reached_run insertedBefore
  obtain ⟨-, db', hd', ho⟩ := call_step hi hd call
  have hrow : db'.member? "t" "s" = some ⟨1, "t", "s", Details.encodeTexts ["a"], 1, none⟩ := by
    rw [← committed_of_committed? hd']
    decide +kernel
  obtain ⟨record, hrec, -, -, hget⟩ := getSubscriber_of_row (hr.outcome ho) hrow
  cases hrec.symm.trans (MemberRow.record_eq rfl)
  refine ⟨db, db', _, hi, hd, hr, ?_, ?_, hd', ?_, hget (lone db' []) 0 (lone_calm db') rfl, rfl,
    rfl, rfl⟩
  · rw [← committed_of_committed? hd]
    decide +kernel
  · rw [← committed_of_committed? hd]
    decide +kernel
  · rw [← committed_of_committed? hd']
    decide +kernel

end World

end PubSub
