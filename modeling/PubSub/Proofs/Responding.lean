import PubSub.Proofs.Confirmations
import PubSub.Proofs.Safety

/-!
# What a response by request comes to

A response that is ignored has left no trace. One that is applied has resolved the pending
record that carries its request, and it has touched one membership at the most
(`Response.Applied`). Only failures that say nothing about the request come out of it,
wherever it is made.
-/

namespace PubSub

/-! ## Memberships beside one -/

namespace Database

/-- The rows of all other memberships. -/
def beside (db : Database) (topic subscriber : String) : List MemberRow :=
  db.members.filter fun m => ¬(m.topic = topic ∧ m.subscriber = subscriber)

theorem beside_congr {db db' : Database} (h : db'.members = db.members) (topic subscriber : String) :
    db'.beside topic subscriber = db.beside topic subscriber := by
  unfold beside
  rw [h]

theorem beside_dropMember (db : Database) (topic subscriber : String) :
    (db.dropMember topic subscriber).2.beside topic subscriber = db.beside topic subscriber := by
  simp [beside, dropMember, List.filter_filter]

theorem beside_addMember {db db' : Database} {new : NewMember} {rows : Nat}
    (h : db.addMember new = .ok (rows, db')) :
    db'.beside new.topic new.subscriber = db.beside new.topic new.subscriber := by
  rcases addMember_members h with ⟨row, ht, hs, -, -, -, -, hm⟩ | ⟨-, hm⟩
  · simp [beside, hm, ht, hs]
  · exact beside_congr hm ..

theorem WellFormed.code_eq {db : Database} (h : db.WellFormed) {topic : String}
    {row : SubscriptionRow} (hr : db.subscription? topic = some row) :
    row.code = (db.stateOf topic).code := by
  obtain ⟨state, hs⟩ := h.codes row (List.mem_of_find?_eq_some hr)
  simp [stateOf, hr, hs, State.ofCode?_code]

end Database

/-! ## Failures -/

theorem Script.safe_catching {α : Type} (caught : Failure → Bool) (s : Script α) (db : Database) :
    (s.catching caught).Safe (fun _ => True) (fun failure => caught failure = false)
      (fun _ _ => True) db := by
  induction s generalizing db with
  | done a => exact ⟨trivial, trivial⟩
  | fail failure =>
    simp only [catching]
    split
    · exact ⟨trivial, trivial⟩
    · rename_i hc
      exact ⟨trivial, by simpa using hc⟩
  | look table next ih => exact ih db db
  | write w next ih => exact ⟨trivial, fun _ rows db' _ => ih rows db'⟩
  | note n next ih => exact ih db

namespace Response

theorem handle_safe (requestId : Option String) (accepted : Bool) (subscriber : String)
    (details : Details) (expiry : Option Int) :
    (handle requestId accepted subscriber details expiry).Safe (fun _ => True) Failure.Lasting := by
  refine ⟨fun failure he => (by cases he), fun _ db _ => ?_, fun cause failure he => .inl ?_⟩
  · have htopic : (Negotiation.topicOfRequest requestId).Safe (fun _ => True) Failure.Lasting :=
      Operation.safe_of_look rfl rfl (fun _ => rfl) fun _ _ failure he => by cases he
    refine (htopic.inline trivial).bind fun topic db' _ _ => ?_
    cases topic with
    | none => exact ⟨trivial, fun failure he => by cases he⟩
    | some topic =>
      refine (Script.safe_catching Failure.isStale _ db').bind fun result db'' _ _ => ?_
      cases result <;> exact ⟨trivial, fun failure he => by cases he⟩
  · cases he
    rfl

end Response

theorem Failure.Lasting.leaving {failure : Failure} (h : failure.Lasting) : failure.leaving.Lasting := by
  cases failure <;> exact h

theorem Call.handleResponse_lasting (w : World) (i : Nat) {requestId : Option String}
    {accepted : Bool} {subscriber : String} {details : Details} {expiry : Option Int}
    {failure : Failure}
    (hf : (w.call i (Call.handleResponse requestId accepted subscriber details expiry).operation).2 =
      .error failure) : failure.Lasting := by
  have hsafe := (Response.handle_safe requestId accepted subscriber details expiry).map Reply.outcome
  unfold World.call at hf
  split at hf
  · cases hf
    rfl
  · rename_i s _
    split at hf
    · cases he : s.entered <;> simp only [he] at hf <;> cases hf <;> rfl
    · rename_i link _
      exact Handle.fails_of_perform hsafe (fun _ => .of_statement) (fun _ => .leaving)
        (h := ⟨0, s.entered, w.connection i link⟩) ⟨trivial, fun _ _ => trivial⟩ hf

/-! ## Responses that are applied -/

/-- What a response that is applied does, to the topic that carries its request. -/
structure Response.Applied (requestId : Option String) (accepted : Bool) (subscriber : String)
    (expiry : Option Int) (topic : String) (db db' : Database) : Prop where
  carried : ∃ row, db.subscription? topic = some row ∧ row.requestId = requestId ∧
    row.code = (db.stateOf topic).code
  moved : ∃ resolution, (db.stateOf topic).resolution? = some resolution ∧
    db'.subscriptions = db.subscriptions.map fun row =>
      if row.topic = topic then { row with code := (resolution.outcome accepted).code } else row
  topics : db'.topics = db.topics
  beside : db'.beside topic subscriber = db.beside topic subscriber
  added : accepted = true → db.stateOf topic = .subscribePending → expiry.isSome →
    (db'.member? topic subscriber).isSome
  removed : accepted = true → db.stateOf topic = .unsubscribePending →
    db'.member? topic subscriber = none
  denied : accepted = false → db'.members = db.members

namespace Response

section
variable {db db' : Database} (h : db.WellFormed) {topic subscriber : String} {details : Details}
  {expiry : Option Int} {state : State}

include h

theorem apply_denies (ha : (apply topic false subscriber details expiry).eval db = (.ok state, db')) :
    db' = (db.setState topic state).2 := by
  obtain ⟨_, -, -, hm⟩ := (apply_iff h).mp ha
  exact hm

theorem apply_removes (ha : (apply topic true subscriber details expiry).eval db = (.ok state, db'))
    (hs : state ≠ .subscribed) : db' = ((db.setState topic state).2.dropMember topic subscriber).2 := by
  obtain ⟨_, -, -, hm⟩ := (apply_iff h).mp ha
  rwa [if_pos rfl, if_neg hs] at hm

theorem beside_of_apply {accepted : Bool}
    (ha : (apply topic accepted subscriber details expiry).eval db = (.ok state, db')) :
    db'.beside topic subscriber = db.beside topic subscriber := by
  have hstate : (db.setState topic state).2.beside topic subscriber = db.beside topic subscriber := rfl
  cases accepted with
  | false => rw [apply_denies h ha, hstate]
  | true =>
    by_cases hs : state = .subscribed
    · obtain ⟨_, -, -, hm⟩ := (apply_iff h).mp ha
      rw [if_pos rfl, if_pos hs] at hm
      obtain ⟨new, hadd⟩ := hm
      obtain ⟨-, -, -, written, rows, -, -, hrun⟩ :=
        (Membership.add_returns (h.setState topic state)).mp hadd
      exact (Database.beside_addMember hrun).trans hstate
    · rw [apply_removes h ha hs, Database.beside_dropMember, hstate]

end

theorem apply_unfit {db : Database} (h : db.WellFormed) {topic : String}
    (hr : (db.stateOf topic).resolution? = none) (accepted : Bool) (subscriber : String)
    (details : Details) (expiry : Option Int) :
    (apply topic accepted subscriber details expiry).eval db =
      (.error (.invalidTransition topic (db.stateOf topic) (.expected accepted)), db) := by
  cases accepted with
  | true => simp [apply, confirmWithMember_eval h, hr, State.expected]
  | false => simp [apply, Negotiation.deny, Negotiation.resolve_eval h, hr]

theorem ignored_iff {db : Database} (h : db.WellFormed) {requestId : Option String}
    (accepted : Bool) (subscriber : String) (details : Details) (expiry : Option Int) :
    (∃ db', (handle requestId accepted subscriber details expiry).Returns db .ignored db') ↔
      ∀ row, db.carrier? requestId = some row → (db.stateOf row.topic).isPending = false := by
  constructor
  · rintro ⟨db', hr⟩ row hc
    rw [← State.isSome_resolution?]
    cases hp : (db.stateOf row.topic).resolution? with
    | none => rfl
    | some resolution => exact absurd hr (not_ignored h hc hp)
  · intro hnone
    have hb := handle_eval h requestId accepted subscriber details expiry
    cases hc : db.carrier? requestId with
    | none =>
      rw [hc] at hb
      exact ⟨db, (Operation.returns_of_ok hb).mpr ⟨rfl, rfl, rfl⟩⟩
    | some row =>
      have hr : (db.stateOf row.topic).resolution? = none := by
        rw [← Option.isNone_iff_eq_none, ← Option.not_isSome, State.isSome_resolution?, hnone row hc]
        rfl
      rw [hc] at hb
      simp only [apply_unfit h hr, Failure.isStale, if_true] at hb
      exact ⟨db, (Operation.returns_of_ok hb).mpr ⟨rfl, rfl, rfl⟩⟩

theorem applied_of_apply {db db' : Database} (h : db.Reached) {requestId : Option String}
    {accepted : Bool} {subscriber : String} {details : Details} {expiry : Option Int}
    {row : SubscriptionRow} {state : State} (hc : db.carrier? requestId = some row)
    (ha : (apply row.topic accepted subscriber details expiry).eval db = (.ok state, db')) :
    Applied requestId accepted subscriber expiry row.topic db db' := by
  have hw := h.wellFormed
  obtain ⟨hmem, hid⟩ : row ∈ db.subscriptions ∧ row.requestId = requestId := by
    cases requestId with
    | none => cases hc
    | some requestId => exact Database.mem_of_carrier? hc
  have hrow := Database.subscription?_of_mem h.keyed hmem
  obtain ⟨resolution, hr, rfl, htopics, hsub⟩ := apply_ok hw ha
  refine ⟨⟨row, hrow, hid, hw.code_eq hrow⟩, ⟨resolution, hr, hsub⟩, htopics, beside_of_apply hw ha,
    fun hacc hp he => ?_, fun hacc hp => ?_, fun hacc => ?_⟩
  · rw [hp] at hr
    cases hr
    subst hacc
    have hsets := (apply_sets hw ha he).members row.topic subscriber
    rw [if_pos ⟨rfl, rfl⟩] at hsets
    exact hsets
  · rw [hp] at hr
    cases hr
    subst hacc
    rw [apply_removes hw ha (by decide), Database.member?_dropMember, if_pos ⟨rfl, rfl⟩]
  · subst hacc
    rw [apply_denies hw ha]
    rfl

end Response

namespace World

/-- A response that is ignored changes nothing. One that is applied resolves what is pending on the
topic that its request is found under, and touches no membership but that of its subscriber. Where
nothing is refused, those are ignored that find nothing pending. No response fails because it does
not fit, wherever it is made. -/
theorem response_applies {w : World} {i : Nat} (hi : w.Idle i) {db : Database}
    (hd : w.committed? i = some db) (h : db.Reached) (requestId : Option String) (accepted : Bool)
    (subscriber : String) (details : Details) (expiry : Option Int) :
    let call := Call.handleResponse requestId accepted subscriber details expiry
    ∃ db', (w.call i call.operation).1.committed? i = some db' ∧
      ((w.call i call.operation).2 = .ok (.outcome .ignored) → db' = db) ∧
      ((w.call i call.operation).2 = .ok (.outcome .applied) → ∃ topic,
        (∀ (w₀ : World) (k : Nat), w₀.Calm k → w₀.committed? k = some db →
          (w₀.call k (Call.topicOfRequest requestId).operation).2 = .ok (.optName (some topic))) ∧
        Response.Applied requestId accepted subscriber expiry topic db db') ∧
      (w.Calm i → ((w.call i call.operation).2 = .ok (.outcome .ignored) ↔
        ∀ row, db.carrier? requestId = some row → (db.stateOf row.topic).isPending = false)) ∧
      ∀ (w' : World) (k : Nat) (failure : Failure),
        (w'.call k call.operation).2 = .error failure → failure.isStale = false := by
  intro call
  obtain ⟨-, db', hd', ho⟩ := call_step hi hd call
  refine ⟨db', hd', fun hignored => ?_, fun happlied => ?_, fun hcalm => ?_, fun w' k failure =>
    Call.handleResponse_lasting w' k⟩
  · rw [hignored] at ho
    cases ho with
    | returns hr =>
      obtain ⟨outcome, hr, he⟩ := Operation.returns_map.mp hr
      cases he
      rcases Response.handle_returns h.wellFormed hr with ⟨-, hsame⟩ | ⟨hne, -⟩
      · exact hsame
      · cases hne
  · rw [happlied] at ho
    cases ho with
    | returns hr =>
      obtain ⟨outcome, hr, he⟩ := Operation.returns_map.mp hr
      cases he
      rcases Response.handle_returns h.wellFormed hr with ⟨hne, -⟩ | ⟨-, row, state, hc, ha⟩
      · cases hne
      · refine ⟨row.topic, fun w₀ k hcalm hd₀ => (answers_of_calm hcalm hd₀).mpr ⟨db, ?_⟩,
          Response.applied_of_apply h hc ha⟩
        refine Operation.returns_map.mpr ⟨some row.topic, ?_, rfl⟩
        exact (Negotiation.topicOfRequest_returns h.wellFormed).mpr ⟨by rw [hc]; rfl, rfl⟩
  · rw [answers_of_calm hcalm hd,
      ← Response.ignored_iff h.wellFormed accepted subscriber details expiry]
    refine exists_congr fun db' => Operation.returns_map.trans ⟨?_, fun hr => ⟨_, hr, rfl⟩⟩
    rintro ⟨outcome, hr, he⟩
    cases he
    exact hr

def askedTwice : List Turn :=
  [⟨[], .registerTopic "t" "p" none (.plain true)⟩, ⟨[], .registerTopic "u" "p" none (.plain true)⟩,
    ⟨[], .requestSubscribe "t" "r"⟩, ⟨[], .requestSubscribe "u" "r"⟩]

/-- The response belongs to the topic that asked last. -/
theorem response_applies_askedTwice :
    let w := (lone .fresh []).run 0 askedTwice
    let call := Call.handleResponse (some "r") true "s" (.list []) (some 0)
    ∃ db db', w.committed? 0 = some db ∧ (w.call 0 call.operation).1.committed? 0 = some db' ∧
      (w.call 0 call.operation).2 = .ok (.outcome .applied) ∧
      Response.Applied (some "r") true "s" (some 0) "u" db db' := by
  intro w call
  obtain ⟨hi, db, hd, hr⟩ := reached_run askedTwice
  obtain ⟨db', hd', -, happlied, -, -⟩ :=
    response_applies hi hd hr (some "r") true "s" (.list []) (some 0)
  have hok : (w.call 0 call.operation).2 = .ok (.outcome .applied) := by rfl
  obtain ⟨topic, hfound, happ⟩ := happlied hok
  have htopic := hfound w 0 (run_calm (lone_calm .fresh) (by decide)) hd
  cases htopic
  exact ⟨db, db', hd, hd', hok, happ⟩

end World

end PubSub
