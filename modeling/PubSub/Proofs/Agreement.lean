import PubSub.Proofs.Responses
import PubSub.Proofs.Runs

/-!
# States and memberships agree

Where all calls speak for one subscriber, that subscriber is a member of every
topic that is subscribed or about to be unsubscribed, and of no other topic as
long as nothing was withdrawn (`subscriber_agrees`). A topic under negotiation
is registered, which keeps repairs from removing the wrong membership.
-/

namespace PubSub

/-! ## The invariant -/

namespace State

def hasMember : State → Bool
  | .subscribed | .unsubscribePending => true
  | _ => false

/-- States that a topic gets into by a request only. -/
def isNegotiated : State → Bool
  | .subscribePending | .subscribed | .unsubscribePending => true
  | _ => false

theorem isNegotiated_of_resolution? {s : State} {r : Resolution} (h : s.resolution? = some r) :
    s.isNegotiated = true := by
  rcases resolution?_cases h with ⟨rfl, -⟩ | ⟨rfl, -⟩ <;> rfl

theorem hasMember_outcome {s : State} {r : Resolution} (h : s.resolution? = some r)
    (accepted : Bool) : (r.outcome accepted).hasMember =
      if accepted then decide (r.outcome accepted = .subscribed) else s.hasMember := by
  rcases resolution?_cases h with ⟨rfl, rfl⟩ | ⟨rfl, rfl⟩ <;> cases accepted <;> rfl

end State

/-- What states and memberships have to do with each other. While nothing was withdrawn, a
subscriber is a member of nothing else. -/
structure Agrees (withdrawn : Bool) (subscriber : String) (db : Database) : Prop where
  wellFormed : db.WellFormed
  registered : ∀ topic, (db.stateOf topic).isNegotiated = true → (db.topic? topic).isSome
  member : ∀ topic, (db.stateOf topic).hasMember = true → (db.member? topic subscriber).isSome
  only : withdrawn = false → ∀ topic, (db.member? topic subscriber).isSome →
    (db.stateOf topic).hasMember = true

theorem agrees_fresh (withdrawn : Bool) (subscriber : String) :
    Agrees withdrawn subscriber .fresh := by
  refine ⟨Database.wellFormed_fresh, ?_, ?_, ?_⟩
  · intro topic h
    cases h
  · intro topic h
    cases h
  · intro _ topic h
    cases h

section
variable {withdrawn : Bool} {subscriber : String} {db db' : Database}

theorem Agrees.change (h : Agrees withdrawn subscriber db) (hw : db'.WellFormed) (topic : String)
    (ht : ∀ t, (db.topic? t).isSome → (db'.topic? t).isSome)
    (hother : ∀ t, t ≠ topic → db'.stateOf t = db.stateOf t ∧
      (db'.member? t subscriber).isSome = (db.member? t subscriber).isSome)
    (hreg : (db'.stateOf topic).isNegotiated = true → (db'.topic? topic).isSome)
    (hmem : (db'.stateOf topic).hasMember = true → (db'.member? topic subscriber).isSome)
    (honly : withdrawn = false → (db'.member? topic subscriber).isSome →
      (db'.stateOf topic).hasMember = true) : Agrees withdrawn subscriber db' := by
  refine ⟨hw, fun t => ?_, fun t => ?_, fun hn t => ?_⟩
  · by_cases he : t = topic
    · exact he ▸ hreg
    · rw [(hother t he).1]
      exact fun hs => ht t (h.registered t hs)
  · by_cases he : t = topic
    · exact he ▸ hmem
    · rw [(hother t he).1, (hother t he).2]
      exact h.member t
  · by_cases he : t = topic
    · exact he ▸ honly hn
    · rw [(hother t he).1, (hother t he).2]
      exact h.only hn t

/-! ## One call -/

theorem Agrees.register (h : Agrees withdrawn subscriber db) (row : TopicRow) :
    Agrees withdrawn subscriber (db.putTopic row) := by
  have hgrow : ∀ t, (db.topic? t).isSome → ((db.putTopic row).topic? t).isSome := by
    intro t ht
    rw [Database.topic?_putTopic]
    split
    · rfl
    · exact ht
  exact ⟨Database.wellFormed_run (w := .putTopic row) rfl h.wellFormed,
    fun t hs => hgrow t (h.registered t hs), h.member, h.only⟩

theorem Agrees.put (h : Agrees withdrawn subscriber db) (topic : String) (state : State)
    (requestId : Option String)
    (hreg : state.isNegotiated = true → (db.topic? topic).isSome)
    (hmem : state.hasMember = true → (db.stateOf topic).hasMember = true)
    (honly : withdrawn = false → (db.stateOf topic).hasMember = true → state.hasMember = true) :
    Agrees withdrawn subscriber (db.putSubscription ⟨topic, state.code, requestId⟩) := by
  have hs := Database.stateOf_putSubscription db topic state requestId
  have hw := Database.wellFormed_run (w := .putSubscription topic state requestId) rfl h.wellFormed
  refine h.change hw topic (fun _ => id) (fun t he => ⟨by rw [hs, if_neg he], rfl⟩) ?_ ?_ ?_
  · rw [hs, if_pos rfl]
    exact hreg
  · rw [hs, if_pos rfl]
    exact fun hm => h.member topic (hmem hm)
  · rw [hs, if_pos rfl]
    exact fun hn hp => honly hn (h.only hn topic hp)

theorem Agrees.sets (h : Agrees withdrawn subscriber db) (hw : db'.WellFormed) {topic : String}
    {present : Bool} (hs : Membership.Sets topic subscriber present db db')
    (hmem : (db.stateOf topic).hasMember = true → present = true)
    (honly : withdrawn = false → present = true → (db.stateOf topic).hasMember = true) :
    Agrees withdrawn subscriber db' := by
  have hst := Database.stateOf_congr hs.subscriptions
  have htop := Database.topic?_congr hs.topics
  have hp : (db'.member? topic subscriber).isSome = present := by
    rw [hs.members, if_pos ⟨rfl, rfl⟩]
  refine h.change hw topic (fun t => by rw [htop]; exact id) (fun t he => ⟨hst t, ?_⟩) ?_ ?_ ?_
  · rw [hs.members, if_neg fun hn => he hn.1]
  · rw [hst, htop]
    exact h.registered topic
  · rw [hst, hp]
    exact hmem
  · rw [hst, hp]
    exact honly

theorem Agrees.apply (h : Agrees withdrawn subscriber db) {topic : String} {accepted : Bool}
    {details : Details} {expiry : Option Int} {state : State} (he : expiry.isSome)
    (ha : (Response.apply topic accepted subscriber details expiry).eval db = (.ok state, db')) :
    Agrees withdrawn subscriber db' := by
  have hw := h.wellFormed
  obtain ⟨resolution, hr, rfl, htop, hsub⟩ := Response.apply_ok hw ha
  have hsets := Response.apply_sets hw ha he
  have hout := State.hasMember_outcome hr accepted
  have ht := Database.topic?_congr htop
  have hs : ∀ t, db'.stateOf t = if t = topic then resolution.outcome accepted else db.stateOf t :=
    fun t => (Database.stateOf_congr hsub t).trans (Database.stateOf_resolve hr _ t)
  have hm : ∀ t, (db'.member? t subscriber).isSome =
      if accepted = true ∧ t = topic then decide (resolution.outcome accepted = .subscribed)
      else (db.member? t subscriber).isSome := by
    intro t
    split at hsets
    · rename_i hacc
      rw [hsets.members]
      simp only [hacc, true_and, and_true]
      rfl
    · rename_i hacc
      rw [hsets, if_neg fun hn => hacc hn.1]
      rfl
  have hw' : db'.WellFormed := by
    have := hw.eval (Response.apply topic accepted subscriber details expiry)
    rwa [ha] at this
  refine h.change hw' topic (fun t => by rw [ht]; exact id) (fun t hn => ⟨?_, ?_⟩) ?_ ?_ ?_
  · rw [hs, if_neg hn]
  · rw [hm, if_neg fun hc => hn hc.2]
  · intro _
    rw [ht]
    exact h.registered topic (State.isNegotiated_of_resolution? hr)
  · rw [hs, if_pos rfl, hm, hout]
    cases accepted with
    | true => simp
    | false => simpa using h.member topic
  · rw [hs, if_pos rfl, hm, hout]
    intro hn
    cases accepted with
    | true => simp
    | false => simpa using h.only hn topic

theorem Agrees.heal (h : Agrees withdrawn subscriber db) {topic : String} {changed : Bool}
    (hr : (Healing.heal topic subscriber).Returns db changed db') :
    Agrees withdrawn subscriber db' := by
  refine h.sets (h.wellFormed.returns hr) (Healing.heal_sets h.wellFormed hr) ?_ ?_
  · intro hm
    have hreg := h.registered topic
    have hpres := h.member topic hm
    cases hs : db.stateOf topic <;> rw [hs] at hm hreg <;>
      simp_all [Healing.wanted, State.hasMember, State.isNegotiated]
  · intro hn hp
    have honly := h.only hn topic
    cases hs : db.stateOf topic <;> rw [hs] at hp honly <;>
      simp_all [Healing.wanted, State.hasMember]

/-! ## Calls for one subscriber -/

/-- Calls that ask and answer for one subscriber. -/
def Call.Serves (subscriber : String) : Call → Prop
  | .registerTopic .. | .requestSubscribe .. | .requestUnsubscribe .. | .applyDenial _
  | .handleWithdrawal _ => True
  | .applyConfirmation _ s _ expiry => s = subscriber ∧ expiry.isSome
  | .handleResponse _ _ s _ expiry => s = subscriber ∧ expiry.isSome
  | .heal _ s => s = subscriber
  | _ => False

def Call.isWithdrawal : Call → Bool
  | .handleWithdrawal _ => true
  | _ => false

theorem Agrees.returns (h : Agrees withdrawn subscriber db) {call : Call} {reply : Reply}
    (hc : call.Serves subscriber) (hn : withdrawn = false → call.isWithdrawal = false)
    (hr : call.operation.Returns db reply db') : Agrees withdrawn subscriber db' := by
  have hw := h.wellFormed
  cases call with
  | registerTopic topic publisher details enabled =>
    obtain ⟨_, hr, -⟩ := Operation.returns_map.mp hr
    obtain ⟨-, row, -, rfl⟩ := Directory.register_returns hr
    exact h.register row
  | requestSubscribe topic requestId =>
    obtain ⟨_, hr, -⟩ := Operation.returns_map.mp hr
    obtain ⟨-, hreg, hstep, rfl⟩ := (Negotiation.requestSubscribe_returns hw).mp hr
    refine h.put topic .subscribePending _ (fun _ => hreg) (fun hm => by cases hm) ?_
    intro _ hm
    cases hs : db.stateOf topic <;> rw [hs] at hstep hm <;> revert hstep hm <;> decide
  | requestUnsubscribe topic requestId =>
    obtain ⟨_, hr, -⟩ := Operation.returns_map.mp hr
    obtain ⟨-, hstep, rfl⟩ := (Negotiation.requestUnsubscribe_returns hw).mp hr
    refine h.put topic .unsubscribePending _ (fun _ => h.registered topic ?_) ?_ fun _ _ => rfl
    · cases hs : db.stateOf topic <;> rw [hs] at hstep <;> revert hstep <;> decide
    · intro _
      cases hs : db.stateOf topic <;> rw [hs] at hstep <;> revert hstep <;> decide
  | applyConfirmation topic s details expiry =>
    obtain ⟨rfl, he⟩ := hc
    obtain ⟨_, hr, -⟩ := Operation.returns_map.mp hr
    exact h.apply he (Response.applyConfirmation_returns.mp hr)
  | applyDenial topic =>
    obtain ⟨state, hr, -⟩ := Operation.returns_map.mp hr
    have ha : (Response.apply topic false subscriber .absent (some 0)).eval db = (.ok state, db') :=
      Response.applyDenial_returns.mp hr
    exact h.apply rfl ha
  | handleResponse requestId accepted s details expiry =>
    obtain ⟨rfl, he⟩ := hc
    obtain ⟨_, hr, -⟩ := Operation.returns_map.mp hr
    rcases Response.handle_returns hw hr with ⟨-, rfl⟩ | ⟨-, row, state, -, ha⟩
    · exact h
    · exact h.apply he ha
  | handleWithdrawal topic =>
    obtain ⟨_, hr, -⟩ := Operation.returns_map.mp hr
    obtain rfl := (Negotiation.retire_returns hw).mp (Response.handleWithdrawal_returns.mp hr)
    refine h.put topic .deprecated _ (fun hm => by cases hm) (fun hm => by cases hm) ?_
    intro hf
    cases hn hf
  | heal topic s =>
    obtain rfl := hc
    obtain ⟨_, hr, -⟩ := Operation.returns_map.mp hr
    exact h.heal hr
  | _ => exact hc.elim

end

/-! ## Runs -/

/-- In every committed state the subscriber is a member of all topics that are subscribed or about
to be unsubscribed, and of no others unless something was withdrawn. -/
theorem World.subscriber_agrees {w : World} {i : Nat} (hi : w.Idle i)
    (hd : w.committed? i = some .fresh) {subscriber : String} {turns : List Turn}
    (hc : ∀ t ∈ turns, t.call.Serves subscriber) :
    ∃ db, (w.run i turns).committed? i = some db ∧
      (∀ topic, db.stateOf topic = .subscribed ∨ db.stateOf topic = .unsubscribePending →
        (db.member? topic subscriber).isSome) ∧
      ((∀ t ∈ turns, t.call.isWithdrawal = false) → ∀ topic,
        (db.member? topic subscriber).isSome ↔
          db.stateOf topic = .subscribed ∨ db.stateOf topic = .unsubscribePending) := by
  obtain ⟨-, db, hdb, hcourse⟩ := course_of_run hi hd turns
  have hagrees : ∀ withdrawn, (withdrawn = false → ∀ t ∈ turns, t.call.isWithdrawal = false) →
      Agrees withdrawn subscriber db := by
    intro withdrawn hn
    refine hcourse.keeps (P := fun call => call.Serves subscriber ∧
      (withdrawn = false → call.isWithdrawal = false)) (agrees_fresh withdrawn subscriber) ?_ ?_
    · exact fun call hcall db reply db' h hr => h.returns hcall.1 hcall.2 hr
    · intro m hm
      have hmem : m.call ∈ turns.map (·.call) := by
        rw [← history_map_call w i turns]
        exact List.mem_map_of_mem hm
      obtain ⟨t, ht, he⟩ := List.mem_map.mp hmem
      rw [← he]
      exact ⟨hc t ht, fun hf => hn hf t ht⟩
  have hmember : ∀ state : State,
      state.hasMember = true ↔ state = .subscribed ∨ state = .unsubscribePending := by
    intro state
    cases state <;> decide
  refine ⟨db, hdb, fun topic hs => ?_, fun hn topic => ?_⟩
  · exact (hagrees true fun hf => by cases hf).member topic ((hmember _).mpr hs)
  · rw [← hmember]
    have h := hagrees false fun _ => hn
    exact ⟨h.only rfl topic, h.member topic⟩

def answeredTwice : List Turn :=
  let response := Call.handleResponse (some "r") true "s" (.list []) (some 0)
  [⟨[], .registerTopic "t" "p" none (.plain true)⟩, ⟨[], .requestSubscribe "t" "r"⟩,
    ⟨[⟨.commit, 0, 1⟩], response⟩, ⟨[], response⟩]

theorem World.subscriber_agrees_answeredTwice :
    ((((lone .fresh []).run 0 answeredTwice).committed 0).member? "t" "s").isSome ∧
      ((((lone .fresh []).run 0 answeredTwice).committed 0).member? "u" "s").isSome = false := by
  have hserve : ∀ t ∈ answeredTwice, t.call.Serves "s" := by
    simp [answeredTwice, Call.Serves]
  have hkept : ∀ t ∈ answeredTwice, t.call.isWithdrawal = false := by
    simp [answeredTwice, Call.isWithdrawal]
  obtain ⟨db, hdb, hmember, hboth⟩ :=
    subscriber_agrees (lone_calm .fresh).idle rfl hserve
  rw [committed_of_committed? hdb]
  have ht : db.stateOf "t" = .subscribed := by
    rw [← committed_of_committed? hdb]
    rfl
  have hu : db.stateOf "u" = .unsubscribed := by
    rw [← committed_of_committed? hdb]
    rfl
  refine ⟨hmember "t" (.inl ht), ?_⟩
  have hn := hboth hkept "u"
  rw [hu] at hn
  simpa using hn

end PubSub
