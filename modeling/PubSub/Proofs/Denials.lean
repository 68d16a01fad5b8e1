import PubSub.Proofs.Locality

/-!
# Denials

A record does not say where its request came from. Each pending state can be entered from
few others, so a denial still leads back there, whatever happens to other topics in
between. The exception is a topic that was withdrawn before it was asked for again: denied,
it is unsubscribed, and no longer deprecated (`state_of_denied`).
-/

namespace PubSub

/-- What a denial makes of a topic that was in this state when the request was made. -/
def State.denied : State → State
  | .deprecated => .unsubscribed
  | s => s

theorem State.denied_eq_iff {s : State} : s.denied = s ↔ s ≠ .deprecated := by
  cases s <;> decide

theorem State.refused_of_request {s next : State} (hp : next.isPending = true)
    (hstep : s.canBecome next = true) :
    ∃ resolution, next.resolution? = some resolution ∧ resolution.refused = s.denied := by
  cases next with
  | subscribePending =>
    refine ⟨_, rfl, ?_⟩
    cases s <;> first | rfl | cases hstep
  | unsubscribePending =>
    refine ⟨_, rfl, ?_⟩
    cases s <;> first | rfl | cases hstep
  | _ => cases hp

namespace Call

/-- The topic that a changing call addresses, by its name or as the topic of a request. -/
def addressee? (db : Database) : Call → Option String
  | .handleResponse requestId .. => (db.carrier? requestId).map (·.topic)
  | call => call.address?

/-- A call that denies what is pending for a topic, if it is answered in this way. -/
def denies (db : Database) (topic : String) : Call → Reply → Bool
  | .deny t, _ | .applyDenial t, _ => t = topic
  | .handleResponse requestId false .., .outcome .applied =>
    (db.carrier? requestId).map (·.topic) = some topic
  | _, _ => false

end Call

/-! ## Calls on other topics -/

section
variable {db db' : Database} (h : db.Reached)

include h

theorem subscription?_of_handle {requestId : Option String} {accepted : Bool} {subscriber : String}
    {details : Details} {expiry : Option Int} {outcome : ResponseOutcome} {t : String}
    (hr : (Response.handle requestId accepted subscriber details expiry).Returns db outcome db')
    (ht : (db.carrier? requestId).map (·.topic) ≠ some t) :
    db'.subscription? t = db.subscription? t := by
  rcases Response.handle_returns h.wellFormed hr with ⟨-, rfl⟩ | ⟨-, row, state, hc, ha⟩
  · rfl
  · obtain ⟨_, -, -, -, hs⟩ := Response.apply_ok h.wellFormed ha
    have hne : t ≠ row.topic := by
      rintro rfl
      exact ht (by rw [hc]; rfl)
    have hrow := db.subscription?_setState row.topic state t
    simp only [if_neg hne, Option.map_id'] at hrow
    rw [← hrow]
    exact congrArg (List.find? _) hs

theorem subscription?_of_purgeDeprecated {rows : Nat} {t : String}
    (hr : Negotiation.purgeDeprecated.Returns db rows db') (hs : db.stateOf t ≠ .deprecated) :
    db'.subscription? t = db.subscription? t := by
  obtain ⟨-, rfl⟩ := Prod.mk.inj (Negotiation.purgeDeprecated_returns hr)
  have hrow : (db.dropInState .deprecated).2.subscription? t =
      (db.subscription? t).filter fun row => row.code ≠ State.deprecated.code :=
    Database.find?_filter_of_nodup SubscriptionRow.topic _ h.keyed t
  refine hrow.trans ?_
  cases hrow : db.subscription? t with
  | none => rfl
  | some row =>
    have hcode : row.code ≠ State.deprecated.code := by
      intro he
      refine hs ?_
      simp [Database.stateOf, hrow, he, State.ofCode?_code]
    simp [Option.filter, hcode]

theorem subscription?_of_returns {call : Call} {reply : Reply} {t : String}
    (hr : call.operation.Returns db reply db') (ha : call.addressee? db ≠ some t)
    (hs : db.stateOf t ≠ .deprecated) : db'.subscription? t = db.subscription? t := by
  have hnamed : ∀ {u}, call.address? = some u → u ≠ t → db'.subscription? t = db.subscription? t := by
    intro u hu hne
    have hframe := ((Call.minds hu).alone_frame hne.symm db).1
    rw [hr.alone] at hframe
    rw [Database.subscription?_eq_portion, Database.subscription?_eq_portion, hframe]
  cases hq : call.isQuery with
  | true =>
    have hu := (Operation.inline_reads (call.reads_of_isQuery hq)).unchanged db
    rw [hr] at hu
    exact congrArg (·.subscription? t) (show db' = db from hu)
  | false =>
    cases call with
    | handleResponse requestId accepted subscriber details expiry =>
      obtain ⟨_, ho, -⟩ := Operation.returns_map.mp hr
      exact subscription?_of_handle h ho ha
    | purgeDeprecated =>
      obtain ⟨_, ho, -⟩ := Operation.returns_map.mp hr
      exact subscription?_of_purgeDeprecated h ho hs
    | _ =>
      first
      | exact hnamed rfl fun he => ha (congrArg some he)
      | cases hq

theorem stateOf_of_denies {call : Call} {reply : Reply} {t : String}
    (hr : call.operation.Returns db reply db') (hdeny : call.denies db t reply = true) :
    ∃ resolution, (db.stateOf t).resolution? = some resolution ∧
      db'.stateOf t = resolution.refused := by
  have hw := h.wellFormed
  have hset : ∀ {u state resolution}, (db.stateOf u).resolution? = some resolution →
      (db.setState u state).2.stateOf u = state := by
    intro u state resolution hres
    rw [Database.stateOf_resolve hres, if_pos rfl]
  have hresolve : ∀ {state}, (Negotiation.deny t).Returns db state db' →
      ∃ resolution, (db.stateOf t).resolution? = some resolution ∧
        db'.stateOf t = resolution.refused := by
    intro state ho
    obtain ⟨resolution, hres, rfl, rfl⟩ := (Negotiation.resolve_returns hw).mp ho
    exact ⟨resolution, hres, hset hres⟩
  cases call with
  | deny topic =>
    obtain rfl : topic = t := by simpa [Call.denies] using hdeny
    obtain ⟨_, ho, -⟩ := Operation.returns_map.mp hr
    exact hresolve ho
  | applyDenial topic =>
    obtain rfl : topic = t := by simpa [Call.denies] using hdeny
    obtain ⟨_, ho, -⟩ := Operation.returns_map.mp hr
    exact hresolve (Response.applyDenial_returns.mp ho)
  | handleResponse requestId accepted subscriber details expiry =>
    obtain ⟨outcome, ho, rfl⟩ := Operation.returns_map.mp hr
    cases accepted with
    | true => cases hdeny
    | false =>
      rcases Response.handle_returns hw ho with ⟨rfl, rfl⟩ | ⟨rfl, row, state, hc, ha⟩
      · cases hdeny
      · obtain rfl : row.topic = t := by simpa [Call.denies, hc] using hdeny
        obtain ⟨resolution, hres, rfl, -, hs⟩ := Response.apply_ok hw ha
        exact ⟨resolution, hres, (Database.stateOf_congr hs _).trans (hset hres)⟩
  | _ => cases hdeny

end

/-! ## Runs -/

namespace World

section
variable {w : World} {i : Nat} {db : Database}

theorem turn_returns (hi : w.Idle i) (hd : w.committed? i = some db) {t : Turn} {reply : Reply}
    (hr : (w.turn i t).2 = .ok reply) :
    (w.turn i t).1.Idle i ∧ ∃ db', (w.turn i t).1.committed? i = some db' ∧
      t.call.operation.Returns db reply db' := by
  obtain ⟨hi', db', hd', ho⟩ := turn_step hi hd t
  rw [hr] at ho
  cases ho with
  | returns hret => exact ⟨hi', db', hd', hret⟩

theorem subscription?_run (hi : w.Idle i) (hd : w.committed? i = some db) (h : db.Reached)
    {t : String} (hs : db.stateOf t ≠ .deprecated) {turns : List Turn}
    (ha : ∀ m ∈ w.history i turns, m.call.addressee? m.before ≠ some t) :
    (w.run i turns).Idle i ∧ ∃ db', (w.run i turns).committed? i = some db' ∧ db'.Reached ∧
      db'.subscription? t = db.subscription? t := by
  induction turns generalizing w db with
  | nil => exact ⟨hi, db, hd, h, rfl⟩
  | cons turn turns ih =>
    obtain ⟨hi₁, db₁, hd₁, ho⟩ := turn_step hi hd turn
    have hother := ha _ List.mem_cons_self
    simp only [committed_of_committed? hd] at hother
    have hrow : db₁.subscription? t = db.subscription? t := by
      generalize (w.turn i turn).2 = result at ho
      cases ho with
      | fails failure => rfl
      | returns hr => exact subscription?_of_returns h hr hother hs
    have hs₁ : db₁.stateOf t ≠ .deprecated := by
      rwa [Database.stateOf, hrow]
    obtain ⟨hi', db', hd', h', hrow'⟩ :=
      ih hi₁ hd₁ (h.outcome ho) hs₁ fun m hm => ha m (List.mem_cons_of_mem _ hm)
    exact ⟨hi', db', hd', h', hrow'.trans hrow⟩

end

/-- A topic is asked for or given up in some state, any calls address other topics, and then the
request is denied. If the topic was deprecated before it is unsubscribed now, and otherwise it is
in the state in which the request found it. -/
theorem state_of_denied {w : World} {i : Nat} (hi : w.Idle i) {db : Database}
    (hd : w.committed? i = some db) (h : db.Reached) {ask answer : Turn} {between : List Turn}
    {topic requestId : String} {asked answered : Reply}
    (hrequest : ask.call.request? = some (topic, requestId)) :
    let w₁ := (w.turn i ask).1
    let w₂ := w₁.run i between
    (w.turn i ask).2 = .ok asked →
    (∀ m ∈ w₁.history i between, m.call.addressee? m.before ≠ some topic) →
    (w₂.turn i answer).2 = .ok answered →
    answer.call.denies (w₂.committed i) topic answered = true →
    ∃ db', (w₂.turn i answer).1.committed? i = some db' ∧
      (db'.stateOf topic = db.stateOf topic ↔ db.stateOf topic ≠ .deprecated) ∧
      ∀ (w₀ : World) (k : Nat), w₀.Calm k →
        (w₀.committed? k = some db →
          (w₀.call k (Call.currentState topic).operation).2 = .ok (.state (db.stateOf topic))) ∧
        (w₀.committed? k = some db' →
          (w₀.call k (Call.currentState topic).operation).2 =
            .ok (.state (db.stateOf topic).denied)) := by
  intro w₁ w₂ hasked hothers hanswered hdeny
  obtain ⟨hi₁, db₁, hd₁, hret⟩ := turn_returns hi hd hasked
  have h₁ : db₁.Reached := h.returns hret
  -- Of all that a call can do to subscriptions, only a request names a topic and an id.
  obtain ⟨next, hp, hstep, hnext⟩ : ∃ next : State, next.isPending = true ∧
      (db.stateOf topic).canBecome next = true ∧ db₁.stateOf topic = next := by
    cases moved_of_returns h.wellFormed hret with
    | requested t r next hq hp hstep hreg he =>
      cases hq.symm.trans hrequest
      refine ⟨next, hp, hstep, ?_⟩
      rw [he, Database.stateOf_putSubscription, if_pos rfl]
    | nowhere _ _ hq | resolved _ _ _ _ _ _ _ hq | withdrawn _ _ _ hq | dropped _ _ _ hq =>
      cases hq.symm.trans hrequest
  have hs₁ : db₁.stateOf topic ≠ .deprecated := by
    rw [hnext]
    rintro rfl
    cases hp
  obtain ⟨hi₂, db₂, hd₂, h₂, hrow⟩ := subscription?_run hi₁ hd₁ h₁ hs₁ hothers
  have hsame : db₂.stateOf topic = next := by
    rw [← hnext, Database.stateOf, hrow, Database.stateOf]
  obtain ⟨-, db', hd', hret'⟩ := turn_returns hi₂ hd₂ hanswered
  rw [committed_of_committed? hd₂] at hdeny
  obtain ⟨resolution, hres, hfinal⟩ := stateOf_of_denies h₂ hret' hdeny
  -- A pending state is entered from the state that a denial leads back to, or from `deprecated`.
  obtain ⟨resolution', hres', hdenied⟩ := State.refused_of_request hp hstep
  rw [hsame, hres', Option.some.injEq] at hres
  subst hres
  rw [hdenied] at hfinal
  refine ⟨db', hd', by rw [hfinal, State.denied_eq_iff], fun w₀ k hcalm => ⟨fun hk => ?_, fun hk => ?_⟩⟩
  · exact (answers_of_calm hcalm hk).mpr
      ⟨db, Operation.returns_map.mpr ⟨_, Negotiation.currentState_returns h.wellFormed topic, rfl⟩⟩
  · rw [← hfinal]
    have h' : db'.WellFormed := (h₂.returns hret').wellFormed
    exact (answers_of_calm hcalm hk).mpr
      ⟨db', Operation.returns_map.mpr ⟨_, Negotiation.currentState_returns h' topic, rfl⟩⟩

def subscribedFirst : List Turn :=
  [⟨[], .registerTopic "t" "p" none (.plain true)⟩, ⟨[], .registerTopic "u" "p" none (.plain true)⟩,
    ⟨[], .requestSubscribe "t" "q"⟩, ⟨[], .confirm "t"⟩]

/-- Calls on another topic, which borrow the request id for a while. -/
def borrowed : List Turn :=
  [⟨[], .requestSubscribe "u" "r"⟩, ⟨[⟨.commit, 0, 1⟩], .handleResponse (some "r") true "s" .empty (some 0)⟩,
    ⟨[], .handleResponse (some "r") true "s" .empty (some 0)⟩, ⟨[], .requestUnsubscribe "u" "r"⟩,
    ⟨[], .retire "u"⟩, ⟨[], .purgeDeprecated⟩]

theorem state_of_denied_borrowed :
    let w := (lone .fresh []).run 0 subscribedFirst
    let w₁ := (w.turn 0 ⟨[], .requestUnsubscribe "t" "r"⟩).1
    let w₂ := w₁.run 0 borrowed
    let w₃ := (w₂.turn 0 ⟨[], .handleResponse (some "r") false "s" .empty (some 0)⟩).1
    (w₁.committed 0).stateOf "t" = .unsubscribePending ∧
      ∃ db', w₃.committed? 0 = some db' ∧
        ((lone db' []).call 0 (Call.currentState "t").operation).2 = .ok (.state .subscribed) := by
  intro w w₁ w₂ w₃
  obtain ⟨hi, db, hd, hr⟩ := reached_run subscribedFirst
  have hstate : db.stateOf "t" = .subscribed := by
    rw [← committed_of_committed? hd]
    decide +kernel
  have hall : (w₁.history 0 borrowed).all (fun m => m.call.addressee? m.before ≠ some "t") = true := by
    decide +kernel
  have hothers : ∀ m ∈ w₁.history 0 borrowed, m.call.addressee? m.before ≠ some "t" :=
    fun m hm => of_decide_eq_true (List.all_eq_true.mp hall m hm)
  have hpending : (w₁.committed 0).stateOf "t" = .unsubscribePending := by decide +kernel
  obtain ⟨db', hd', -, hcalm⟩ :=
    @state_of_denied _ 0 hi db hd hr ⟨[], .requestUnsubscribe "t" "r"⟩
      ⟨[], .handleResponse (some "r") false "s" .empty (some 0)⟩ borrowed "t" "r" .done
      (.outcome .applied) rfl rfl hothers rfl (by decide +kernel)
  have := (hcalm (lone db' []) 0 (lone_calm db')).2 rfl
  rw [hstate] at this
  exact ⟨hpending, db', hd', this⟩

def withdrawnFirst : List Turn :=
  [⟨[], .registerTopic "t" "p" none (.plain true)⟩, ⟨[], .retire "t"⟩]

/-- The topic is deprecated before the request and unsubscribed after its denial. -/
theorem denial_forgets_withdrawal :
    let w := (lone .fresh []).run 0 withdrawnFirst
    let w₁ := (w.call 0 (Call.requestSubscribe "t" "r").operation).1
    let w₂ := (w₁.call 0 (Call.deny "t").operation).1
    (w.call 0 (Call.currentState "t").operation).2 = .ok (.state .deprecated) ∧
      (w.call 0 (Call.requestSubscribe "t" "r").operation).2 = .ok .done ∧
      (w₁.call 0 (Call.deny "t").operation).2 = .ok (.state .unsubscribed) ∧
      (w₂.call 0 (Call.currentState "t").operation).2 = .ok (.state .unsubscribed) :=
  ⟨rfl, rfl, rfl, rfl⟩

end World

end PubSub
