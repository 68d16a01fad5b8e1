import PubSub.Proofs.Moves
import PubSub.Proofs.Reachable
import PubSub.Proofs.Refusals

/-!
# Steps of topics

Every call moves one topic at the most, and moves it as the table of
`State.canBecome` lists. Purges are the exception: they forget records, and a topic
without one counts as unsubscribed. What a call tells of a step that it refuses is
true, and the record is as it was.
-/

namespace PubSub

namespace Database

/-! ## Dropped records -/

theorem find?_filter_of_nodup {α : Type} (key : α → String) (p : α → Bool) {l : List α}
    (h : (l.map key).Nodup) (k : String) :
    (l.filter p).find? (key · = k) = (l.find? (key · = k)).filter p := by
  induction l with
  | nil => rfl
  | cons a l ih =>
    rw [List.map_cons, List.nodup_cons] at h
    have hl := ih h.2
    by_cases ha : key a = k
    · have hnone : l.find? (key · = k) = none := by
        rw [List.find?_eq_none]
        intro b hb hk
        have hkb : key b = key a := by simpa [ha] using hk
        exact h.1 (hkb ▸ List.mem_map_of_mem hb)
      rw [hnone] at hl
      by_cases hp : p a = true
      · simp [hp, ha, Option.filter]
      · simp [hp, ha, hl, Option.filter]
    · by_cases hp : p a = true
      · simp [hp, ha, hl]
      · simp [hp, ha, hl]

theorem stateOf_filter {db : Database} (h : db.Keyed) (p : SubscriptionRow → Bool) (t : String) :
    let db' : Database := { db with subscriptions := db.subscriptions.filter p }
    db'.stateOf t = db.stateOf t ∨
      db'.stateOf t = .unsubscribed ∧ ∃ row, db.subscription? t = some row ∧ p row = false := by
  intro db'
  have hrow : db'.subscription? t = (db.subscription? t).filter p :=
    find?_filter_of_nodup SubscriptionRow.topic p h t
  unfold stateOf
  rw [hrow]
  cases hs : db.subscription? t with
  | none => exact .inl rfl
  | some row =>
    by_cases hp : p row = true
    · simp [Option.filter, hp]
    · simp [Option.filter, hp]

end Database

/-! ## Calls that return -/

def Call.isPurge : Call → Bool
  | .purge _ | .purgeDeprecated => true
  | _ => false

/-- What a call does to the states of all topics. -/
structure Call.Steps (call : Call) (db db' : Database) : Prop where
  listed : call.isPurge = false → ∀ topic,
    db'.stateOf topic = db.stateOf topic ∨ (db.stateOf topic).canBecome (db'.stateOf topic) = true
  purged : call.isPurge = true → ∀ topic,
    db'.stateOf topic = db.stateOf topic ∨ db'.stateOf topic = .unsubscribed
  swept : call = .purgeDeprecated → ∀ topic,
    db'.stateOf topic = db.stateOf topic ∨ db.stateOf topic = .deprecated
  single : call ≠ .purgeDeprecated →
    ∃ topic, ∀ t, t ≠ topic → db'.stateOf t = db.stateOf t

section
variable {db db' : Database} {call : Call}

theorem Call.Steps.refl (call : Call) (db : Database) : call.Steps db db :=
  ⟨fun _ _ => .inl rfl, fun _ _ => .inl rfl, fun _ _ => .inl rfl, fun _ => ⟨"", fun _ _ => rfl⟩⟩

theorem Call.isPurge_eq_false (h : call.spared? = none) : call.isPurge = false := by
  cases call <;> first | rfl | cases h

theorem Call.Steps.of_move (hp : call.isPurge = false) (topic : String) (next : State)
    (hn : next = db.stateOf topic ∨ (db.stateOf topic).canBecome next = true)
    (hs : ∀ t, db'.stateOf t = if t = topic then next else db.stateOf t) : call.Steps db db' := by
  refine ⟨fun _ t => ?_, fun hq => ?_, fun hq => ?_, fun _ => ⟨topic, fun t ht => ?_⟩⟩
  · rw [hs]
    by_cases ht : t = topic
    · simpa [ht] using hn
    · simp [ht]
  · rw [hp] at hq
    cases hq
  · rw [hq] at hp
    cases hp
  · rw [hs, if_neg ht]

theorem State.canBecome_deprecated (s : State) : s.canBecome .deprecated = true := by
  cases s <;> decide

theorem Call.Steps.of_purge (hk : db.Keyed) {p : SubscriptionRow → Bool}
    (hp : call.spared? = some p) (hd : db' = { db with subscriptions := db.subscriptions.filter p }) :
    call.Steps db db' := by
  have hstate := Database.stateOf_filter hk p
  rw [← hd] at hstate
  have hpurged : ∀ topic, db'.stateOf topic = db.stateOf topic ∨ db'.stateOf topic = .unsubscribed :=
    fun topic => (hstate topic).imp_right And.left
  cases call with
  | purge topic =>
    cases hp
    constructor
    · intro hn
      cases hn
    · exact fun _ => hpurged
    · intro hq
      cases hq
    · refine fun _ => ⟨topic, fun t ht => ?_⟩
      rcases hstate t with hs | ⟨-, row, hrow, hdrop⟩
      · exact hs
      · have hrt : row.topic = t := by simpa using List.find?_some hrow
        simp [hrt, ht] at hdrop
  | purgeDeprecated =>
    cases hp
    constructor
    · intro hn
      cases hn
    · exact fun _ => hpurged
    · intro _ t
      rcases hstate t with hs | ⟨-, row, hrow, hdrop⟩
      · exact .inl hs
      · right
        have hcode : row.code = State.deprecated.code := by simpa using hdrop
        unfold Database.stateOf
        rw [hrow]
        simp [hcode, State.ofCode?_code]
    · intro hq
      exact absurd rfl hq
  | _ => cases hp

theorem Call.steps_of_returns (h : db.Reached) {reply : Reply}
    (hr : call.operation.Returns db reply db') : call.Steps db db' := by
  cases moved_of_returns h.wellFormed hr with
  | nowhere hs hn hq ha =>
    have hstate := Database.stateOf_congr hs
    exact ⟨fun _ t => .inl (hstate t), fun _ t => .inl (hstate t), fun _ t => .inl (hstate t),
      fun _ => ⟨"", fun t _ => hstate t⟩⟩
  | requested topic requestId next hq hp hstep hreg hd =>
    subst hd
    have hnp : call.isPurge = false := by cases call <;> first | rfl | cases hq
    exact .of_move hnp topic next (.inr hstep) (Database.stateOf_putSubscription db topic next _)
  | resolved topic resolution accepted hres hs ht hp hq ha =>
    have hstate : ∀ t, db'.stateOf t =
        if t = topic then resolution.outcome accepted else db.stateOf t := fun t =>
      (Database.stateOf_congr hs t).trans (Database.stateOf_resolve hres _ t)
    exact .of_move (isPurge_eq_false hp) topic _ (.inr (State.canBecome_outcome hres accepted)) hstate
  | withdrawn topic hd hp hq ha =>
    subst hd
    exact .of_move (isPurge_eq_false hp) topic .deprecated (.inr (State.canBecome_deprecated _))
      (Database.stateOf_putSubscription db topic .deprecated _)
  | dropped p hp hd hq ha => exact .of_purge h.keyed hp hd

theorem Call.steps_of_outcome (h : db.Reached) {result : Except Failure Reply}
    (ho : Call.Outcome db call result db') : call.Steps db db' := by
  cases ho with
  | fails failure => exact .refl call db
  | returns hr => exact steps_of_returns h hr

end

/-! ## Runs -/

namespace World

/-- The states of a topic that are committed in the course of a run, the first one included. -/
def statesOf (w : World) (i : Nat) (topic : String) (turns : List Turn) : List State :=
  (w.committed i).stateOf topic :: (w.history i turns).map fun m => m.after.stateOf topic

section
variable {w : World} {i : Nat} {db : Database}

theorem history_outcomes (hi : w.Idle i) (hd : w.committed? i = some db) (h : db.Reached)
    (turns : List Turn) :
    ∀ m ∈ w.history i turns, m.before.Reached ∧ Call.Outcome m.before m.call m.result m.after := by
  induction turns generalizing w db with
  | nil =>
    intro m hm
    cases hm
  | cons t turns ih =>
    obtain ⟨hi', db', hd', ho⟩ := turn_step hi hd t
    intro m hm
    rcases List.mem_cons.mp hm with rfl | hm
    · rw [committed_of_committed? hd, committed_of_committed? hd']
      exact ⟨h, ho⟩
    · exact ih hi' hd' (h.outcome ho) m hm

theorem isChain_statesOf {R : State → State → Prop} {topic : String} {turns : List Turn}
    (hR : ∀ m ∈ w.history i turns, R (m.before.stateOf topic) (m.after.stateOf topic)) :
    (w.statesOf i topic turns).IsChain R := by
  induction turns generalizing w with
  | nil => exact .singleton _
  | cons t turns ih =>
    have hfirst := hR _ List.mem_cons_self
    have hrest := ih fun m hm => hR m (List.mem_cons_of_mem _ hm)
    exact .cons_cons hfirst hrest

end

/-! ## Calls on a calm store -/

section
variable {w : World} {i : Nat} {db : Database} (hc : w.Calm i) (hd : w.committed? i = some db)

include hc hd

theorem answers_of_calm {call : Call} {reply : Reply} :
    (w.call i call.operation).2 = .ok reply ↔ ∃ db', call.operation.Returns db reply db' := by
  rw [(call_of_calm hc hd call.operation).1]
  constructor
  · intro hok
    unfold Operation.alone at hok
    cases hr : call.operation.refusal with
    | some failure =>
      rw [hr] at hok
      cases hok
    | none =>
      rw [hr] at hok
      cases hb : call.operation.body.eval db with
      | mk result db' =>
        rw [hb] at hok
        cases result with
        | error failure =>
          have hf := call.recover_fails (.inr ⟨db, congrArg Prod.fst hb⟩)
          cases hf.symm.trans hok
        | ok last => exact ⟨db', Operation.returns_iff.mpr ⟨hr, last, hb, hok⟩⟩
  · rintro ⟨db', hr⟩
    rw [hr.alone]

theorem requestSubscribe_ok (h : db.WellFormed) {topic requestId : String} (hid : requestId ≠ "")
    (hreg : (db.topic? topic).isSome) :
    (w.call i (Call.requestSubscribe topic requestId).operation).2 = .ok .done ↔
      (db.stateOf topic).canBecome .subscribePending = true := by
  rw [answers_of_calm hc hd]
  constructor
  · rintro ⟨db', hr⟩
    obtain ⟨_, ho, -⟩ := Operation.returns_map.mp hr
    exact ((Negotiation.requestSubscribe_returns h).mp ho).2.2.1
  · intro hstep
    have ho := (Negotiation.requestSubscribe_returns h).mpr ⟨hid, hreg, hstep, rfl⟩
    exact ⟨_, Operation.returns_map.mpr ⟨(), ho, rfl⟩⟩

theorem requestUnsubscribe_ok (h : db.WellFormed) {topic requestId : String}
    (hid : requestId ≠ "") :
    (w.call i (Call.requestUnsubscribe topic requestId).operation).2 = .ok .done ↔
      (db.stateOf topic).canBecome .unsubscribePending = true := by
  rw [answers_of_calm hc hd]
  constructor
  · rintro ⟨db', hr⟩
    obtain ⟨_, ho, -⟩ := Operation.returns_map.mp hr
    exact ((Negotiation.requestUnsubscribe_returns h).mp ho).2.1
  · intro hstep
    have ho := (Negotiation.requestUnsubscribe_returns h).mpr ⟨hid, hstep, rfl⟩
    exact ⟨_, Operation.returns_map.mpr ⟨(), ho, rfl⟩⟩

theorem resolve_ok (h : db.WellFormed) {call : Call} {topic : String} {accepted : Bool}
    (ho : call.operation = (Negotiation.resolve topic accepted).map .state) :
    (∃ state, (w.call i call.operation).2 = .ok (.state state)) ↔
      (db.stateOf topic).isPending = true := by
  rw [← State.isSome_resolution?]
  constructor
  · rintro ⟨state, hok⟩
    obtain ⟨db', hr⟩ := (answers_of_calm hc hd).mp hok
    rw [ho] at hr
    obtain ⟨_, hr, -⟩ := Operation.returns_map.mp hr
    obtain ⟨resolution, hres, -⟩ := (Negotiation.resolve_returns h).mp hr
    simp [hres]
  · intro hs
    obtain ⟨resolution, hres⟩ := Option.isSome_iff_exists.mp hs
    have hr : (Negotiation.resolve topic accepted).Returns db (resolution.outcome accepted) _ :=
      (Negotiation.resolve_returns h).mpr ⟨resolution, hres, rfl, rfl⟩
    refine ⟨resolution.outcome accepted, (answers_of_calm hc hd).mpr ?_⟩
    rw [ho]
    exact ⟨_, Operation.returns_map.mpr ⟨_, hr, rfl⟩⟩

theorem retire_ok (h : db.WellFormed) (topic : String) :
    (w.call i (Call.retire topic).operation).2 = .ok .done :=
  (answers_of_calm hc hd).mpr
    ⟨_, Operation.returns_map.mpr ⟨(), (Negotiation.retire_returns h).mpr rfl, rfl⟩⟩

end

/-- A call that fails because of a refused step names the present state of the topic and a step
that is not listed, and it leaves everything as it was. -/
theorem invalidTransition_truthful {w : World} {i : Nat} (hi : w.Idle i) {db : Database}
    (hd : w.committed? i = some db) (h : db.WellFormed) {call : Call} {topic : String}
    {current attempted : State}
    (hf : (w.call i call.operation).2 = .error (.invalidTransition topic current attempted)) :
    current = db.stateOf topic ∧ current.canBecome attempted = false ∧
      (w.call i call.operation).1.committed? i = some db := by
  obtain ⟨d, hh, he⟩ := hi
  rw [committed?_of_handle hh, Option.some.injEq] at hd
  obtain ⟨hr, hafter⟩ := handle_call hh call.operation
  have hp : d.perform call.operation = d.connection.transact call.operation := by
    simp [Handle.perform, he]
  rw [hp] at hr hafter
  rw [hr] at hf
  obtain ⟨ht, hcom⟩ := Connection.truthful_transact (hd ▸ h) call hf
  rw [committed?_of_handle hafter, hcom, ← hd]
  exact ⟨ht.1, ht.2, rfl⟩

/-! ## The table of steps -/

/-- Without purges, every topic goes through the states of a run by listed steps. Purges only make
topics unsubscribed. One call moves one topic. The operations on states succeed exactly where their
step is listed, and what a refused step is told to be is true. -/
theorem states_follow_table {w : World} {i : Nat} (hi : w.Idle i) {db : Database}
    (hd : w.committed? i = some db) (h : db.Reached) (turns : List Turn) :
    ((∀ t ∈ turns, t.call.isPurge = false) → ∀ topic,
      (w.statesOf i topic turns).IsChain fun s s' => s' = s ∨ s.canBecome s' = true) ∧
    (∀ m ∈ w.history i turns, m.call.isPurge = true → ∀ topic,
      m.after.stateOf topic = m.before.stateOf topic ∨
        m.after.stateOf topic = .unsubscribed ∧
          (m.call = .purgeDeprecated → m.before.stateOf topic = .deprecated)) ∧
    (∀ m ∈ w.history i turns, m.call ≠ .purgeDeprecated →
      ∃ topic, ∀ t, t ≠ topic → m.after.stateOf t = m.before.stateOf t) ∧
    (w.Calm i → ∀ topic requestId,
      (requestId ≠ "" → (db.topic? topic).isSome →
        ((w.call i (Call.requestSubscribe topic requestId).operation).2 = .ok .done ↔
          (db.stateOf topic).canBecome .subscribePending = true)) ∧
      (requestId ≠ "" →
        ((w.call i (Call.requestUnsubscribe topic requestId).operation).2 = .ok .done ↔
          (db.stateOf topic).canBecome .unsubscribePending = true)) ∧
      ((∃ state, (w.call i (Call.confirm topic).operation).2 = .ok (.state state)) ↔
        (db.stateOf topic).isPending = true) ∧
      ((∃ state, (w.call i (Call.deny topic).operation).2 = .ok (.state state)) ↔
        (db.stateOf topic).isPending = true) ∧
      (w.call i (Call.retire topic).operation).2 = .ok .done) ∧
    ∀ (call : Call) (topic : String) (current attempted : State),
      (w.call i call.operation).2 = .error (.invalidTransition topic current attempted) →
        current = db.stateOf topic ∧ current.canBecome attempted = false ∧
          (w.call i call.operation).1.committed? i = some db := by
  have hmoments := history_outcomes hi hd h turns
  have hsteps : ∀ m ∈ w.history i turns, m.call.Steps m.before m.after := by
    intro m hm
    obtain ⟨hb, ho⟩ := hmoments m hm
    exact Call.steps_of_outcome hb ho
  refine ⟨fun hn topic => ?_, fun m hm hp topic => ?_, fun m hm => (hsteps m hm).single,
    fun hc topic requestId => ?_, fun call topic current attempted hf => ?_⟩
  · apply isChain_statesOf
    intro m hm
    have hcall : m.call ∈ turns.map (·.call) := by
      rw [← history_map_call w i turns]
      exact List.mem_map_of_mem hm
    obtain ⟨t, ht, he⟩ := List.mem_map.mp hcall
    exact (hsteps m hm).listed (he ▸ hn t ht) topic
  · by_cases hs : m.after.stateOf topic = m.before.stateOf topic
    · exact .inl hs
    · right
      refine ⟨((hsteps m hm).purged hp topic).resolve_left hs, fun he => ?_⟩
      exact ((hsteps m hm).swept he topic).resolve_left hs
  · have hw := h.wellFormed
    exact ⟨requestSubscribe_ok hc hd hw, requestUnsubscribe_ok hc hd hw, resolve_ok hc hd hw rfl,
      resolve_ok hc hd hw rfl, retire_ok hc hd hw topic⟩
  · exact invalidTransition_truthful hi hd h.wellFormed hf

/-- A subscription that is asked for, granted, and asked for once more. -/
def askedAgain : List Turn :=
  [⟨[], .registerTopic "t" "p" none (.plain true)⟩, ⟨[], .requestSubscribe "t" "r"⟩,
    ⟨[⟨.commit, 0, 1⟩], .confirm "t"⟩, ⟨[], .confirm "t"⟩, ⟨[], .requestSubscribe "t" "r"⟩]

theorem states_follow_table_askedAgain :
    (lone .fresh []).statesOf 0 "t" askedAgain =
        [.unsubscribed, .unsubscribed, .subscribePending, .subscribePending, .subscribed,
          .subscribed] ∧
      ((lone .fresh []).statesOf 0 "t" askedAgain).IsChain
        (fun s s' => s' = s ∨ s.canBecome s' = true) ∧
      ((lone .fresh []).call 0 (Call.retire "t").operation).2 = .ok .done := by
  have hn : ∀ t ∈ askedAgain, t.call.isPurge = false := by
    simp [askedAgain, Call.isPurge]
  obtain ⟨hchain, -, -, hcalm, -⟩ :=
    states_follow_table (lone_calm .fresh).idle rfl .fresh askedAgain
  obtain ⟨-, -, -, -, hretire⟩ := hcalm (lone_calm .fresh) "t" "r"
  exact ⟨by decide +kernel, hchain hn "t", hretire⟩

end World

end PubSub
