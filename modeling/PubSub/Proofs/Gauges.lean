import PubSub.Administration
import PubSub.Proofs.Ledger
import PubSub.Proofs.Listings

/-!
# Gauges

A refresh reads counts one after another, each in a transaction of its own, and sets a gauge
to each. Where it comes to its end, the gauges show what the store holds, whatever was
refused on the way (`refresh_ok`). Lists and counts of subscriptions, and so the gauges, say
what one learns by asking for every topic (`listings_agree`).
-/

namespace PubSub

/-! ## Gauges by name -/

namespace Metrics

theorem setIn_eq_put (name : String) (value : Sample) (gauges : List (String × Sample)) :
    setIn name value gauges = put name value gauges := by
  induction gauges with
  | nil => rfl
  | cons entry rest ih => simp only [setIn, put, ih]

theorem get_set (m : Metrics) (name : String) (value : Sample) (other : String) :
    (m.set name value).get other = if other = name then value else m.get other := by
  unfold get set
  simp only [setIn_eq_put, lookup_put, fullName_injective]
  by_cases h : other = name
  · simp [h]
  · simp [h]

def showing (m : Metrics) (counts : List (String × Nat)) : Metrics :=
  counts.foldl (fun m c => m.set c.1 (.whole c.2)) m

end Metrics

/-! ## Operations that only read -/

/-- An operation that writes nothing, counts nothing and answers a failure with a failure. -/
structure Operation.Plain {α : Type} (op : Operation α) : Prop where
  reads : op.Reads
  quiet : op.Quiet
  fails : ∀ failure, ∃ cause, (op.recover failure).result = .error cause

theorem Operation.Plain.map {α β : Type} {op : Operation α} (h : op.Plain) (f : α → β) :
    (op.map f).Plain := by
  refine ⟨h.reads.map f, h.quiet.map f, fun failure => ?_⟩
  obtain ⟨cause, hc⟩ := h.fails failure
  exact ⟨cause, by simp [Operation.map, Conclusion.map, hc, Except.map]⟩

namespace World

section
variable {α : Type} {w : World} {i : Nat} {s : Store} (hs : w.stores[i]? = some s)
  {op : Operation α} (hp : op.Plain)

include hs hp

theorem store_plain (he : s.entered = false) :
    ∃ link, (w.call i op).1.stores[i]? = some { s with link := link } := by
  obtain ⟨path, link, openings, entered, metrics⟩ := s
  obtain rfl : entered = false := he
  unfold call
  rw [hs]
  cases link with
  | none =>
    dsimp only [Bool.false_eq_true, if_false, callUnlinked]
    cases hr : op.refusal with
    | some failure => exact ⟨none, hs⟩
    | none =>
      refine ⟨none, (store_takeNotes hs _).trans ?_⟩
      rw [hp.quiet.recover]
      rfl
  | some link =>
    dsimp only [Bool.false_eq_true, if_false]
    obtain ⟨last, hc, -, hn⟩ := (w.connection i link).transact_concludes hp.quiet.body.1
    obtain ⟨link', hs'⟩ := store_putBack hs link ((w.connection i link).transact op).connection
    have hafter := store_takeNotes hs' ((w.connection i link).transact op).notes
    rw [hn, hp.quiet.tally_of_concludes hc] at hafter
    exact ⟨some link', hafter⟩

end

section
variable {α : Type} {w : World} {i : Nat} {db : Database} (hi : w.Idle i)
  (hd : w.committed? i = some db) {op : Operation α} (hp : op.Plain)

include hi hd hp

theorem plain_call {a : α} (ha : (w.call i op).2 = .ok a) :
    op.Returns db a db ∧ (w.call i op).1.Idle i ∧ (w.call i op).1.committed? i = some db := by
  obtain ⟨h, hh, he⟩ := hi
  rw [committed?_of_handle hh, Option.some.injEq] at hd
  obtain ⟨hr, hh'⟩ := handle_call hh op
  have ht : h.perform op = h.connection.transact op := by simp [Handle.perform, he]
  rw [hr, ht] at ha
  rw [ht] at hh'
  have hnone : op.refusal = none := by
    cases hr : op.refusal with
    | none => rfl
    | some failure => simp [Connection.transact, hr] at ha
  rcases h.connection.transact_cases hnone with ⟨failure, -, hf, -⟩ | ⟨last, db', hb, hl, hc, -⟩
  · obtain ⟨cause, hcause⟩ := hp.fails failure.leaving
    rw [hf, hcause] at ha
    cases ha
  · rw [hd] at hb
    obtain rfl : db' = db := by simpa [hb] using hp.reads.unchanged db
    refine ⟨?_, ⟨_, hh', he⟩, (committed?_of_handle hh').trans (by rw [hc])⟩
    exact Operation.returns_iff.mpr ⟨hnone, last, hb, hl.symm.trans ha⟩

end

/-! ## A refresh -/

theorem store_setMetrics {w : World} {i : Nat} {s : Store} (hs : w.stores[i]? = some s)
    (f : Metrics → Metrics) :
    (w.setMetrics i f).stores[i]? = some { s with metrics := f s.metrics } := by
  unfold setMetrics
  simp only [hs]
  rw [getElem?_setStore w i hs, if_pos rfl]

theorem handle_setMetrics (w : World) (i : Nat) (f : Metrics → Metrics) :
    (w.setMetrics i f).handle? i = w.handle? i := by
  unfold setMetrics
  cases hs : w.stores[i]? with
  | none => rfl
  | some s =>
    simp only
    rw [handle_setStore hs { s with metrics := f s.metrics } rfl rfl, if_pos rfl]
    cases hh : w.handle? i with
    | none => rfl
    | some h =>
      obtain ⟨s₀, link, db, hs₀, -, -, -, rfl⟩ := handle?_eq_some.mp hh
      rw [hs, Option.some.injEq] at hs₀
      subst hs₀
      rfl

theorem store_of_idle {w : World} {i : Nat} (hi : w.Idle i) :
    ∃ s, w.stores[i]? = some s ∧ s.entered = false := by
  obtain ⟨h, hh, he⟩ := hi
  obtain ⟨s, link, _, hs, -, -, -, rfl⟩ := handle?_eq_some.mp hh
  exact ⟨s, hs, he⟩

theorem refreshFrom_ok {i : Nat} {db : Database} {counted : List (String × Operation Nat)}
    (hp : ∀ p ∈ counted, p.2.Plain) {w : World} (hi : w.Idle i) (hd : w.committed? i = some db)
    {s : Store} (hs : w.stores[i]? = some s) {counts : List (String × Nat)}
    (hr : (w.refreshFrom i counted).2 = .ok counts) :
    List.Forall₂ (fun p c => c.1 = p.1 ∧ p.2.Returns db c.2 db) counted counts ∧
      (w.refreshFrom i counted).1.Idle i ∧
      (w.refreshFrom i counted).1.committed? i = some db ∧
      ∃ link, (w.refreshFrom i counted).1.stores[i]? =
        some { s with link := link, metrics := s.metrics.showing counts } := by
  induction counted generalizing w s counts with
  | nil =>
    cases hr
    exact ⟨.nil, hi, hd, s.link, hs⟩
  | cons p rest ih =>
    obtain ⟨name, op⟩ := p
    have hop := hp (name, op) List.mem_cons_self
    obtain ⟨s₀, hs₀, he⟩ := store_of_idle hi
    rw [hs, Option.some.injEq] at hs₀
    obtain ⟨link, hs₁⟩ := store_plain hs hop (hs₀ ▸ he)
    simp only [refreshFrom] at hr ⊢
    cases hres : w.call i op with
    | mk w₁ result =>
      rw [hres] at hs₁
      cases result with
      | error failure => simp [hres] at hr
      | ok n =>
        obtain ⟨hret, ⟨h, hh, he⟩, hd₁⟩ := plain_call hi hd hop (a := n) (by rw [hres])
        rw [hres] at hh hd₁
        simp only [hres] at hr ⊢
        -- Setting a gauge touches neither the connection nor what is committed.
        have hh₂ := (handle_setMetrics w₁ i (·.set name (.whole n))).trans hh
        have hs₂ := store_setMetrics hs₁ (·.set name (.whole n))
        have hd₂ : (w₁.setMetrics i (·.set name (.whole n))).committed? i = some db := by
          rw [committed?_of_handle hh₂, ← committed?_of_handle hh, hd₁]
        cases hrest : ((w₁.setMetrics i (·.set name (.whole n))).refreshFrom i rest).2 with
        | error failure => simp [hrest, Except.map] at hr
        | ok more =>
          obtain ⟨hall, hi', hd', hs'⟩ :=
            ih (fun q hq => hp q (List.mem_cons_of_mem _ hq)) ⟨h, hh₂, he⟩ hd₂ hs₂ hrest
          rw [hrest] at hr
          cases hr
          exact ⟨.cons ⟨rfl, hret⟩ hall, hi', hd', hs'⟩

end World

/-! ## The counts of a database -/

def Database.counts (db : Database) : List (String × Nat) :=
  [("topics", db.topics.length), ("subscribers", db.members.length),
    ("subscriptions_deprecated", (db.topicsIn [.deprecated]).length),
    ("subscriptions_pending", (db.topicsIn State.pending).length),
    ("subscriptions_active", (db.topicsIn State.effective).length)]

namespace Operation

variable {α β : Type} {op : Operation α} {table : Table} {view : Database → β} {f : β → Conclusion α}

theorem plain_query (hb : op.body = (Script.see table view).bind fun b => .done (f b))
    (hn : ∀ b, tally (f b).notes = []) (hf : ∀ failure, op.recover failure = .refuse failure) :
    op.Plain := by
  refine ⟨?_, ⟨?_, fun failure => by rw [hf]; rfl⟩, fun failure => ⟨failure, by rw [hf]; rfl⟩⟩
  · unfold Reads
    rw [hb]
    exact fun _ => trivial
  · rw [hb]
    exact (Operation.quiet_query table view hn).body

end Operation

theorem gauges_plain : ∀ p ∈ gauges, p.2.Plain := by
  have hpending : Negotiation.pending.Plain := Operation.plain_query rfl (fun _ => rfl) fun _ => rfl
  have heffective : Negotiation.effective.Plain :=
    Operation.plain_query rfl (fun _ => rfl) fun _ => rfl
  intro p hp
  simp only [gauges, List.mem_cons, List.not_mem_nil, or_false] at hp
  rcases hp with rfl | rfl | rfl | rfl | rfl
  · exact Operation.plain_query rfl (fun _ => rfl) fun _ => rfl
  · exact Operation.plain_query rfl (fun _ => rfl) fun _ => rfl
  · exact Operation.plain_query rfl (fun _ => rfl) fun _ => rfl
  · exact hpending.map _
  · exact heffective.map _

theorem length_of_mapM {α β : Type} {f : α → Except Failure β} {l : List α} {bs : List β}
    (h : l.mapM f = .ok bs) : bs.length = l.length := by
  induction l generalizing bs with
  | nil =>
    cases h
    rfl
  | cons a l ih =>
    rw [List.mapM_cons] at h
    cases ha : f a with
    | error failure =>
      rw [ha] at h
      cases h
    | ok b =>
      cases hl : l.mapM f with
      | error failure =>
        rw [ha, hl] at h
        cases h
      | ok more =>
        rw [ha, hl] at h
        cases h
        exact congrArg (· + 1) (ih hl)

theorem counts_of_returns {db : Database} {counts : List (String × Nat)}
    (h : List.Forall₂ (fun p c => c.1 = p.1 ∧ p.2.Returns db c.2 db) gauges counts) :
    counts = db.counts := by
  have hname : ∀ {name : String} {op : Operation Nat} {c : String × Nat} {n : Nat},
      c.1 = (name, op).1 ∧ (name, op).2.Returns db c.2 db →
      (∀ m, op.Returns db m db → m = n) → c = (name, n) := by
    rintro name op ⟨other, m⟩ n ⟨rfl, hm⟩ hn
    exact congrArg _ (hn m hm)
  have htopics : ∀ m, Directory.count.Returns db m db → m = db.topics.length := fun m hm =>
    (Directory.count_returns.mp hm).2.1.symm
  have hmembers : ∀ m, Membership.count.Returns db m db → m = db.members.length := fun m hm =>
    (Membership.count_returns.mp hm).2.1.symm
  have hdeprecated : ∀ m, Negotiation.countDeprecated.Returns db m db →
      m = (db.topicsIn [.deprecated]).length := fun m hm =>
    (Negotiation.countDeprecated_returns.mp hm).2.1.symm
  have hpending : ∀ m, (Negotiation.pending.map List.length).Returns db m db →
      m = (db.topicsIn State.pending).length := by
    intro m hm
    obtain ⟨records, hr, rfl⟩ := Operation.returns_map.mp hm
    rw [length_of_mapM (Negotiation.pending_returns.mp hr).2.1, Database.topicsIn, List.length_map]
  have heffective : ∀ m, (Negotiation.effective.map List.length).Returns db m db →
      m = (db.topicsIn State.effective).length := by
    intro m hm
    obtain ⟨topics, hr, rfl⟩ := Operation.returns_map.mp hm
    exact congrArg List.length (Negotiation.effective_returns.mp hr).2.1.symm
  rcases h with _ | ⟨h₁, _ | ⟨h₂, _ | ⟨h₃, _ | ⟨h₄, _ | ⟨h₅, _ | _⟩⟩⟩⟩⟩
  rw [hname h₁ htopics, hname h₂ hmembers, hname h₃ hdeprecated, hname h₄ hpending,
    hname h₅ heffective]
  rfl

theorem gauges_return {db : Database} (h : db.hasAll = true) :
    ∀ p ∈ gauges, ∃ n, p.2.Returns db n db := by
  have hhas : ∀ table ∈ Database.allTables, db.has table = true := List.all_eq_true.mp h
  have hsubscriptions := hhas .subscriptions (by decide)
  intro p hp
  simp only [gauges, List.mem_cons, List.not_mem_nil, or_false] at hp
  rcases hp with rfl | rfl | rfl | rfl | rfl
  · exact ⟨_, Directory.count_returns.mpr ⟨hhas .topics (by decide), rfl, rfl⟩⟩
  · exact ⟨_, Membership.count_returns.mpr ⟨hhas .subscribers (by decide), rfl, rfl⟩⟩
  · exact ⟨_, Negotiation.countDeprecated_returns.mpr ⟨hsubscriptions, rfl, rfl⟩⟩
  · exact ⟨_, Operation.returns_map.mpr ⟨_, Negotiation.pending_of_has hsubscriptions, rfl⟩⟩
  · exact ⟨_, Operation.returns_map.mpr
      ⟨_, Negotiation.effective_returns.mpr ⟨hsubscriptions, rfl, rfl⟩, rfl⟩⟩

namespace World

theorem refresh_ok {w : World} {i : Nat} {db : Database} (hi : w.Idle i)
    (hd : w.committed? i = some db) {s : Store} (hs : w.stores[i]? = some s)
    {counts : List (String × Nat)} (hr : (w.refresh i).2 = .ok counts) :
    counts = db.counts ∧ ∃ link, (w.refresh i).1.stores[i]? =
      some { s with link := link, metrics := s.metrics.showing db.counts } := by
  obtain ⟨hall, -, -, hs'⟩ := refreshFrom_ok gauges_plain hi hd hs hr
  obtain rfl := counts_of_returns hall
  exact ⟨rfl, hs'⟩

section
variable {w : World} {i : Nat} {db : Database} (hc : w.Calm i) (hd : w.committed? i = some db)

include hc hd

theorem calm_of_returns {α : Type} {op : Operation α} {a : α} {db' : Database}
    (hr : op.Returns db a db') : (w.call i op).2 = .ok a ∧ (w.call i op).1.Calm i ∧
      (w.call i op).1.committed? i = some db' := by
  obtain ⟨hres, hcom⟩ := call_of_calm hc hd op
  rw [hr.alone] at hres hcom
  exact ⟨hres, calm_operation hc op, hcom⟩

theorem refreshFrom_of_calm {counted : List (String × Operation Nat)}
    (hret : ∀ p ∈ counted, ∃ n, p.2.Returns db n db) :
    ∃ counts, (w.refreshFrom i counted).2 = .ok counts := by
  induction counted generalizing w with
  | nil => exact ⟨[], rfl⟩
  | cons p rest ih =>
    obtain ⟨name, op⟩ := p
    obtain ⟨n, hn⟩ := hret (name, op) List.mem_cons_self
    obtain ⟨hres, hc₁, hd₁⟩ := calm_of_returns hc hd hn
    unfold refreshFrom
    cases hcall : w.call i op with
    | mk w₁ result =>
      rw [hcall] at hres hc₁ hd₁
      obtain rfl : result = .ok n := hres
      have hh₁ := handle_setMetrics w₁ i (·.set name (.whole n))
      obtain ⟨counts, hcounts⟩ := ih (w := w₁.setMetrics i (·.set name (.whole n)))
        (by unfold Calm at hc₁ ⊢; rwa [hh₁]) (by unfold committed? at hd₁ ⊢; rwa [hh₁])
        fun q hq => hret q (List.mem_cons_of_mem _ hq)
      exact ⟨(name, n) :: counts, by simp only [hcounts, Except.map]⟩

end

/-! ## Lists and single questions -/

def ask (w : World) (i : Nat) (call : Call) : Except Failure Reply := (w.call i call.operation).2

theorem ask_of_returns {w : World} {i : Nat} (hc : w.Calm i) {db db' : Database}
    (hd : w.committed? i = some db) {call : Call} {α : Type} {op : Operation α} {f : α → Reply}
    (hcall : call.operation = op.map f) {a : α} (hr : op.Returns db a db') :
    w.ask i call = .ok (f a) ∧ (w.call i call.operation).1.Calm i ∧
      (w.call i call.operation).1.committed? i = some db' := by
  unfold ask
  rw [hcall]
  exact calm_of_returns hc hd (Operation.returns_map.mpr ⟨a, hr, rfl⟩)

section
variable {w : World} {i : Nat} {db : Database} (hc : w.Calm i) (hd : w.committed? i = some db)

include hc hd

section
variable (h : db.WellFormed)

include h

theorem ask_currentState (t : String) : w.ask i (.currentState t) = .ok (.state (db.stateOf t)) :=
  (ask_of_returns hc hd rfl (Negotiation.currentState_returns h t)).1

theorem ask_getSubscription (t : String) :
    w.ask i (.getSubscription t) = .ok (.subscription (db.record? t)) :=
  (ask_of_returns hc hd rfl (Negotiation.get_returns h t)).1

theorem ask_listEffective : w.ask i .listEffective = .ok (.names (db.topicsIn State.effective)) :=
  (ask_of_returns hc hd rfl (Negotiation.effective_returns.mpr ⟨h.has _, rfl, rfl⟩)).1

theorem ask_listPending : w.ask i .listPending =
    .ok (.subscriptions ((db.rowsIn State.pending).map Database.readRow)) :=
  (ask_of_returns hc hd rfl (Negotiation.pending_of_has (h.has _))).1

theorem ask_countDeprecated :
    w.ask i .countDeprecated = .ok (.number (db.topicsIn [.deprecated]).length) :=
  (ask_of_returns hc hd (f := countReply) rfl
    (Negotiation.countDeprecated_returns.mpr ⟨h.has _, rfl, rfl⟩)).1

end

theorem mem_topicsIn_iff_ask (h : db.WellFormed) (hk : db.Keyed) {states : List State}
    (hu : .unsubscribed ∉ states) (t : String) : t ∈ db.topicsIn states ↔
      ∃ s, w.ask i (.currentState t) = .ok (.state s) ∧ s ∈ states := by
  rw [Database.mem_topicsIn hk h hu, ask_currentState hc hd h]
  simp

omit hc hd in
theorem get_of_refresh {v : World} {k : Nat} (hi : v.Idle k) (hv : v.committed? k = some db)
    {counts : List (String × Nat)} (hr : (v.refresh k).2 = .ok counts) :
    ∃ s, (v.refresh k).1.stores[k]? = some s ∧ ∀ c ∈ db.counts, s.metrics.get c.1 = .whole c.2 := by
  obtain ⟨s, hs, -⟩ := store_of_idle hi
  obtain ⟨-, link, hs'⟩ := refresh_ok hi hv hs hr
  refine ⟨_, hs', ?_⟩
  simp [Database.counts, Metrics.showing, Metrics.get_set]

end

/-- On a store where nothing stands in the way, the lists and counts of subscriptions say what one
learns by asking for every topic, in order; a purge takes out the topics that are counted as deprecated
and leaves the rest; and a refresh of any store of this database that comes to its end shows the
numbers that are answered here. -/
theorem listings_agree {w : World} {i : Nat} (hc : w.Calm i) {db : Database}
    (hd : w.committed? i = some db) (h : db.Reached) :
    let purged := (w.call i Call.purgeDeprecated.operation).1
    ∃ (active : List String) (pending : List SubscriptionRecord) (deprecated : List String)
      (topics members : Nat),
      (w.ask i .listEffective = .ok (.names active) ∧ active.Pairwise (· < ·) ∧
        ∀ t, t ∈ active ↔
          ∃ s, w.ask i (.currentState t) = .ok (.state s) ∧ s.isEffective = true) ∧
      (w.ask i .listPending = .ok (.subscriptions pending) ∧
        pending.Pairwise (fun r r' => r.topic < r'.topic) ∧
        (∀ r ∈ pending, w.ask i (.getSubscription r.topic) = .ok (.subscription (some r))) ∧
        ∀ t, t ∈ pending.map (·.topic) ↔
          ∃ s, w.ask i (.currentState t) = .ok (.state s) ∧ s.isPending = true) ∧
      (∀ a b : String, a < b ↔ Text.toBytes a < Text.toBytes b) ∧
      (deprecated.Nodup ∧
        (∀ t, t ∈ deprecated ↔ w.ask i (.currentState t) = .ok (.state .deprecated)) ∧
        w.ask i .countDeprecated = .ok (.number deprecated.length) ∧
        w.ask i .purgeDeprecated = .ok (.number deprecated.length)) ∧
      (purged.ask i .listEffective = .ok (.names active) ∧
        purged.ask i .listPending = .ok (.subscriptions pending) ∧
        purged.ask i .countDeprecated = .ok (.number 0) ∧
        ∀ t ∉ deprecated,
          purged.ask i (.getSubscription t) = w.ask i (.getSubscription t)) ∧
      (w.ask i .countTopics = .ok (.number topics) ∧
        w.ask i .countSubscribers = .ok (.number members)) ∧
      (∃ counts, (w.refresh i).2 = .ok counts) ∧
      ∀ (v : World) (k : Nat) (counts : List (String × Nat)), v.Idle k → v.committed? k = some db →
        (v.refresh k).2 = .ok counts → ∃ s, (v.refresh k).1.stores[k]? = some s ∧
          s.metrics.get "topics" = .whole topics ∧
          s.metrics.get "subscribers" = .whole members ∧
          s.metrics.get "subscriptions_deprecated" = .whole deprecated.length ∧
          s.metrics.get "subscriptions_pending" = .whole pending.length ∧
          s.metrics.get "subscriptions_active" = .whole active.length := by
  intro purged
  have hwf := h.wellFormed
  have hk := h.keyed
  -- What is asked after the purge is answered from the database that it leaves.
  obtain ⟨hpurge, hc', hd'⟩ : w.ask i .purgeDeprecated = _ ∧ purged.Calm i ∧ _ :=
    ask_of_returns hc hd (f := countReply) rfl (Negotiation.purgeDeprecated_of_wellFormed hwf)
  have hwf' : (db.dropInState .deprecated).2.WellFormed :=
    Database.wellFormed_run (w := .dropInState .deprecated) rfl hwf
  refine ⟨db.topicsIn State.effective, (db.rowsIn State.pending).map Database.readRow,
    db.topicsIn [.deprecated], db.topics.length, db.members.length, ⟨?_, ?_, ?_⟩, ⟨?_, ?_, ?_, ?_⟩,
    fun a b => (Text.toBytes_lt_iff a b).symm, ⟨?_, ?_, ?_, hpurge⟩, ⟨?_, ?_, ?_, ?_⟩, ⟨?_, ?_⟩, ?_, ?_⟩
  · exact ask_listEffective hc hd hwf
  · exact Database.ascending_topicsIn hk _
  · intro t
    rw [mem_topicsIn_iff_ask hc hd hwf hk (by decide)]
    simp [State.isEffective]
  · exact ask_listPending hc hd hwf
  · exact List.pairwise_map.mpr (List.pairwise_map.mp (Database.ascending_topicsIn hk State.pending))
  · intro r hr
    obtain ⟨row, hrow, rfl⟩ := List.mem_map.mp hr
    have hmem := (Database.mem_rowsIn.mp hrow).1
    have hrec : db.record? (Database.readRow row).topic = some (Database.readRow row) :=
      Database.record?_of_mem hk hmem
    rw [ask_getSubscription hc hd hwf, hrec]
  · intro t
    have ht : t ∈ db.topicsIn State.pending ↔ _ := mem_topicsIn_iff_ask hc hd hwf hk (by decide) t
    simpa [Database.topicsIn, Function.comp_def, Database.readRow, State.isPending] using ht
  · exact Database.nodup_topicsIn hk _
  · intro t
    rw [mem_topicsIn_iff_ask hc hd hwf hk (by decide)]
    simp
  · exact ask_countDeprecated hc hd hwf
  · rw [ask_listEffective hc' hd' hwf', Database.topicsIn, Database.topicsIn,
      Database.rowsIn_dropInState db (by decide)]
  · rw [ask_listPending hc' hd' hwf', Database.rowsIn_dropInState db (by decide)]
  · rw [ask_countDeprecated hc' hd' hwf', Database.topicsIn_of_dropped]
    rfl
  · intro t ht
    have hs : db.stateOf t ≠ .deprecated := fun hs =>
      ht ((Database.mem_topicsIn hk hwf (by decide) t).mpr (by simp [hs]))
    have hrow := subscription?_of_purgeDeprecated h (Negotiation.purgeDeprecated_of_wellFormed hwf) hs
    rw [ask_getSubscription hc' hd' hwf', ask_getSubscription hc hd hwf, Database.record?, hrow]
    rfl
  · exact (ask_of_returns hc hd (f := countReply) rfl
      (Directory.count_returns.mpr ⟨hwf.has _, rfl, rfl⟩)).1
  · exact (ask_of_returns hc hd (f := countReply) rfl
      (Membership.count_returns.mpr ⟨hwf.has _, rfl, rfl⟩)).1
  · exact refreshFrom_of_calm hc hd (gauges_return hwf.tables)
  · intro v k counts hi hv hr
    obtain ⟨s, hs, hget⟩ := get_of_refresh hi hv hr
    refine ⟨s, hs, ?_⟩
    have hpending : ((db.rowsIn State.pending).map Database.readRow).length =
        (db.topicsIn State.pending).length := by simp [Database.topicsIn]
    rw [hpending]
    simpa [Database.counts] using hget

/-- A topic that awaits its grant, one that was granted, and one that was withdrawn. -/
def sorted : List Turn :=
  [⟨[], .registerTopic "b" "p" none (.plain true)⟩, ⟨[], .requestSubscribe "b" "r"⟩,
    ⟨[], .registerTopic "a" "p" none (.plain true)⟩, ⟨[], .requestSubscribe "a" "r"⟩,
    ⟨[], .confirm "a"⟩, ⟨[], .retire "c"⟩]

theorem listings_agree_sorted :
    let w := (lone .fresh []).run 0 sorted
    ∃ (active : List String) (deprecated : List String),
      w.ask 0 .listEffective = .ok (.names active) ∧ active.Pairwise (· < ·) ∧ "a" ∈ active ∧
        "b" ∈ active ∧ "c" ∉ active ∧ "c" ∈ deprecated ∧
        w.ask 0 .purgeDeprecated = .ok (.number deprecated.length) ∧
        ∃ s, (w.refresh 0).1.stores[0]? = some s ∧
          s.metrics.get "subscriptions_deprecated" = .whole deprecated.length := by
  intro w
  obtain ⟨hi, db, hd, h⟩ := reached_run sorted
  obtain ⟨active, pending, deprecated, topics, members, ⟨hactive, hasc, hmem⟩, -, -,
    ⟨-, hdep, -, hpurge⟩, -, -, ⟨counts, hcounts⟩, hgauges⟩ :=
    listings_agree (run_calm (lone_calm .fresh) (by decide)) hd h
  obtain ⟨s, hs, -, -, hshown, -⟩ := hgauges w 0 counts hi hd hcounts
  have ha : w.ask 0 (.currentState "a") = .ok (.state .subscribed) := rfl
  have hb : w.ask 0 (.currentState "b") = .ok (.state .subscribePending) := rfl
  have hc : w.ask 0 (.currentState "c") = .ok (.state .deprecated) := rfl
  have hina : "a" ∈ active := (hmem "a").mpr ⟨_, ha, rfl⟩
  have hinb : "b" ∈ active := (hmem "b").mpr ⟨_, hb, rfl⟩
  have hind : "c" ∈ deprecated := (hdep "c").mpr hc
  refine ⟨active, deprecated, hactive, hasc, hina, hinb, fun hm => ?_, hind, hpurge, s, hs, hshown⟩
  obtain ⟨state, hstate, heff⟩ := (hmem "c").mp hm
  rw [hc] at hstate
  cases hstate
  cases heff

end World

end PubSub
