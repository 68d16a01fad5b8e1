import PubSub.Proofs.Moves
import PubSub.Proofs.Runs

/-!
# Requests and their responses

Where no request id is used for two requests, a response finds the topic that its
request was made for, and at most one response to a request is ever applied. A
row keeps its request id after it was resolved or withdrawn, and rows disappear,
so the invariant ties the ids that are still stored to the moments of the past:
every stored id was requested for the topic of its row, and a row whose id was
answered is not pending.
-/

namespace PubSub

namespace Moment

def Requested (m : Moment) (topic requestId : String) : Prop :=
  m.call.request? = some (topic, requestId) ∧ ∃ reply, m.result = .ok reply

/-- The request that the moment applied a response for, and whether that was granted. -/
def applied? (m : Moment) : Option (String × Bool) :=
  match m.result with
  | .ok reply => m.call.applied? reply
  | .error _ => none

def applies (requestId : String) (m : Moment) : Bool :=
  match m.applied? with
  | some (r, _) => r = requestId
  | none => false

theorem applies_iff {m : Moment} {requestId : String} :
    m.applies requestId = true ↔ ∃ granted, m.applied? = some (requestId, granted) := by
  unfold applies
  cases m.applied? with
  | none => simp
  | some p => simp [Prod.ext_iff]

/-- An applied response was to a request of the past, for the topic that it moved and that was
pending on it. -/
def Correct (past : List Moment) (m : Moment) : Prop :=
  ∀ requestId granted, m.applied? = some (requestId, granted) →
    ∃ topic resolution, (∃ m' ∈ past, m'.Requested topic requestId) ∧
      m.before.requestOf topic = some requestId ∧
      (m.before.stateOf topic).resolution? = some resolution ∧
      m.after.subscriptions =
        (m.before.setState topic (resolution.outcome granted)).2.subscriptions

end Moment

def requestIds (calls : List Call) : List String := calls.filterMap fun call => call.request?.map (·.2)

/-! ## The invariant -/

structure Correlated (past : List Moment) (db : Database) : Prop where
  wellFormed : db.WellFormed
  named : db.Named
  distinct : db.Distinct
  /-- Only a withdrawal makes a row for a topic without a name. -/
  rowNamed : ∀ row ∈ db.subscriptions, row.topic = "" → row.code = State.deprecated.code
  known : ∀ row ∈ db.subscriptions, ∀ requestId, row.requestId = some requestId →
    ∃ m ∈ past, m.Requested row.topic requestId
  settled : ∀ row ∈ db.subscriptions, ∀ requestId, row.requestId = some requestId →
    (∃ m ∈ past, m.applies requestId = true) → ∀ state : State, state.isPending = true →
      row.code ≠ state.code
  once : ∀ requestId, past.countP (·.applies requestId) ≤ 1
  correct : ∀ before m, before ++ [m] <+: past → m.Correct before

theorem correlated_fresh : Correlated [] .fresh := by
  refine ⟨Database.wellFormed_fresh, ?_, ⟨.nil, .nil⟩, ?_, ?_, ?_, ?_, ?_⟩
  · intro row hr
    cases hr
  · intro row hr
    cases hr
  · intro row hr
    cases hr
  · intro row hr
    cases hr
  · intro requestId
    exact Nat.zero_le 1
  · intro before m hp
    simp at hp

namespace Correlated

section
variable {past : List Moment} {db : Database} (h : Correlated past db)

include h

theorem requested_of_applies {m : Moment} (hm : m ∈ past) {requestId : String}
    (ha : m.applies requestId = true) : ∃ topic, ∃ m' ∈ past, m'.Requested topic requestId := by
  obtain ⟨before, after, rfl⟩ := List.append_of_mem hm
  obtain ⟨granted, ha⟩ := Moment.applies_iff.mp ha
  obtain ⟨topic, -, ⟨m', hm', hreq⟩, -⟩ :=
    h.correct before m ⟨after, by simp⟩ requestId granted ha
  exact ⟨topic, m', List.mem_append_left _ hm', hreq⟩

theorem row_of_state {topic : String} (hs : db.stateOf topic ≠ .unsubscribed) :
    ∃ row ∈ db.subscriptions, row.topic = topic ∧ db.requestOf topic = row.requestId ∧
      row.code = (db.stateOf topic).code := by
  obtain ⟨row, hrow⟩ :=
    Option.isSome_iff_exists.mp (Database.subscription?_isSome_of_stateOf hs)
  have hm := List.mem_of_find?_eq_some hrow
  refine ⟨row, hm, by simpa using List.find?_some hrow, by simp [Database.requestOf, hrow], ?_⟩
  obtain ⟨state, hc⟩ := h.wellFormed.codes row hm
  simp [Database.stateOf, hrow, hc, State.ofCode?_code]

theorem topic_of_state {topic : String} (hs : db.stateOf topic ≠ .unsubscribed)
    (hd : db.stateOf topic ≠ .deprecated) : topic ≠ "" := by
  obtain ⟨row, hr, rfl, -, hc⟩ := h.row_of_state hs
  intro he
  rw [h.rowNamed row hr he] at hc
  exact hd (State.code_injective hc).symm

theorem row_of_carrier {requestId : String} {row : SubscriptionRow}
    (hc : db.carrier? (some requestId) = some row) :
    row ∈ db.subscriptions ∧ row.requestId = some requestId ∧
      db.requestOf row.topic = some requestId ∧ row.code = (db.stateOf row.topic).code := by
  obtain ⟨hm, hid⟩ := Database.mem_of_carrier? hc
  have hs := h.distinct.subscription? hm
  refine ⟨hm, hid, by simp [Database.requestOf, hs, hid], ?_⟩
  obtain ⟨state, hc⟩ := h.wellFormed.codes row hm
  simp [Database.stateOf, hs, hc, State.ofCode?_code]

theorem snoc {db' : Database} (m : Moment) (hw : db'.WellFormed) (hn : db'.Named)
    (hd : db'.Distinct)
    (hrow : ∀ row ∈ db'.subscriptions, row.topic = "" → row.code = State.deprecated.code)
    (hknown : ∀ row ∈ db'.subscriptions, ∀ requestId, row.requestId = some requestId →
      (∃ m' ∈ past, m'.Requested row.topic requestId) ∨ m.Requested row.topic requestId)
    (hsettled : ∀ row ∈ db'.subscriptions, ∀ requestId, row.requestId = some requestId →
      (∃ m' ∈ past, m'.applies requestId = true) ∨ m.applies requestId = true →
        ∀ state : State, state.isPending = true → row.code ≠ state.code)
    (hnew : ∀ requestId, m.applies requestId = true → ∀ m' ∈ past, m'.applies requestId = false)
    (hcorrect : m.Correct past) : Correlated (past ++ [m]) db' := by
  refine ⟨hw, hn, hd, hrow, fun row hr requestId hid => ?_, fun row hr requestId hid ha => ?_,
    fun requestId => ?_, fun before m' hp => ?_⟩
  · rcases hknown row hr requestId hid with ⟨m', hm', hreq⟩ | hreq
    · exact ⟨m', List.mem_append_left _ hm', hreq⟩
    · exact ⟨m, by simp, hreq⟩
  · refine hsettled row hr requestId hid ?_
    obtain ⟨m', hm', ha⟩ := ha
    rcases List.mem_append.mp hm' with hm' | hm'
    · exact .inl ⟨m', hm', ha⟩
    · rw [List.mem_singleton] at hm'
      exact .inr (hm' ▸ ha)
  · rw [List.countP_append]
    cases ha : m.applies requestId with
    | false => simpa [ha] using h.once requestId
    | true =>
      have hz : past.countP (·.applies requestId) = 0 := by
        rw [List.countP_eq_zero]
        intro m' hm'
        rw [hnew requestId ha m' hm']
        exact Bool.false_ne_true
      simp [hz, ha]
  · rcases List.prefix_concat_iff.mp hp with he | hp
    · obtain ⟨rfl, hl⟩ := List.append_inj' he rfl
      rw [List.singleton_inj] at hl
      exact hl ▸ hcorrect
    · exact h.correct before m' hp

theorem snoc_of_none {db' : Database} {m : Moment} (ha : m.applied? = none) (hw : db'.WellFormed)
    (hn : db'.Named) (hd : db'.Distinct)
    (hrow : ∀ row ∈ db'.subscriptions, row.topic = "" → row.code = State.deprecated.code)
    (hknown : ∀ row ∈ db'.subscriptions, ∀ requestId, row.requestId = some requestId →
      (∃ m' ∈ past, m'.Requested row.topic requestId) ∨ m.Requested row.topic requestId)
    (hsettled : ∀ row ∈ db'.subscriptions, ∀ requestId, row.requestId = some requestId →
      (∃ m' ∈ past, m'.applies requestId = true) →
        ∀ state : State, state.isPending = true → row.code ≠ state.code) :
    Correlated (past ++ [m]) db' := by
  have hnone : ∀ requestId, m.applies requestId = false := fun requestId => by
    simp [Moment.applies, ha]
  refine h.snoc m hw hn hd hrow hknown (fun row hr requestId hid hor => ?_) ?_ ?_
  · refine hsettled row hr requestId hid (hor.resolve_right ?_)
    rw [hnone]
    exact Bool.false_ne_true
  · intro requestId happ
    rw [hnone] at happ
    cases happ
  · intro requestId granted happ
    rw [ha] at happ
    cases happ

/-! ## One moment -/

theorem snoc_of_subset {db' : Database} {m : Moment} (ha : m.applied? = none)
    (hw : db'.WellFormed) (hn : db'.Named) (hd : db'.Distinct)
    (hs : ∀ row ∈ db'.subscriptions, row ∈ db.subscriptions) : Correlated (past ++ [m]) db' :=
  h.snoc_of_none ha hw hn hd (fun row hr => h.rowNamed row (hs row hr))
    (fun row hr requestId hid => .inl (h.known row (hs row hr) requestId hid))
    fun row hr => h.settled row (hs row hr)

theorem snoc_of_failure (call : Call) (failure : Failure) :
    Correlated (past ++ [⟨call, .error failure, db, db⟩]) db :=
  h.snoc_of_subset rfl h.wellFormed h.named h.distinct fun _ hr => hr

theorem requested {call : Call} {reply : Reply} {topic requestId : String} {next : State}
    (hq : call.request? = some (topic, requestId)) (ha : call.applied? reply = none)
    (hreg : (db.topic? topic).isSome ∨ db.stateOf topic = .subscribed)
    (hfresh : requestId ∉ requestIds (past.map (·.call))) (db' : Database)
    (hd : db' = db.putSubscription ⟨topic, next.code, some requestId⟩) :
    Correlated (past ++ [⟨call, .ok reply, db, db'⟩]) db' := by
  subst hd
  have hunused : ∀ t, ∀ m ∈ past, ¬m.Requested t requestId := by
    intro t m hm hreq
    refine hfresh (List.mem_filterMap.mpr ⟨m.call, List.mem_map_of_mem hm, ?_⟩)
    rw [hreq.1]
    rfl
  have hnew : ∀ row ∈ db.subscriptions, row.requestId ≠ some requestId := by
    intro row hr hid
    obtain ⟨m, hm, hreq⟩ := h.known row hr requestId hid
    exact hunused _ m hm hreq
  have htopic : topic ≠ "" := by
    rcases hreg with hreg | hreg
    · exact h.named.topic hreg
    · refine h.topic_of_state ?_ ?_ <;> rw [hreg] <;> decide
  refine h.snoc_of_none ha ?_ (.congr rfl h.named) ?_ ?_ ?_ ?_
  · exact Database.wellFormed_run (w := .putSubscription topic next (some requestId)) rfl h.wellFormed
  · refine h.distinct.putSubscription fun r hr row hm hid => ?_
    cases hr
    exact absurd hid (hnew row hm)
  · intro row hr he
    rcases Database.mem_putSubscription.mp hr with ⟨hr, -⟩ | rfl
    · exact h.rowNamed row hr he
    · exact absurd he htopic
  · intro row hr r hid
    rcases Database.mem_putSubscription.mp hr with ⟨hr, -⟩ | rfl
    · exact .inl (h.known row hr r hid)
    · cases hid
      exact .inr ⟨hq, reply, rfl⟩
  · intro row hr r hid hex
    rcases Database.mem_putSubscription.mp hr with ⟨hr, -⟩ | rfl
    · exact h.settled row hr r hid hex
    · cases hid
      obtain ⟨m, hm, happ⟩ := hex
      obtain ⟨t, m', hm', hreq⟩ := h.requested_of_applies hm happ
      exact absurd hreq (hunused t m' hm')

theorem withdrawn {call : Call} {reply : Reply} (ha : call.applied? reply = none)
    (topic : String) (db' : Database)
    (hd : db' = db.putSubscription ⟨topic, State.deprecated.code, db.requestOf topic⟩) :
    Correlated (past ++ [⟨call, .ok reply, db, db'⟩]) db' := by
  subst hd
  have hold : ∀ requestId, db.requestOf topic = some requestId →
      ∃ row ∈ db.subscriptions, row.topic = topic ∧ row.requestId = some requestId := by
    intro requestId hid
    obtain ⟨row, hrow, hid⟩ := Option.bind_eq_some_iff.mp hid
    exact ⟨row, List.mem_of_find?_eq_some hrow, by simpa using List.find?_some hrow, hid⟩
  refine h.snoc_of_none ha ?_ (.congr rfl h.named) ?_ ?_ ?_ ?_
  · exact Database.wellFormed_run
      (w := .putSubscription topic .deprecated (db.requestOf topic)) rfl h.wellFormed
  · refine h.distinct.putSubscription fun r hr row hm hid => ?_
    obtain ⟨old, ho, ht, hido⟩ := hold r hr
    rw [Database.eq_of_nodup_filterMap h.distinct.requests hm ho hid hido]
    exact ht
  · intro row hr he
    rcases Database.mem_putSubscription.mp hr with ⟨hr, -⟩ | rfl
    · exact h.rowNamed row hr he
    · rfl
  · intro row hr r hid
    rcases Database.mem_putSubscription.mp hr with ⟨hr, -⟩ | rfl
    · exact .inl (h.known row hr r hid)
    · obtain ⟨old, ho, ht, hido⟩ := hold r hid
      exact .inl (ht ▸ h.known old ho r hido)
  · intro row hr r hid hex
    rcases Database.mem_putSubscription.mp hr with ⟨hr, -⟩ | rfl
    · exact h.settled row hr r hid hex
    · intro state hp hc
      have he : State.deprecated = state := State.code_injective hc
      rw [← he] at hp
      cases hp

theorem resolved {call : Call} {reply : Reply} {topic : String} {resolution : Resolution}
    {accepted : Bool} (hr : (db.stateOf topic).resolution? = some resolution) {db' : Database}
    (hw : db'.WellFormed) (ht : db'.topics = db.topics)
    (hs : db'.subscriptions = (db.setState topic (resolution.outcome accepted)).2.subscriptions)
    (ha : ∀ requestId granted, call.applied? reply = some (requestId, granted) →
      granted = accepted ∧ ∃ row, db.carrier? (some requestId) = some row ∧ row.topic = topic) :
    Correlated (past ++ [⟨call, .ok reply, db, db'⟩]) db' := by
  have hpending : (db.stateOf topic).isPending = true := by
    rw [← State.isSome_resolution?, hr]
    rfl
  have htopic : topic ≠ "" := by
    refine h.topic_of_state ?_ ?_ <;> intro he <;> rw [he] at hpending <;> cases hpending
  have hout : ∀ state : State, state.isPending = true →
      (resolution.outcome accepted).code ≠ state.code := by
    intro state hp he
    rw [← State.code_injective he, State.not_pending_outcome hr accepted] at hp
    cases hp
  have happlied : ∀ requestId granted, call.applied? reply = some (requestId, granted) →
      granted = accepted ∧ ∃ row ∈ db.subscriptions, row.topic = topic ∧
        row.requestId = some requestId ∧ db.requestOf topic = some requestId ∧
        row.code = (db.stateOf topic).code := by
    intro requestId granted he
    obtain ⟨hg, row, hc, rfl⟩ := ha requestId granted he
    obtain ⟨hm, hid, hreq, hcode⟩ := h.row_of_carrier hc
    exact ⟨hg, row, hm, rfl, hid, hreq, hcode⟩
  refine h.snoc _ hw (.congr ht h.named) ((h.distinct.setState _ _).congr hs) ?_ ?_ ?_ ?_ ?_
  · intro row hrow he
    obtain ⟨old, ho, htop, -, ⟨hin, -⟩ | ⟨-, hc⟩⟩ := Database.mem_setState (hs ▸ hrow)
    · exact absurd (hin.symm.trans (htop.symm.trans he)) htopic
    · exact hc.trans (h.rowNamed old ho (htop.symm.trans he))
  · intro row hrow requestId hid
    obtain ⟨old, ho, htop, hido, -⟩ := Database.mem_setState (hs ▸ hrow)
    exact .inl (htop ▸ h.known old ho requestId (hido.symm.trans hid))
  · intro row hrow requestId hid hor state hp
    obtain ⟨old, ho, -, hido, ⟨-, hc⟩ | ⟨hne, hc⟩⟩ := Database.mem_setState (hs ▸ hrow)
    · exact hc ▸ hout state hp
    · rw [hc]
      rcases hor with hex | happ
      · exact h.settled old ho requestId (hido.symm.trans hid) hex state hp
      · -- The row that carries the request is that of the topic.
        obtain ⟨granted, he⟩ := Moment.applies_iff.mp happ
        obtain ⟨-, row', hm', ht', hid', -⟩ := happlied requestId granted he
        have := Database.eq_of_nodup_filterMap h.distinct.requests ho hm'
          (hido.symm.trans hid) hid'
        exact absurd (this ▸ ht') hne
  · intro requestId happ m' hm'
    obtain ⟨granted, he⟩ := Moment.applies_iff.mp happ
    obtain ⟨-, row, hm, -, hid, -, hcode⟩ := happlied requestId granted he
    cases hb : m'.applies requestId with
    | false => rfl
    | true => exact absurd hcode (h.settled row hm requestId hid ⟨m', hm', hb⟩ _ hpending)
  · intro requestId granted he
    obtain ⟨rfl, row, hm, rfl, hid, hreq, -⟩ := happlied requestId granted he
    exact ⟨row.topic, resolution, h.known row hm requestId hid, hreq, hr, hs⟩

end

end Correlated

/-! ## Courses -/

theorem correlated_of_course {past : List Moment} {db : Database} (hc : Course past db)
    (hn : (requestIds (past.map (·.call))).Nodup) : Correlated past db := by
  induction hc with
  | start => exact correlated_fresh
  | @next past db db' call result hc hout ih =>
    rw [List.map_append, requestIds, List.filterMap_append, List.nodup_append] at hn
    obtain ⟨hpast, -, hfresh⟩ := hn
    have h := ih hpast
    cases hout with
    | fails failure => exact h.snoc_of_failure call failure
    | @returns reply _ hr =>
      have hw := h.wellFormed.returns hr
      cases moved_of_returns h.wellFormed hr with
      | nowhere hs hnamed hq ha =>
        exact h.snoc_of_subset ha hw (hnamed h.named) (h.distinct.congr hs) fun row hm => hs ▸ hm
      | requested topic requestId next hq hp hstep hreg hd =>
        refine h.requested hq ?_ hreg (fun hm => hfresh requestId hm requestId ?_ rfl) db' hd
        · cases call <;> first | rfl | cases hq
        · simp [hq]
      | resolved topic resolution accepted hres hs ht hp hq ha =>
        exact h.resolved hres hw ht hs ha
      | withdrawn topic hd hp hq ha => exact h.withdrawn ha topic db' hd
      | dropped p hp hd hq ha =>
        subst hd
        exact h.snoc_of_subset ha hw h.named (h.distinct.filter p)
          fun row hm => (List.mem_filter.mp hm).1

/-! ## Responses that are due -/

/-- A response to the request of a topic is applied wherever nothing stands in its way. It moves
that topic as the table of resolutions says, and no other. -/
def Database.Answerable (db : Database) (topic requestId : String) : Prop :=
  ∀ (accepted : Bool) (subscriber : String) (items : List (Option String)) (expiry : Int),
    subscriber ≠ "" → Write.fits expiry = true → db.lastMember < Database.lastId →
      ∀ (w : World) (i : Nat), w.Calm i → w.committed? i = some db →
        let call := Call.handleResponse (some requestId) accepted subscriber (.list items) (some expiry)
        (w.call i call.operation).2 = .ok (.outcome .applied) ∧
          ∃ resolution db', (db.stateOf topic).resolution? = some resolution ∧
            (w.call i call.operation).1.committed? i = some db' ∧
            db'.subscriptions =
              (db.setState topic (resolution.outcome accepted)).2.subscriptions

theorem Database.addMember_ok {db : Database} (h : db.lastMember < lastId) (new : NewMember) :
    ∃ rows db', db.addMember new = .ok (rows, db') := by
  unfold addMember
  rw [if_neg (Nat.not_le_of_lt h)]
  split <;> exact ⟨_, _, rfl⟩

theorem Response.apply_of_pending {db : Database} (h : db.WellFormed) {topic : String}
    {resolution : Resolution} (hr : (db.stateOf topic).resolution? = some resolution)
    (ht : topic ≠ "") {subscriber : String} (hs : subscriber ≠ "") {expiry : Int}
    (he : Write.fits expiry = true) (hl : db.lastMember < Database.lastId) (accepted : Bool)
    (items : List (Option String)) :
    ∃ db', (apply topic accepted subscriber (.list items) (some expiry)).eval db =
      (.ok (resolution.outcome accepted), db') := by
  have hw := h.setState topic (resolution.outcome accepted)
  simp only [apply_iff h]
  cases accepted with
  | false => exact ⟨_, resolution, hr, rfl, rfl⟩
  | true =>
    by_cases hg : resolution.outcome true = .subscribed
    · have hl' : (db.setState topic (resolution.outcome true)).2.lastMember < Database.lastId := hl
      obtain ⟨rows, db', hrun⟩ := Database.addMember_ok hl'
        ⟨topic, subscriber, Details.encodeTexts (items.filterMap id), some expiry,
          db.requestOf topic⟩
      refine ⟨db', resolution, hr, rfl, ?_⟩
      rw [if_pos rfl, if_pos hg]
      exact ⟨decide (0 < rows), (Membership.add_returns hw).mpr
        ⟨ht, hs, he, _, rows, rfl, rfl, hrun⟩⟩
    · exact ⟨_, resolution, hr, rfl, by rw [if_pos rfl, if_neg hg]⟩

theorem Correlated.answerable {past : List Moment} {db : Database} (h : Correlated past db)
    {topic requestId : String} (hp : (db.stateOf topic).isPending = true)
    (hreq : db.requestOf topic = some requestId) : db.Answerable topic requestId := by
  intro accepted subscriber items expiry hs he hl w i hc hd
  rw [← State.isSome_resolution?] at hp
  obtain ⟨resolution, hr⟩ := Option.isSome_iff_exists.mp hp
  have hu : db.stateOf topic ≠ .unsubscribed := by
    intro hn
    rw [hn] at hr
    cases hr
  have ht : topic ≠ "" := by
    refine h.topic_of_state hu ?_
    intro hn
    rw [hn] at hr
    cases hr
  obtain ⟨row, hm, rfl, hid, -⟩ := h.row_of_state hu
  have hcar := h.distinct.carrier? hm (hid.symm.trans hreq)
  obtain ⟨db', ha⟩ := Response.apply_of_pending h.wellFormed hr ht hs he hl accepted items
  have hret : (Call.handleResponse (some requestId) accepted subscriber (.list items)
      (some expiry)).operation.Returns db (.outcome .applied) db' :=
    Operation.returns_map.mpr ⟨_, Response.handle_applied h.wellFormed hcar ha, rfl⟩
  obtain ⟨hres, hcom⟩ := World.call_of_calm hc hd _
  rw [hret.alone] at hres hcom
  obtain ⟨-, -, -, -, hsub⟩ := Response.apply_ok h.wellFormed ha
  exact ⟨hres, resolution, db', hr, hcom, hsub⟩

/-! ## Runs -/

/-- Where every request has an id of its own: at most one response to a request is applied, to the
topic that the request was for, while that is pending on it; no two rows carry one request; and a
response to a pending request is applied. -/
theorem World.responses_correlate {w : World} {i : Nat} (hi : w.Idle i)
    (hd : w.committed? i = some .fresh) {turns : List Turn}
    (hn : (requestIds (turns.map (·.call))).Nodup) :
    (∀ requestId, (w.history i turns).countP (·.applies requestId) ≤ 1) ∧
    (∀ past m, past ++ [m] <+: w.history i turns → m.Correct past) ∧
    ∃ db, (w.run i turns).committed? i = some db ∧
      (db.subscriptions.filterMap (·.requestId)).Nodup ∧
      (∀ topic requestId, (db.stateOf topic).isPending = true →
        db.requestOf topic = some requestId → db.Answerable topic requestId) ∧
      (w.Calm i → (∀ t ∈ turns, t.refusals = []) → (w.run i turns).Calm i) := by
  obtain ⟨-, db, hdb, hc⟩ := course_of_run hi hd turns
  have h := correlated_of_course hc (by rwa [history_map_call])
  exact ⟨h.once, h.correct, db, hdb, h.distinct.requests, fun _ _ => h.answerable,
    fun hc hnone => run_calm hc hnone⟩

def answeredOutOfOrder : List Turn :=
  let response := fun requestId accepted =>
    Call.handleResponse (some requestId) accepted "s" (.list []) (some 0)
  [⟨[], .registerTopic "t" "p" none (.plain true)⟩, ⟨[], .registerTopic "u" "p" none (.plain true)⟩,
    ⟨[], .requestSubscribe "t" "1"⟩, ⟨[], .requestSubscribe "u" "2"⟩, ⟨[], response "2" true⟩,
    ⟨[], response "2" false⟩]

theorem World.responses_correlate_outOfOrder :
    ((lone .fresh []).history 0 answeredOutOfOrder).countP (·.applies "2") = 1 ∧
      (((lone .fresh []).run 0 answeredOutOfOrder).committed 0).Answerable "t" "1" := by
  obtain ⟨honce, -, db, hdb, -, hanswer, -⟩ :=
    responses_correlate (lone_calm .fresh).idle rfl
      (show (requestIds (answeredOutOfOrder.map (·.call))).Nodup by decide)
  refine ⟨Nat.le_antisymm (honce "2") (Nat.le_of_eq rfl), ?_⟩
  rw [committed_of_committed? hdb]
  refine hanswer "t" "1" ?_ ?_
  · rw [← committed_of_committed? hdb]
    rfl
  · rw [← committed_of_committed? hdb]
    rfl

end PubSub
