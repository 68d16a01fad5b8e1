import PubSub.Proofs.Confirmations

/-!
# The two halves of a confirmation

A confirmation moves its topic and then brings the membership in line. In a
transaction of its own both are committed or neither is. Inside a block there is
nothing to go back to: what is refused only with the membership leaves the state
moved, and the block commits it if its body goes on.
-/

namespace PubSub

namespace Connection

/-! ## What a run yields -/

/-- What is answered by a run and the connection after it have a property. -/
def Yields {α : Type} (c : Connection) (s : Script α) (Q : Except Failure α → Connection → Prop) :
    Prop := Q (c.exec s).result (c.exec s).connection

def Before {α β : Type} (f : α → Script β) (Q : Except Failure β → Connection → Prop) :
    Except Failure α → Connection → Prop
  | .ok a, d => d.Yields (f a) Q
  | .error failure, d => Q (.error failure) d

section
variable {α β : Type} {c : Connection}

theorem yields_bind {s : Script α} {f : α → Script β} {Q : Except Failure β → Connection → Prop}
    (h : c.Yields s (Before f Q)) : c.Yields (s.bind f) Q := by
  induction s generalizing c with
  | done a => exact h
  | fail failure => exact h
  | look table next ih =>
    unfold Yields at h ⊢
    simp only [Script.bind, exec] at h ⊢
    by_cases ht : c.view.has table = true
    · simp only [ht, if_true] at h ⊢
      exact ih _ h
    · simp only [ht] at h ⊢
      exact h
  | write w next ih =>
    unfold Yields at h ⊢
    simp only [Script.bind, exec] at h ⊢
    rcases hw : c.write w with ⟨failure | rows, d⟩
    · simp only [hw] at h ⊢
      exact h
    · simp only [hw] at h ⊢
      exact ih rows h
  | note n next ih => exact ih (c := c) h

end

def refuses (c : Connection) (verb : Verb) : Bool := (c.ask verb).1

/-- Another connection in the same transaction, on which only statements of some kinds were asked
for. -/
structure Continues (c d : Connection) (asked : List Verb) (db : Database) : Prop where
  working : d.working = some db
  mayWrite : d.mayWrite = c.mayWrite
  refuses : ∀ verb, verb ∉ asked → d.refuses verb = c.refuses verb

/-- Whether only the database can keep a write from its effect in an open transaction. -/
def admits (c : Connection) (w : Write) : Bool := c.mayWrite && !c.refuses w.verb && w.storable

section
variable {c d d' : Connection} {asked asked' : List Verb} {db db' : Database}

theorem Continues.trans (h : c.Continues d asked db) (h' : d.Continues d' asked' db') :
    c.Continues d' (asked ++ asked') db' where
  working := h'.working
  mayWrite := h'.mayWrite.trans h.mayWrite
  refuses verb hv := by
    rw [List.mem_append, not_or] at hv
    exact (h'.refuses verb hv.2).trans (h.refuses verb hv.1)

theorem Continues.admits (h : c.Continues d asked db) (w : Write) (hw : w.verb ∉ asked) :
    d.admits w = c.admits w := by
  unfold Connection.admits
  rw [h.mayWrite, h.refuses _ hw]

end

theorem refuses_ask (c : Connection) {verb other : Verb} (hne : other ≠ verb) :
    (c.ask verb).2.refuses other = c.refuses other := by
  have hone : ∀ r : Refusal, (r.after verb).refuses other = r.refuses other := by
    intro r
    unfold Refusal.after
    by_cases hv : r.verb = verb
    · have hr : r.verb ≠ other := fun he => hne (he.symm.trans hv)
      rw [if_neg (not_not.mpr hv)]
      split <;> simp [Refusal.refuses, hr]
    · rw [if_pos hv]
  simp only [refuses, ask, List.any_map, Function.comp_def, hone]

theorem exec_reads {α : Type} {c : Connection} {db : Database} (h : c.working = some db) {s : Script α}
    (hs : s.Only fun _ => False) :
    (c.exec s).result = (s.eval db).1 ∧
      c.Continues (c.exec s).connection [] db := by
  induction s generalizing c with
  | done a => exact ⟨rfl, h, rfl, fun _ _ => rfl⟩
  | fail failure => exact ⟨rfl, h, rfl, fun _ _ => rfl⟩
  | look table next ih =>
    unfold exec
    simp only [Script.eval, view_of_working h]
    split
    · obtain ⟨hr, hc⟩ := ih db (c := c.succeeded) h (hs db)
      exact ⟨hr, hc.working, hc.mayWrite, hc.refuses⟩
    · exact ⟨rfl, h, rfl, fun _ _ => rfl⟩
  | write w next ih => exact hs.1.elim
  | note n next ih => exact ih h hs

/-! ## Writes in an open transaction -/

section
variable {c : Connection} {db : Database} {w : Write}

theorem write_of_admits (h : c.working = some db) (ht : db.has w.table = true)
    (ha : c.admits w = true) :
    (∃ rows db' d, w.run db = .ok (rows, db') ∧ c.write w = (.ok rows, d) ∧
      c.Continues d [w.verb] db') ∨
    ∃ fault failure d, w.run db = .error fault ∧ c.write w = (.error failure, d) ∧
      d.working = none := by
  simp only [admits, Bool.and_eq_true, Bool.not_eq_true'] at ha
  obtain ⟨⟨hm, hr⟩, hs⟩ := ha
  have hask : (c.ask w.verb).1 = false := hr
  have hk : (c.ask w.verb).2.working = some db := h
  have hp := (preparing_working (c.ask w.verb).2 w).trans hk
  have hu := preparing_unseen (c.ask w.verb).2 w
  have hd : ((c.ask w.verb).2.preparing w).refusals = (c.ask w.verb).2.refusals := by
    unfold preparing
    split <;> rfl
  have hmay : ((c.ask w.verb).2.preparing w).mayWrite = true :=
    (congrArg (·.2.2) hu.around).trans hm
  unfold write
  simp only [hask, Bool.false_eq_true, if_false, view_of_working hk, ht, Bool.not_true, hs]
  generalize (c.ask w.verb).2.preparing w = d at hp hd hmay
  simp only [obstacle?, hmay, hp, Option.isSome_some, Bool.not_true, Bool.false_eq_true, if_false,
    if_true, view_of_working hp]
  cases hrun : w.run db with
  | error fault => exact .inr ⟨fault, _, _, rfl, rfl, rfl⟩
  | ok answer =>
    obtain ⟨rows, db'⟩ := answer
    refine .inl ⟨rows, db', _, rfl, rfl, ?_, ?_, fun verb hv => ?_⟩
    · rw [store_working, show d.succeeded.working = some db from hp]
      rfl
    · have := congrArg (·.2.2) (store_around d.succeeded db')
      exact this.trans (hmay.trans hm.symm)
    · rw [← refuses_ask c fun he => hv (List.mem_singleton.mpr he)]
      unfold refuses ask store
      simp only [show d.succeeded.working = some db from hp]
      rw [show d.succeeded.refusals = _ from hd]
      rfl

theorem write_of_not_admits (h : c.working = some db) (ha : c.admits w = false) :
    ∃ failure d, c.write w = (.error failure, d) ∧ d.working = some db := by
  have hk : (c.ask w.verb).2.working = some db := h
  have hp := (preparing_working (c.ask w.verb).2 w).trans hk
  have hu := preparing_unseen (c.ask w.verb).2 w
  unfold write
  simp only
  split
  · exact ⟨_, _, rfl, hk⟩
  · rename_i hr
    split
    · exact ⟨_, _, rfl, hk⟩
    · split
      · exact ⟨_, _, rfl, hp⟩
      · rename_i hs
        simp only [Bool.not_eq_true', Bool.not_eq_false] at hs
        -- Only a reader is left, for which there is always an obstacle.
        have hm : ((c.ask w.verb).2.preparing w).mayWrite = false := by
          rw [show ((c.ask w.verb).2.preparing w).mayWrite = c.mayWrite from
            congrArg (·.2.2) hu.around]
          simpa [admits, refuses, hr, hs] using ha
        simp only [obstacle?, hm, Bool.not_false, if_true]
        exact ⟨_, _, rfl, hp⟩

theorem yields_write {α : Type} {next : Nat → Script α} {Q : Except Failure α → Connection → Prop}
    (h : c.working = some db) (ht : db.has w.table = true)
    (hbarred : c.admits w = false → ∀ failure d, d.working = some db → Q (.error failure) d)
    (hfaulty : c.admits w = true → ∀ fault failure d, w.run db = .error fault → d.working = none →
      Q (.error failure) d)
    (hdone : c.admits w = true → ∀ rows db' d, w.run db = .ok (rows, db') →
      c.Continues d [w.verb] db' → d.Yields (next rows) Q) :
    c.Yields (.write w next) Q := by
  unfold Yields exec
  cases ha : c.admits w with
  | false =>
    obtain ⟨failure, d, hwrite, hd⟩ := write_of_not_admits h ha
    simp only [hwrite]
    exact hbarred ha failure d hd
  | true =>
    obtain ⟨rows, db', d, hrun, hwrite, hd⟩ | ⟨fault, failure, d, hrun, hwrite, hd⟩ :=
      write_of_admits h ht ha
    · simp only [hwrite]
      exact hdone ha rows db' d hrun hd
    · simp only [hwrite]
      exact hfaulty ha fault failure d hrun hd

theorem yields_reads {α : Type} {s : Script α} {Q : Except Failure α → Connection → Prop}
    (h : c.working = some db) (hs : s.Only fun _ => False)
    (hQ : ∀ d, c.Continues d [] db → Q (s.eval db).1 d) : c.Yields s Q := by
  obtain ⟨hr, hd⟩ := exec_reads h hs
  unfold Yields
  rw [hr]
  exact hQ _ hd

end

end Connection

/-! ## Inside a block -/

section
variable {c : Connection} {db : Database} (h : c.working = some db)

include h

theorem Negotiation.yields_resolve (hdb : db.WellFormed) {topic : String} {accepted : Bool}
    {Q : Except Failure State → Connection → Prop}
    (hbarred : (∀ resolution, (db.stateOf topic).resolution? = some resolution →
        c.admits (.setState topic (resolution.outcome accepted)) = false) →
      ∀ failure d, d.working = some db → Q (.error failure) d)
    (hdone : ∀ resolution, (db.stateOf topic).resolution? = some resolution →
      c.admits (.setState topic (resolution.outcome accepted)) = true →
      ∀ d, c.Continues d [.update] (db.setState topic (resolution.outcome accepted)).2 →
        Q (.ok (resolution.outcome accepted)) d) :
    c.Yields (resolve topic accepted).inline Q := by
  refine Connection.yields_bind (Connection.yields_bind ?_)
  refine Connection.yields_reads h (lookUp_only _ topic) fun d hd => ?_
  rw [lookUp_eval hdb]
  simp only [Connection.Before, stateOf_record?]
  cases hres : (db.stateOf topic).resolution? with
  | none =>
    refine hbarred (fun resolution he => ?_) _ d hd.working
    rw [hres] at he
    cases he
  | some resolution =>
    have hadmits := hd.admits (.setState topic (resolution.outcome accepted)) List.not_mem_nil
    simp only [check, State.canBecome_outcome hres, if_true]
    refine Connection.yields_write hd.working (hdb.has _) (fun ha failure d' hd' => ?_)
      (fun _ _ _ _ hrun => ?_) fun ha rows db' d' hrun hd' => ?_
    · refine hbarred (fun r he => ?_) failure d' hd'
      rw [hres] at he
      cases he
      exact hadmits.symm.trans ha
    · cases hrun
    · cases hrun
      exact hdone resolution hres (hadmits.symm.trans ha) d' (hd.trans hd')

structure Connection.Adds (c : Connection) (topic subscriber : String) (details : Details)
    (expiry : Option Int) : Prop where
  mayWrite : c.mayWrite = true
  topic : topic ≠ ""
  subscriber : subscriber ≠ ""
  details : ∃ written, details.encode = .ok written
  expiry : (expiry.map Write.fits).getD true = true
  insert : c.refuses .insert = false

theorem Membership.yields_add (hdb : db.WellFormed) {topic subscriber : String} {details : Details}
    {expiry : Option Int} {requestId : Option String} {Q : Except Failure Bool → Connection → Prop}
    (hbarred : ¬c.Adds topic subscriber details expiry →
      ∀ failure d, d.working = some db → Q (.error failure) d)
    (hfull : c.Adds topic subscriber details expiry → Database.lastId ≤ db.lastMember →
      ∀ failure d, d.working = none → Q (.error failure) d)
    (hdone : c.Adds topic subscriber details expiry → ∀ new d, Q (.ok new) d) :
    c.Yields (add topic subscriber details expiry requestId).inline Q := by
  unfold Operation.inline
  cases hr : (add topic subscriber details expiry requestId).refusal with
  | some failure =>
    refine hbarred (fun hadds => ?_) failure c h
    have hnone : (add topic subscriber details expiry requestId).refusal = none :=
      orElse_eq_none.mpr ⟨required_eq_none.mpr hadds.topic, required_eq_none.mpr hadds.subscriber⟩
    rw [hr] at hnone
    cases hnone
  | none =>
    obtain ⟨ht, hs⟩ := orElse_eq_none.mp hr
    rw [required_eq_none] at ht hs
    cases he : details.encode with
    | error failure =>
      simp only [add, he]
      refine hbarred (fun hadds => ?_) failure c h
      obtain ⟨written, hw⟩ := hadds.details
      rw [he] at hw
      cases hw
    | ok written =>
      simp only [add, he]
      -- By now the arguments have passed, so only the connection can still be in the way.
      have hadds : c.admits (.addMember ⟨topic, subscriber, written, expiry, requestId⟩) = true ↔
          c.Adds topic subscriber details expiry := by
        simp only [Connection.admits, Write.verb, Write.storable, Bool.and_eq_true, Bool.not_eq_true']
        constructor
        · intro ha
          exact ⟨ha.1.1, ht, hs, ⟨written, he⟩, ha.2, ha.1.2⟩
        · intro ha
          exact ⟨⟨ha.mayWrite, ha.insert⟩, ha.expiry⟩
      refine Connection.yields_bind (Connection.yields_write h (hdb.has _) (fun ha failure d hd => ?_)
        (fun ha fault failure d hrun hd => ?_) fun ha rows db' d hrun hd => ?_)
      · refine hbarred (fun hadd => ?_) failure d hd
        rw [hadds.mpr hadd] at ha
        cases ha
      · exact hfull (hadds.mp ha) (Database.run_error hrun) failure d hd
      · have hend := hdone (hadds.mp ha)
        by_cases hrows : 0 < rows
        · simp only [Script.bind, hrows, if_true]
          exact hend true d
        · simp only [Script.bind, hrows, if_false]
          exact hend false d

theorem Membership.yields_remove (hdb : db.WellFormed) {topic subscriber : String}
    {Q : Except Failure Bool → Connection → Prop}
    (hbarred : c.admits (.dropMember topic subscriber) = false →
      ∀ failure d, d.working = some db → Q (.error failure) d)
    (hdone : c.admits (.dropMember topic subscriber) = true → ∀ gone d, Q (.ok gone) d) :
    c.Yields (remove topic subscriber).inline Q := by
  refine Connection.yields_bind (Connection.yields_write h (hdb.has _) hbarred
    (fun _ _ _ _ hrun => ?_) fun ha rows db' d hrun hd => ?_)
  · cases hrun
  · by_cases hrows : 0 < rows
    · simp only [Script.bind, hrows, if_true]
      exact hdone ha true d
    · simp only [Script.bind, hrows, if_false]
      exact hdone ha false d

end

namespace Response

/-- The state of a topic is moved by a confirmation and the membership cannot follow. -/
def Tears (c : Connection) (db : Database) (topic subscriber : String) (details : Details)
    (expiry : Option Int) : Prop :=
  c.mayWrite = true ∧ c.refuses .update = false ∧
    (db.stateOf topic = .subscribePending ∧
        (topic = "" ∨ subscriber = "" ∨ (∃ failure, details.encode = .error failure) ∨
          (expiry.map Write.fits).getD true = false ∨ c.refuses .insert = true) ∨
      db.stateOf topic = .unsubscribePending ∧ c.refuses .delete = true)

/-- The state of the topic is that for which its request asks, and nothing else has changed. -/
def Half (db db' : Database) (topic : String) : Prop :=
  ∃ resolution, (db.stateOf topic).resolution? = some resolution ∧
    db' = (db.setState topic resolution.granted).2

section
variable {c d : Connection} {db : Database} {topic subscriber : String} {details : Details}
  {expiry : Option Int}

theorem not_adds_iff (hm : c.mayWrite = true) (hd : d.mayWrite = c.mayWrite)
    (hi : d.refuses .insert = c.refuses .insert) :
    ¬d.Adds topic subscriber details expiry ↔
      topic = "" ∨ subscriber = "" ∨ (∃ failure, details.encode = .error failure) ∨
        (expiry.map Write.fits).getD true = false ∨ c.refuses .insert = true := by
  constructor
  · intro hn
    by_contra hall
    simp only [not_or, not_exists, Bool.not_eq_false, Bool.not_eq_true] at hall
    obtain ⟨ht, hs, he, hfit, hins⟩ := hall
    refine hn ⟨hd.trans hm, ht, hs, ?_, hfit, hi.trans hins⟩
    cases hw : details.encode with
    | error failure => exact absurd hw (he failure)
    | ok written => exact ⟨written, rfl⟩
  · rintro hany hadds
    rcases hany with ht | hs | ⟨failure, he⟩ | hfit | hins
    · exact hadds.topic ht
    · exact hadds.subscriber hs
    · obtain ⟨written, hw⟩ := hadds.details
      rw [he] at hw
      cases hw
    · rw [hadds.expiry] at hfit
      cases hfit
    · rw [← hi, hadds.insert] at hins
      cases hins

/-- How a confirmation ends: as a whole, or with a failure that has moved the state or nothing. -/
def Parts (c : Connection) (db : Database) (topic subscriber : String) (details : Details)
    (expiry : Option Int) (result : Except Failure State) (d : Connection) : Prop :=
  (∃ state, result = .ok state) ∧ ¬Tears c db topic subscriber details expiry ∨
  (∃ failure, result = .error failure) ∧
    ((∃ db', d.working = some db' ∧ Half db db' topic) ∧
        Tears c db topic subscriber details expiry ∨
      (d.working = some db ∨ d.working = none ∧ Database.lastId ≤ db.lastMember) ∧
        ¬Tears c db topic subscriber details expiry)

section
variable {e : Connection} {asked : List Verb} (hm : c.mayWrite = true)
  (hu : c.refuses .update = false) (requestId : Option String)

include hm hu

theorem parts_granted (hp : db.stateOf topic = .subscribePending) (hdb : db.WellFormed)
    (he : c.Continues e asked (db.setState topic .subscribed).2) (hasked : .insert ∉ asked) :
    e.Yields (follow topic subscriber details expiry requestId .subscribed)
      (Parts c db topic subscriber details expiry) := by
  have hhalf : Half db (db.setState topic .subscribed).2 topic :=
    ⟨⟨.subscribed, .unsubscribed⟩, by rw [hp]; rfl, rfl⟩
  have htears : ¬e.Adds topic subscriber details expiry ↔
      Tears c db topic subscriber details expiry := by
    rw [not_adds_iff hm he.mayWrite (he.refuses .insert hasked)]
    simp [Tears, hm, hu, hp]
  simp only [follow, if_true]
  refine Connection.yields_bind (Membership.yields_add he.working (hdb.setState topic .subscribed)
    (fun hno failure f hf => ?_) (fun hadds hfull failure f hf => ?_) fun hadds new f => ?_)
  · exact .inr ⟨⟨failure, rfl⟩, .inl ⟨⟨_, hf, hhalf⟩, htears.mp hno⟩⟩
  · exact .inr ⟨⟨failure, rfl⟩, .inr ⟨.inr ⟨hf, hfull⟩, fun ht => htears.mpr ht hadds⟩⟩
  · exact .inl ⟨⟨_, rfl⟩, fun ht => htears.mpr ht hadds⟩

theorem parts_ended (hp : db.stateOf topic = .unsubscribePending) (hdb : db.WellFormed)
    (he : c.Continues e asked (db.setState topic .unsubscribed).2) (hasked : .delete ∉ asked) :
    e.Yields (follow topic subscriber details expiry requestId .unsubscribed)
      (Parts c db topic subscriber details expiry) := by
  have hhalf : Half db (db.setState topic .unsubscribed).2 topic :=
    ⟨⟨.unsubscribed, .subscribed⟩, by rw [hp]; rfl, rfl⟩
  have htears : e.admits (.dropMember topic subscriber) = false ↔
      Tears c db topic subscriber details expiry := by
    have hdel := he.refuses .delete hasked
    simp [Tears, hm, hu, hp, Connection.admits, Write.verb, Write.storable, he.mayWrite, hdel]
  simp only [follow, reduceCtorEq, if_false]
  refine Connection.yields_bind (Membership.yields_remove he.working
    (hdb.setState topic .unsubscribed) (fun hno failure f hf => ?_) fun hadmits gone f => ?_)
  · exact .inr ⟨⟨failure, rfl⟩, .inl ⟨⟨_, hf, hhalf⟩, htears.mp hno⟩⟩
  · refine .inl ⟨⟨_, rfl⟩, fun ht => ?_⟩
    rw [htears.mpr ht] at hadmits
    cases hadmits

end

theorem yields_confirmWithMember (h : c.working = some db) (hdb : db.WellFormed)
    (topic subscriber : String) (details : Details) (expiry : Option Int) :
    c.Yields (confirmWithMember topic subscriber details expiry)
      (Parts c db topic subscriber details expiry) := by
  have hparts : confirmWithMember topic subscriber details expiry =
      (Negotiation.get topic).inline.bind fun record =>
        (Negotiation.resolve topic true).inline.bind fun state =>
          follow topic subscriber details expiry (record.bind (·.requestId)) state := rfl
  rw [hparts]
  refine Connection.yields_bind (Connection.yields_reads h
    (Operation.inline_reads (Negotiation.get_reads topic)) fun d hd => ?_)
  have hget : (Negotiation.get topic).inline.eval db = _ := Negotiation.get_returns hdb topic
  rw [hget]
  simp only [Connection.Before]
  have hset : ∀ state, d.admits (.setState topic state) = true ↔
      c.mayWrite = true ∧ c.refuses .update = false := by
    intro state
    rw [hd.admits _ List.not_mem_nil]
    simp [Connection.admits, Write.verb, Write.storable]
  refine Connection.yields_bind (Negotiation.yields_resolve hd.working hdb (fun hno failure e he => ?_)
    fun resolution hres ha e he => ?_)
  · -- The state cannot be moved, or there is nothing that awaits a confirmation.
    refine .inr ⟨⟨failure, rfl⟩, .inr ⟨.inl he, fun ⟨hm, hu, hpending⟩ => ?_⟩⟩
    have hsome : (db.stateOf topic).resolution?.isSome = true := by
      rcases hpending with ⟨hp, -⟩ | ⟨hp, -⟩ <;> rw [hp] <;> rfl
    obtain ⟨resolution, hres⟩ := Option.isSome_iff_exists.mp hsome
    have hyes := (hset (resolution.outcome true)).mpr ⟨hm, hu⟩
    rw [hno resolution hres] at hyes
    cases hyes
  · obtain ⟨hm, hu⟩ := (hset _).mp ha
    have hde := hd.trans he
    rcases State.resolution?_cases hres with ⟨hp, rfl⟩ | ⟨hp, rfl⟩
    · exact parts_granted hm hu _ hp hdb hde (by decide)
    · exact parts_ended hm hu _ hp hdb hde (by decide)

inductive Confirmed (db : Database) (topic subscriber : String) (details : Details)
    (expiry : Option Int) : State → Database → Prop where
  | granted {written : String} {rows : Nat} {db' : Database}
    (hp : db.stateOf topic = .subscribePending) (hw : details.encode = .ok written)
    (hrun : (db.setState topic .subscribed).2.addMember
      ⟨topic, subscriber, written, expiry, db.requestOf topic⟩ = .ok (rows, db')) :
    Confirmed db topic subscriber details expiry .subscribed db'
  | ended (hp : db.stateOf topic = .unsubscribePending) :
    Confirmed db topic subscriber details expiry .unsubscribed
      ((db.setState topic .unsubscribed).2.dropMember topic subscriber).2

theorem confirmed_of_returns {db' : Database} {reply : Reply} (hdb : db.WellFormed)
    (hr : (Call.applyConfirmation topic subscriber details expiry).operation.Returns db reply db') :
    ∃ state, reply = .state state ∧ Confirmed db topic subscriber details expiry state db' := by
  obtain ⟨state, ho, rfl⟩ := Operation.returns_map.mp hr
  refine ⟨state, rfl, ?_⟩
  obtain ⟨resolution, hres, hs, hm⟩ := (apply_iff hdb).mp (applyConfirmation_returns.mp ho)
  rw [if_pos rfl] at hm
  rcases State.resolution?_cases hres with ⟨hp, rfl⟩ | ⟨hp, rfl⟩
  · obtain rfl : state = .subscribed := hs
    rw [if_pos rfl] at hm
    obtain ⟨new, hadd⟩ := hm
    obtain ⟨-, -, -, written, rows, hw, -, hrun⟩ :=
      (Membership.add_returns (hdb.setState topic .subscribed)).mp hadd
    exact .granted hp hw hrun
  · obtain rfl : state = .unsubscribed := hs
    rw [if_neg (by decide)] at hm
    subst hm
    exact .ended hp

end

end Response

/-! ## Confirmations in a world -/

theorem Connection.join_applyConfirmation (c : Connection) (topic subscriber : String)
    (details : Details) (expiry : Option Int) :
    let run := c.join (Call.applyConfirmation topic subscriber details expiry).operation
    let whole := c.exec (Response.confirmWithMember topic subscriber details expiry)
    run.result = whole.result.map Reply.state ∧ run.connection = whole.connection := by
  intro run whole
  have hbody : c.Yields (Call.applyConfirmation topic subscriber details expiry).operation.body
      fun result d => d = whole.connection ∧
        (∀ failure, result = .error failure → whole.result = .error failure) ∧
        ∀ last, result = .ok last → last.result = whole.result.map Reply.state := by
    refine yields_bind (yields_bind (yields_bind ?_))
    unfold Yields
    cases hr : (c.exec (Response.confirmWithMember topic subscriber details expiry)).result with
    | error failure =>
      refine ⟨rfl, fun f hf => ?_, fun last hl => ?_⟩
      · cases hf
        rfl
      · cases hl
    | ok state =>
      refine ⟨rfl, fun f hf => ?_, fun last hl => ?_⟩
      · cases hf
      · cases hl
        rfl
  obtain ⟨hc, hfail, hok⟩ := hbody
  have hnone : (Call.applyConfirmation topic subscriber details expiry).operation.refusal = none := rfl
  refine ⟨?_, (join_connection c hnone).trans hc⟩
  simp only [run, join, hnone]
  cases hx : (c.exec (Call.applyConfirmation topic subscriber details expiry).operation.body).result with
  | error failure =>
    rw [hfail failure hx]
    rfl
  | ok last => exact hok last hx

theorem Connection.join_confirmation {c : Connection} {db : Database} (h : c.working = some db)
    (hdb : db.WellFormed) (topic subscriber : String) (details : Details) (expiry : Option Int) :
    let run := c.join (Call.applyConfirmation topic subscriber details expiry).operation
    run.connection.committed = c.committed ∧
      ((∃ state db', run.result = .ok (.state state) ∧ run.connection.working = some db' ∧
            Response.Confirmed db topic subscriber details expiry state db') ∧
          ¬Response.Tears c db topic subscriber details expiry ∨
        (∃ failure, run.result = .error failure) ∧
          ((∃ db', run.connection.working = some db' ∧ Response.Half db db' topic) ∧
              Response.Tears c db topic subscriber details expiry ∨
            (run.connection.working = some db ∨
                run.connection.working = none ∧ Database.lastId ≤ db.lastMember) ∧
              ¬Response.Tears c db topic subscriber details expiry)) := by
  intro run
  obtain ⟨hr, hc⟩ := c.join_applyConfirmation topic subscriber details expiry
  refine ⟨(congrArg _ hc).trans (exec_unseen h _).committed, ?_⟩
  rcases Response.yields_confirmWithMember h hdb topic subscriber details expiry with
    ⟨⟨state, hok⟩, hno⟩ | ⟨⟨failure, hf⟩, hleft⟩
  · rw [hok] at hr
    obtain ⟨db', hret, hw⟩ := join_call h hr
    obtain ⟨state, hstate, hboth⟩ := Response.confirmed_of_returns hdb hret
    exact .inl ⟨⟨state, db', hr.trans (congrArg Except.ok hstate), hw, hboth⟩, hno⟩
  · rw [hf] at hr
    rw [← hc] at hleft
    exact .inr ⟨⟨failure, hr⟩, hleft⟩

namespace World

theorem leave_commits {w : World} {i : Nat} {h : Handle} (hh : w.handle? i = some h) :
    let left := w.leave i (.outermost h.opening) none
    (left.2 = none → left.1.committed? i = h.connection.working) ∧
      (left.2 ≠ none → left.1.committed? i = some h.connection.committed) := by
  intro left
  obtain ⟨hout, hafter⟩ := handle_leave hh (.outermost h.opening) none
  have hleave : h.leave (.outermost h.opening) none =
      (⟨h.opening, false, (settle h.connection none).1⟩, (settle h.connection none).2.2) := by
    simp [Handle.leave]
  rw [hleave] at hout hafter
  have hcommitted := committed?_of_handle hafter
  rcases Connection.settle_cases h.connection none with ⟨hnone, -, hw⟩ | ⟨⟨failure, hf⟩, hc⟩
  · refine ⟨fun _ => hcommitted.trans hw.symm, fun hne => ?_⟩
    exact absurd (hout.trans hnone) hne
  · refine ⟨fun hnone => ?_, fun _ => hcommitted.trans (congrArg some hc)⟩
    rw [hout, hf] at hnone
    cases hnone

/-- Outside every block, both halves of a confirmation are committed or none is. Inside, they are
carried out in the open transaction, and one that fails has moved the state there exactly if the
membership was kept from following. A block that commits after that commits just this. -/
theorem confirmation_whole {w : World} {i : Nat} {h : Handle} (hh : w.handle? i = some h)
    (hdb : h.connection.view.WellFormed) (topic subscriber : String) (details : Details)
    (expiry : Option Int) :
    let op := (Call.applyConfirmation topic subscriber details expiry).operation
    let result := (w.call i op).2
    ∃ h', (w.call i op).1.handle? i = some h' ∧
      (h.entered = false →
        (∃ failure, result = .error failure) ∧ h'.connection.committed = h.connection.committed ∨
        ∃ state, result = .ok (.state state) ∧ Response.Confirmed h.connection.committed topic
          subscriber details expiry state h'.connection.committed) ∧
      (h.entered = true → ∀ db, h.connection.working = some db →
        h'.connection.committed = h.connection.committed ∧
        ((∃ state db', result = .ok (.state state) ∧ h'.connection.working = some db' ∧
              Response.Confirmed db topic subscriber details expiry state db') ∧
            ¬Response.Tears h.connection db topic subscriber details expiry ∨
          (∃ failure, result = .error failure) ∧
            ((∃ db', h'.connection.working = some db' ∧ Response.Half db db' topic) ∧
                Response.Tears h.connection db topic subscriber details expiry ∨
              (h'.connection.working = some db ∨
                  h'.connection.working = none ∧ Database.lastId ≤ db.lastMember) ∧
                ¬Response.Tears h.connection db topic subscriber details expiry)) ∧
        let left := (w.call i op).1.leave i (.outermost h.opening) none
        (left.2 = none → left.1.committed? i = h'.connection.working) ∧
          (left.2 ≠ none → left.1.committed? i = some h.connection.committed)) := by
  intro op result
  obtain ⟨hr, hh'⟩ := handle_call hh op
  have hresult : result = (h.perform op).result := hr
  rw [hresult]
  refine ⟨_, hh', fun he => ?_, fun he db hw => ?_⟩
  · have hp : h.perform op = h.connection.transact op := by simp [Handle.perform, he]
    rw [hp]
    rcases h.connection.transact_call (.applyConfirmation topic subscriber details expiry) with
      ⟨failure, hf, hc⟩ | ⟨reply, hok, hret⟩
    · exact .inl ⟨⟨failure, hf⟩, hc⟩
    · rw [Connection.view_of_idle (Connection.working_of_transact hok).1] at hdb
      obtain ⟨state, rfl, hboth⟩ := Response.confirmed_of_returns hdb hret
      exact .inr ⟨state, hok, hboth⟩
  -- Inside a block nothing is given up here: what is open is left to the end of the block.
  · have hp : h.perform op = h.connection.join op := by simp [Handle.perform, he]
    rw [Connection.view_of_working hw] at hdb
    obtain ⟨hcom, hends⟩ : (h.connection.join op).connection.committed = h.connection.committed ∧ _ :=
      Connection.join_confirmation hw hdb topic subscriber details expiry
    have hleave := leave_commits hh'
    simp only [hp] at hleave ⊢
    rw [hcom] at hleave
    exact ⟨hcom, hends, hleave⟩

def awaiting : Database :=
  { Database.fresh with
    topics := [⟨"t", "p", "", 1⟩]
    subscriptions := [⟨"t", State.subscribePending.code, some "r"⟩] }

theorem confirmation_whole_halfway :
    let w := ((lone awaiting []).enter 0).1
    let op := (Call.applyConfirmation "t" "" .empty (some 0)).operation
    ∃ db', (∃ failure, (w.call 0 op).2 = .error failure) ∧ Response.Half awaiting db' "t" ∧
      ((w.call 0 op).1.leave 0 (.outermost 1) none).1.committed? 0 = some db' := by
  intro w op
  have hw : w.handle? 0 =
      some ⟨1, true, ⟨awaiting, none, false, true, some awaiting, [], none, false⟩⟩ := rfl
  have hwell : awaiting.WellFormed := by
    refine ⟨rfl, fun row hrow => ⟨.subscribePending, ?_⟩⟩
    rw [List.mem_singleton.mp hrow]
  obtain ⟨h', -, -, hin⟩ := confirmation_whole hw hwell "t" "" .empty (some 0)
  obtain ⟨-, hends, hleave, -⟩ := hin rfl awaiting rfl
  have htears : Response.Tears ⟨awaiting, none, false, true, some awaiting, [], none, false⟩ awaiting
      "t" "" .empty (some 0) := ⟨rfl, rfl, .inl ⟨by decide, .inr (.inl rfl)⟩⟩
  have hleft : ((w.call 0 op).1.leave 0 (.outermost 1) none).2.isNone = true := by decide +kernel
  rcases hends with ⟨-, hno⟩ | ⟨hfail, ⟨⟨db', hdb', hhalf⟩, -⟩ | ⟨-, hno⟩⟩
  · exact absurd htears hno
  · exact ⟨db', hfail, hhalf, (hleave (Option.isNone_iff_eq_none.mp hleft)).trans hdb'⟩
  · exact absurd htears hno

/-- A block takes in the failure of a confirmation for nobody, and commits the subscription. -/
theorem confirmation_halved :
    let w := (((lone .fresh []).call 0 (Call.registerTopic "t" "p" none (.plain true)).operation).1.call 0
      (Call.requestSubscribe "t" "r").operation).1
    let call := Call.applyConfirmation "t" "" .empty (some 0)
    let t := w.block 0 fun w => w.follow (.call 0 call fun _ => .done)
    ((w.enter 0).1.call 0 call.operation).2 = .error (.empty "Subscriber") ∧ t.outcome = none ∧
      (w.committed 0).stateOf "t" = .subscribePending ∧
      (t.world.committed 0).stateOf "t" = .subscribed ∧ (t.world.committed 0).members = [] := by
  intro w call t
  have hout : t.outcome.isNone = true := by decide +kernel
  exact ⟨rfl, Option.isNone_iff_eq_none.mp hout, by decide +kernel, by decide +kernel,
    by decide +kernel⟩

end World

end PubSub
