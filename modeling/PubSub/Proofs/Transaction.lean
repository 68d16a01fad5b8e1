import PubSub.Connection
import PubSub.Proofs.Evaluation

/-!
# Transactions on a connection

`transact_cases` says what a transaction comes to, whichever of its statements
are refused and whatever was left open before: it fails and nothing is committed,
or it commits what the body does to the committed database. On a calm connection
there is only the body (`transact_calm`).
-/

namespace PubSub

structure Connection.Calm (c : Connection) : Prop where
  working : c.working = none
  refusals : c.refusals = []
  blocked : c.blocked = none
  observed : c.observed = false
  mayWrite : c.mayWrite = true

namespace Connection

/-- What the other connections do to this one, and what it was opened for. -/
def around (c : Connection) : Option Fault × Bool × Bool := (c.blocked, c.observed, c.mayWrite)

theorem eq_of_around {c c' : Connection} (hc : c.committed = c'.committed)
    (ha : c.around = c'.around)
    (ho : (c.working, c.refusals, c.lastFault, c.knowsSetting) =
      (c'.working, c'.refusals, c'.lastFault, c'.knowsSetting)) : c = c' := by
  cases c
  cases c'
  simp only [around, Prod.mk.injEq] at hc ha ho
  simp only [hc, ha, ho]

structure Unseen (c c' : Connection) : Prop where
  committed : c'.committed = c.committed
  around : c'.around = c.around

theorem Unseen.refl (c : Connection) : c.Unseen c := ⟨rfl, rfl⟩

theorem Unseen.trans {c c' c'' : Connection} (h : c.Unseen c') (h' : c'.Unseen c'') :
    c.Unseen c'' :=
  ⟨h'.committed.trans h.committed, h'.around.trans h.around⟩

theorem view_of_working {c : Connection} {db : Database} (h : c.working = some db) : c.view = db := by
  simp [view, h]

theorem view_of_idle {c : Connection} (h : c.working = none) : c.view = c.committed := by
  simp [view, h]

/-! ## Writes -/

theorem ask_unseen (c : Connection) (verb : Verb) : c.Unseen (c.ask verb).2 := ⟨rfl, rfl⟩

theorem preparing_unseen (c : Connection) (w : Write) : c.Unseen (c.preparing w) := by
  unfold preparing
  split <;> exact ⟨rfl, rfl⟩

theorem preparing_working (c : Connection) (w : Write) : (c.preparing w).working = c.working := by
  unfold preparing
  split <;> rfl

/-- A statement that is refused or fails leaves the file as it was, and may end the transaction. -/
def Failed (c c' : Connection) (failure : Failure) : Prop :=
  failure.FromStatement ∧ c.Unseen c' ∧ (c'.working = c.working ∨ c'.working = none)

/-- A write changes the open transaction, or the file where none is open. -/
def Wrote (c c' : Connection) (w : Write) (rows : Nat) : Prop :=
  c.view.has w.table = true ∧ w.storable = true ∧ c'.around = c.around ∧
    ∃ db, w.run c.view = .ok (rows, db) ∧ c'.working = (c.working.map fun _ => db) ∧
      c'.committed = if c.working.isSome then c.committed else db

theorem store_around (c : Connection) (db : Database) : (c.store db).around = c.around := by
  unfold store
  split <;> rfl

theorem store_working (c : Connection) (db : Database) :
    (c.store db).working = c.working.map fun _ => db := by
  unfold store
  split <;> simp [*]

theorem store_committed (c : Connection) (db : Database) :
    (c.store db).committed = if c.working.isSome then c.committed else db := by
  unfold store
  split <;> simp [*]

theorem write_cases (c : Connection) (w : Write) :
    (∃ failure c', c.write w = (.error failure, c') ∧ c.Failed c' failure) ∨
      ∃ rows c', c.write w = (.ok rows, c') ∧ c.Wrote c' w rows := by
  unfold write
  simp only
  split
  · exact .inl ⟨_, _, rfl, trivial, ⟨rfl, rfl⟩, .inl rfl⟩
  · split
    · exact .inl ⟨_, _, rfl, trivial, ⟨rfl, rfl⟩, .inl rfl⟩
    · rename_i ht
      have hu : c.Unseen ((c.ask w.verb).2.preparing w) :=
        (ask_unseen c w.verb).trans (preparing_unseen _ w)
      have hw : ((c.ask w.verb).2.preparing w).working = c.working :=
        preparing_working (c.ask w.verb).2 w
      have hv : ((c.ask w.verb).2.preparing w).view = c.view := by
        simp only [view, hu.committed, hw]
      generalize (c.ask w.verb).2.preparing w = d at hu hw hv ⊢
      split
      · refine .inl ⟨_, _, rfl, ?_, hu, .inl hw⟩
        cases d.lastFault <;> trivial
      · split
        · exact .inl ⟨_, _, rfl, trivial, ⟨hu.committed, hu.around⟩, .inl hw⟩
        · rename_i hs _ _
          split
          · rename_i rows db hrun
            rw [hv] at hrun
            refine .inr ⟨rows, _, rfl, ?_, by simpa using hs, ?_, db, hrun, ?_, ?_⟩
            · simpa [view, ask] using ht
            · exact (store_around d.succeeded db).trans hu.around
            · exact (store_working d.succeeded db).trans (by rw [← hw]; rfl)
            · rw [store_committed, ← hw, ← hu.committed]
              rfl
          · exact .inl ⟨_, _, rfl, trivial, ⟨hu.committed, hu.around⟩, .inr rfl⟩

/-- A write does to what the connection sees what it does to a database. -/
theorem Wrote.run {c c' : Connection} {w : Write} {rows : Nat} (h : c.Wrote c' w rows) :
    w.run c.view = .ok (rows, c'.view) := by
  obtain ⟨-, -, -, db, hrun, hk, hc⟩ := h
  have hview : c'.view = db := by
    unfold view
    rw [hk, hc]
    cases c.working <;> rfl
  rw [hrun, hview]

theorem write_cases_of_reader {c : Connection} (h : c.mayWrite = false) (w : Write) :
    ∃ failure c', c.write w = (.error failure, c') := by
  have hm : ((c.ask w.verb).2.preparing w).mayWrite = false :=
    (congrArg (·.2.2) (preparing_unseen (c.ask w.verb).2 w).around).trans h
  unfold write
  simp only
  generalize (c.ask w.verb).2.preparing w = d at hm
  split
  · exact ⟨_, _, rfl⟩
  · split
    · exact ⟨_, _, rfl⟩
    · split
      · exact ⟨_, _, rfl⟩
      · simp only [obstacle?, hm, Bool.not_false, if_true]
        exact ⟨_, _, rfl⟩

theorem free_of_write {c c' : Connection} {w : Write} {rows : Nat} (h : c.working = none)
    (hw : c.write w = (.ok rows, c')) :
    c.mayWrite = true ∧ c.blocked = none ∧ c.observed = false := by
  have hd : ((c.ask w.verb).2.preparing w).working = none :=
    (preparing_working (c.ask w.verb).2 w).trans h
  have ha : ((c.ask w.verb).2.preparing w).around = c.around :=
    ((ask_unseen c w.verb).trans (preparing_unseen _ w)).around
  unfold write at hw
  simp only at hw
  generalize (c.ask w.verb).2.preparing w = d at hd ha hw
  simp only [around, Prod.mk.injEq] at ha
  rw [← ha.1, ← ha.2.1, ← ha.2.2]
  split at hw
  · cases hw
  · split at hw
    · cases hw
    · split at hw
      · cases hw
      · cases ho : d.obstacle? with
        | some fault => simp [ho] at hw
        | none =>
          simp only [obstacle?, hd, Option.isSome_none, Bool.false_eq_true, if_false] at ho
          cases hm : d.mayWrite with
          | false => simp [hm] at ho
          | true =>
            cases hb : d.blocked with
            | some fault => simp [hm, hb] at ho
            | none =>
              by_cases hobs : d.observed = true
              · simp [hm, hb, hobs] at ho
              · simpa using hobs

/-! ## Scripts -/

section
variable {α : Type}

theorem exec_around (c : Connection) (s : Script α) : (c.exec s).connection.around = c.around := by
  induction s generalizing c with
  | done value => rfl
  | fail failure => rfl
  | look table next ih =>
    unfold exec
    split
    · exact ih _ c.succeeded
    · rfl
  | write w next ih =>
    unfold exec
    rcases write_cases c w with ⟨failure, c', hw, -, hu, -⟩ | ⟨rows, c', hw, -, -, ha, -⟩
    · simpa only [hw] using hu.around
    · simpa only [hw] using (ih rows c').trans ha
  | note n next ih => exact ih c

/-- Inside a transaction nothing of a run can be seen from outside. -/
theorem exec_unseen {c : Connection} {db : Database} (h : c.working = some db) (s : Script α) :
    c.Unseen (c.exec s).connection := by
  induction s generalizing c db with
  | done value => exact .refl c
  | fail failure => exact .refl c
  | look table next ih =>
    unfold exec
    split
    · have hs : c.Unseen c.succeeded := ⟨rfl, rfl⟩
      exact hs.trans (ih _ h)
    · exact ⟨rfl, rfl⟩
  | write w next ih =>
    unfold exec
    rcases write_cases c w with ⟨failure, c', hw, -, hu, -⟩ | ⟨rows, c', hw, -, -, ha, db', -, hk, hc⟩
    · simpa only [hw] using hu
    · simp only [h, Option.map_some, Option.isSome_some, if_true] at hk hc
      simpa only [hw] using Unseen.trans ⟨hc, ha⟩ (ih rows hk)
  | note n next ih => exact ih h

theorem exec_of_ok {c : Connection} {db : Database} (h : c.working = some db) {s : Script α}
    {value : α} (hr : (c.exec s).result = .ok value) :
    ∃ db', s.eval db = (.ok value, db') ∧ (c.exec s).connection.working = some db' := by
  induction s generalizing c db with
  | done a =>
    simp only [exec, Except.ok.injEq] at hr
    exact ⟨db, by rw [hr]; rfl, h⟩
  | fail failure => simp [exec] at hr
  | look table next ih =>
    unfold exec at hr ⊢
    simp only [Script.eval, view_of_working h] at hr ⊢
    split at hr
    · rename_i ht
      simp only [ht, if_true]
      exact ih _ (c := c.succeeded) h hr
    · simp at hr
  | write w next ih =>
    unfold exec at hr ⊢
    rcases write_cases c w with ⟨failure, c', hw, -⟩ | ⟨rows, c', hw, ht, hs, -, db', hrun, hk, -⟩
    · simp [hw] at hr
    · rw [view_of_working h] at ht hrun
      simp only [h, Option.map_some] at hk
      simp only [hw] at hr ⊢
      simp only [Script.eval, ht, hs, hrun]
      exact ih rows hk hr
  | note n next ih => exact ih h hr

theorem eval_of_exec {c : Connection} {s : Script α} {value : α} (hr : (c.exec s).result = .ok value) :
    s.eval c.view = (.ok value, (c.exec s).connection.view) := by
  induction s generalizing c with
  | done a =>
    cases hr
    rfl
  | fail failure => cases hr
  | look table next ih =>
    unfold exec at hr ⊢
    unfold Script.eval
    split at hr
    · rename_i ht
      simp only [ht, if_true]
      exact ih _ (c := c.succeeded) hr
    · cases hr
  | write w next ih =>
    unfold exec at hr ⊢
    unfold Script.eval
    rcases c.write_cases w with ⟨failure, d, hw, -⟩ | ⟨rows, d, hw, hwrote⟩
    · rw [hw] at hr
      cases hr
    · simp only [hw] at hr ⊢
      simp only [hwrote.1, hwrote.2.1, hwrote.run]
      exact ih rows hr
  | note n next ih => exact ih (c := c) hr

theorem fails_of_exec {c : Connection} {s : Script α} {failure : Failure}
    (hr : (c.exec s).result = .error failure) :
    failure.FromStatement ∨ (s.eval c.view).1 = .error failure := by
  induction s generalizing c with
  | done a => cases hr
  | fail f =>
    cases hr
    exact .inr rfl
  | look table next ih =>
    unfold exec at hr
    unfold Script.eval
    split at hr
    · rename_i ht
      simp only [ht, if_true]
      exact ih _ (c := c.succeeded) hr
    · cases hr
      exact .inl trivial
  | write w next ih =>
    unfold exec at hr
    unfold Script.eval
    rcases c.write_cases w with ⟨f, d, hw, hf, -⟩ | ⟨rows, d, hw, hwrote⟩
    · rw [hw] at hr
      cases hr
      exact .inl hf
    · simp only [hw] at hr
      simp only [hwrote.1, hwrote.2.1, hwrote.run]
      exact ih rows hr
  | note n next ih => exact ih (c := c) hr

theorem exec_of_error {c : Connection} {db : Database} (h : c.working = some db) {s : Script α}
    {failure : Failure} (hr : (c.exec s).result = .error failure) :
    failure.FromStatement ∨ (s.eval db).1 = .error failure := by
  rw [← view_of_working h]
  exact fails_of_exec hr

/-! ## Beginning and ending -/

theorem open?_cases (c : Connection) :
    (∃ fault c', c.open? = (some fault, c') ∧ c.Unseen c' ∧ c'.working = c.working) ∨
      ∃ c', c.open? = (none, c') ∧ c.Unseen c' ∧ c.working = none ∧ c'.working = some c.committed := by
  unfold open?
  simp only
  split
  · exact .inl ⟨_, _, rfl, ⟨rfl, rfl⟩, rfl⟩
  · split
    · exact .inl ⟨_, _, rfl, ⟨rfl, rfl⟩, rfl⟩
    · rename_i h
      refine .inr ⟨_, rfl, ⟨rfl, rfl⟩, ?_, rfl⟩
      cases hk : c.working with
      | none => rfl
      | some db => simp [ask, hk] at h

theorem commit_cases (c : Connection) :
    (∃ fault c', c.commit = (some fault, c') ∧ c.Unseen c' ∧ c'.working = c.working) ∨
      ∃ db c', c.commit = (none, c') ∧ c.working = some db ∧ c'.working = none ∧
        c'.committed = db ∧ c'.around = c.around := by
  unfold commit
  simp only
  split
  · exact .inl ⟨_, _, rfl, ⟨rfl, rfl⟩, rfl⟩
  · split
    · exact .inl ⟨_, _, rfl, ⟨rfl, rfl⟩, rfl⟩
    · split
      · exact .inl ⟨_, _, rfl, ⟨rfl, rfl⟩, rfl⟩
      · rename_i db h _
        exact .inr ⟨db, _, rfl, h, rfl, rfl, rfl⟩

theorem blocked_of_open {c : Connection} (h : c.open?.1 = none) : c.blocked = none := by
  unfold open? at h
  simp only at h
  split at h
  · cases h
  · split at h
    · cases h
    · rename_i hb
      cases hw : c.working with
      | none => simpa [ask, hw] using hb
      | some db => simp [ask, hw] at hb

theorem observed_of_commit {c : Connection} (h : c.commit.1 = none) (hw : c.mayWrite = true) :
    c.observed = false := by
  unfold commit at h
  simp only at h
  split at h
  · cases h
  · split at h
    · cases h
    · split at h
      · cases h
      · rename_i ho
        simpa [ask, hw] using ho

theorem rollback_unseen (c : Connection) : c.Unseen c.rollback.2 := by
  unfold rollback
  split
  · exact .refl c
  · simp only
    split <;> exact ⟨rfl, rfl⟩

/-! ## Transactions -/

/-- A transaction fails and commits nothing, or commits what its body does to the committed
database. -/
theorem transact_cases (c : Connection) {op : Operation α} (hr : op.refusal = none) :
    (∃ failure : Failure, (failure.FromStatement ∨ (op.body.eval c.committed).1 = .error failure) ∧
      (c.transact op).result = (op.recover failure.leaving).result ∧
      c.Unseen (c.transact op).connection) ∨
    ∃ last db, op.body.eval c.committed = (.ok last, db) ∧ (c.transact op).result = last.result ∧
      (c.transact op).connection.committed = db ∧ (c.transact op).connection.around = c.around ∧
      ∃ d, c.open? = (none, d) ∧ (d.exec op.body).result = .ok last ∧
        (d.exec op.body).connection.commit.1 = none := by
  unfold transact
  simp only [hr]
  rcases open?_cases c with ⟨fault, c₁, ho, hu, -⟩ | ⟨c₁, ho, hu, -, hw⟩
  · refine .inl ⟨.engine fault, .inl trivial, ?_⟩
    simp only [ho]
    exact ⟨rfl, hu.trans (rollback_unseen c₁)⟩
  · simp only [ho]
    have he := hu.trans (exec_unseen hw op.body)
    cases hx : (c₁.exec op.body).result with
    | error failure =>
      refine .inl ⟨failure, ?_, rfl, he.trans (rollback_unseen _)⟩
      exact exec_of_error hw hx
    | ok last =>
      obtain ⟨db, hb, hk⟩ := exec_of_ok hw hx
      simp only
      rcases commit_cases (c₁.exec op.body).connection with
        ⟨fault, c₂, hc, hu₂, -⟩ | ⟨db', c₂, hc, hd, -, hcom, ha⟩
      · simp only [hc]
        exact .inl ⟨.engine fault, .inl trivial, rfl, (he.trans hu₂).trans (rollback_unseen c₂)⟩
      · simp only [hc]
        rw [hk, Option.some.injEq] at hd
        exact .inr ⟨last, db, hb, rfl, hcom.trans hd.symm, ha.trans he.around, c₁, rfl, hx,
          by rw [hc]⟩

theorem transact_around (c : Connection) (op : Operation α) :
    (c.transact op).connection.around = c.around := by
  cases hr : op.refusal with
  | some failure => simp [transact, hr]
  | none =>
    rcases transact_cases c hr with ⟨_, -, -, hu⟩ | ⟨_, _, -, -, -, ha, -⟩
    · exact hu.around
    · exact ha

theorem join_connection (c : Connection) {op : Operation α} (hr : op.refusal = none) :
    (c.join op).connection = (c.exec op.body).connection := by
  unfold join
  rw [hr]
  simp only
  split <;> rfl

theorem join_around (c : Connection) (op : Operation α) :
    (c.join op).connection.around = c.around := by
  cases hr : op.refusal with
  | some failure => simp [join, hr]
  | none => rw [join_connection c hr, exec_around]

/-! ## Calm connections -/

/-- A transaction in which no statement can fail but by what it says. -/
structure Steady (c : Connection) : Prop where
  refusals : c.refusals = []
  mayWrite : c.mayWrite = true
  lastFault : c.lastFault = none

theorem ask_of_none {c : Connection} (h : c.refusals = []) (verb : Verb) :
    c.ask verb = (false, c) := by
  cases c
  simp only at h
  subst h
  rfl

theorem preparing_of_none {c : Connection} (h : c.lastFault = none) (w : Write) :
    (c.preparing w).lastFault = none := by
  unfold preparing
  split
  · simp [h]
  · rfl

theorem steady_store {c : Connection} (hs : c.Steady) (w : Write) (db : Database) :
    ((c.preparing w).succeeded.store db).Steady := by
  have hp : (c.preparing w).refusals = c.refusals ∧ (c.preparing w).mayWrite = c.mayWrite := by
    unfold preparing
    split <;> exact ⟨rfl, rfl⟩
  unfold store
  split <;> exact ⟨hp.1.trans hs.refusals, hp.2.trans hs.mayWrite, rfl⟩

theorem write_of_steady {c : Connection} {db : Database} (h : c.working = some db) (hs : c.Steady)
    (w : Write) :
    c.write w =
      if !db.has w.table then
        (.error (.engine (.missingTable w.table)), c.failed (.missingTable w.table))
      else if !w.storable then (.error .oversized, c.preparing w)
      else
        match w.run db with
        | .ok (rows, db) => (.ok rows, (c.preparing w).succeeded.store db)
        | .error fault => (.error (.engine fault), { (c.preparing w).failed fault with working := none }) := by
  have hv : (c.preparing w).view = db := view_of_working ((preparing_working c w).trans h)
  have hf := preparing_of_none hs.lastFault w
  have hm : (c.preparing w).mayWrite = true := by
    have := congrArg (·.2.2) (preparing_unseen c w).around
    exact this.trans hs.mayWrite
  have ho : (c.preparing w).obstacle? = none := by
    simp [obstacle?, hm, preparing_working, h]
  unfold write
  simp only [ask_of_none hs.refusals, view_of_working h, Bool.false_eq_true, if_false]
  cases db.has w.table with
  | false => rfl
  | true =>
    cases w.storable with
    | false => simp [hf]
    | true => cases hrun : w.run db <;> simp [ho, hv, hrun]

theorem exec_of_steady {c : Connection} {db : Database} (h : c.working = some db) (hs : c.Steady)
    (s : Script α) :
    (c.exec s).result = (s.eval db).1 ∧
      ∀ value, (s.eval db).1 = .ok value → (c.exec s).connection.Steady := by
  induction s generalizing c db with
  | done a => exact ⟨rfl, fun _ _ => hs⟩
  | fail failure => exact ⟨rfl, fun _ hv => by simp [Script.eval] at hv⟩
  | look table next ih =>
    unfold exec
    simp only [Script.eval, view_of_working h]
    split
    · exact ih _ (c := c.succeeded) h ⟨hs.refusals, hs.mayWrite, rfl⟩
    · exact ⟨rfl, fun _ hv => by simp at hv⟩
  | write w next ih =>
    unfold exec
    simp only [Script.eval, write_of_steady h hs]
    cases ht : db.has w.table with
    | false => simp
    | true =>
      cases hw : w.storable with
      | false => simp
      | true =>
        cases hrun : w.run db with
        | error fault => simp
        | ok p =>
          obtain ⟨rows, db'⟩ := p
          have hk : ((c.preparing w).succeeded.store db').working = some db' := by
            rw [store_working, show (c.preparing w).succeeded.working = some db from
              (preparing_working c w).trans h]
            rfl
          exact ih rows hk (steady_store hs w db')
  | note n next ih => exact ih h hs

theorem open?_of_calm {c : Connection} (hc : c.Calm) :
    ∃ d, c.open? = (none, d) ∧ c.Unseen d ∧ d.working = some c.committed ∧ d.Steady := by
  refine ⟨{ c.succeeded with working := some c.committed }, ?_, ⟨rfl, rfl⟩, rfl, ?_⟩
  · simp [open?, ask_of_none hc.refusals, hc.working, hc.blocked]
  · exact ⟨hc.refusals, hc.mayWrite, rfl⟩

theorem transact_calm {c : Connection} (hc : c.Calm) (op : Operation α) :
    (c.transact op).result = (op.alone c.committed).1 ∧
      (c.transact op).connection.committed = (op.alone c.committed).2 := by
  unfold transact Operation.alone
  cases op.refusal with
  | some failure => exact ⟨rfl, rfl⟩
  | none =>
    obtain ⟨d, ho, hd, hw, hs⟩ := open?_of_calm hc
    simp only [ho]
    obtain ⟨hx, hst⟩ := exec_of_steady hw hs op.body
    have hu := hd.trans (exec_unseen hw op.body)
    cases he : op.body.eval c.committed with
    | mk result db =>
      rw [he] at hx hst
      cases result with
      | error failure =>
        simp only at hx
        simp only [hx]
        exact ⟨rfl, (hu.trans (rollback_unseen _)).committed⟩
      | ok last =>
        simp only at hx
        obtain ⟨db', hb, hk⟩ := exec_of_ok hw hx
        have hst' := hst last rfl
        have hobs : (d.exec op.body).connection.observed = false :=
          (congrArg (·.2.1) hu.around).trans hc.observed
        rw [he, Prod.mk.injEq] at hb
        simp only [hx, commit, ask_of_none hst'.refusals, hk, hobs, Bool.and_false]
        exact ⟨rfl, hb.2.symm⟩

/-! ## What is left of a transaction -/

theorem write_refusals {c : Connection} (h : c.refusals = []) (w : Write) :
    (c.write w).2.refusals = [] := by
  have hp : (c.preparing w).refusals = [] := by
    unfold preparing
    split <;> exact h
  unfold write
  simp only [ask_of_none h, Bool.false_eq_true, if_false]
  split
  · exact h
  · split
    · exact hp
    · split
      · exact hp
      · split
        · unfold store
          split <;> exact hp
        · exact hp

theorem exec_refusals {c : Connection} (h : c.refusals = []) (s : Script α) :
    (c.exec s).connection.refusals = [] := by
  induction s generalizing c with
  | done a => exact h
  | fail failure => exact h
  | look table next ih =>
    unfold exec
    split
    · exact ih _ (c := c.succeeded) h
    · exact h
  | write w next ih =>
    have hw := write_refusals h w
    unfold exec
    split
    · rename_i rows c' heq
      rw [heq] at hw
      exact ih rows hw
    · rename_i failure c' heq
      rw [heq] at hw
      exact hw
  | note n next ih => exact ih h

theorem commit_refusals {c : Connection} (h : c.refusals = []) : c.commit.2.refusals = [] := by
  unfold commit
  simp only [ask_of_none h, Bool.false_eq_true, if_false]
  split
  · exact h
  · split <;> exact h

theorem rollback_of_none {c : Connection} (h : c.refusals = []) :
    c.rollback.2.working = none ∧ c.rollback.2.refusals = [] := by
  unfold rollback
  split
  · rename_i hw
    exact ⟨hw, h⟩
  · rw [ask_of_none h]
    exact ⟨rfl, h⟩

theorem transact_keeps_calm {c : Connection} (hc : c.Calm) (op : Operation α) :
    (c.transact op).connection.Calm := by
  have ha := transact_around c op
  simp only [around, Prod.mk.injEq] at ha
  have key : (c.transact op).connection.working = none ∧
      (c.transact op).connection.refusals = [] := by
    unfold transact
    cases op.refusal with
    | some failure => exact ⟨hc.working, hc.refusals⟩
    | none =>
      obtain ⟨d, ho, -, -, hs⟩ := open?_of_calm hc
      have hx := exec_refusals hs.refusals op.body
      simp only [ho]
      cases (d.exec op.body).result with
      | error failure => exact rollback_of_none hx
      | ok last =>
        have hcr := commit_refusals hx
        rcases commit_cases (d.exec op.body).connection with
          ⟨fault, c', hcom, -⟩ | ⟨db, c', hcom, -, hw, -⟩
        · rw [hcom] at hcr
          simp only [hcom]
          exact rollback_of_none hcr
        · rw [hcom] at hcr
          simp only [hcom]
          exact ⟨hw, hcr⟩
  exact ⟨key.1, key.2, ha.1.trans hc.blocked, ha.2.1.trans hc.observed, ha.2.2.trans hc.mayWrite⟩

end

end Connection

end PubSub
