import PubSub.Proofs.Atomicity

/-!
# The writes of a run

The writes that a run executes without an error, each with the connection before
and after it. `Goes` says how a connection becomes another one by some writes: as
long as a transaction is open, the file stays as it was and the own copy is the
result of all writes. A database that has no number left for a new row gives the
whole transaction up. Later writes then go to the file at once, and those that
change it are the strays.
-/

namespace PubSub

/-! ## Many writes -/

namespace Database

def writeAll (db : Database) : List Write → Except Fault Database
  | [] => .ok db
  | w :: writes =>
    match w.run db with
    | .ok (_, db) => db.writeAll writes
    | .error fault => .error fault

theorem writeAll_append {db db' : Database} {writes : List Write}
    (h : db.writeAll writes = .ok db') (more : List Write) :
    db.writeAll (writes ++ more) = db'.writeAll more := by
  induction writes generalizing db with
  | nil =>
    cases h
    rfl
  | cons w writes ih =>
    simp only [List.cons_append, writeAll] at h ⊢
    cases hrun : w.run db with
    | error fault => simp [hrun] at h
    | ok p =>
      rw [hrun] at h
      exact ih h

theorem run_lastMember {w : Write} {db db' : Database} {rows : Nat}
    (h : w.run db = .ok (rows, db')) : db'.lastMember ≤ db.lastMember + 1 := by
  cases w with
  | addMember new =>
    simp only [Write.run, addMember] at h
    split at h
    · cases h
    · split at h <;> cases h <;> exact Nat.le_refl _
  | _ =>
    cases h
    exact Nat.le_succ _

theorem writeAll_lastMember {db db' : Database} {writes : List Write}
    (h : db.writeAll writes = .ok db') : db'.lastMember ≤ db.lastMember + writes.length := by
  induction writes generalizing db with
  | nil =>
    cases h
    exact Nat.le_refl _
  | cons w writes ih =>
    simp only [writeAll] at h
    split at h
    · rename_i rows d hrun
      have := run_lastMember hrun
      have := ih h
      simp only [List.length_cons]
      omega
    · cases h

theorem run_error {w : Write} {db : Database} {fault : Fault} (h : w.run db = .error fault) :
    lastId ≤ db.lastMember := by
  cases w with
  | addMember new =>
    simp only [Write.run, addMember] at h
    split at h
    · assumption
    · split at h <;> cases h
  | _ => cases h

end Database

/-! ## Effects -/

/-- A write that was executed, and the connection before and after it. -/
structure Effect where
  write : Write
  before : Connection
  after : Connection

/-- A write that changed the file with no transaction open. -/
def Effect.Strays (e : Effect) : Prop :=
  e.before.working = none ∧ e.after.committed ≠ e.before.committed

def writesOf (effects : List Effect) : List Write := effects.map (·.write)

theorem writesOf_append (es es' : List Effect) :
    writesOf (es ++ es') = writesOf es ++ writesOf es' := List.map_append

namespace Connection

def effects {α : Type} (c : Connection) : Script α → List Effect
  | .done _ | .fail _ => []
  | .look table next => if c.view.has table then c.succeeded.effects (next c.view) else []
  | .write w next =>
    match c.write w with
    | (.ok rows, d) => ⟨w, c, d⟩ :: d.effects (next rows)
    | (.error _, _) => []
  | .note _ next => c.effects next

/-- A transaction is lost by a write only where the numbers of the memberships have run out. -/
theorem write_loses {c : Connection} {db : Database} (h : c.working = some db) {w : Write}
    (hw : (c.write w).2.working = none) : Database.lastId ≤ db.lastMember := by
  have hp : ((c.ask w.verb).2.preparing w).working = some db :=
    (preparing_working (c.ask w.verb).2 w).trans h
  have hv : ((c.ask w.verb).2.preparing w).view = db := view_of_working hp
  unfold write at hw
  simp only at hw
  generalize (c.ask w.verb).2.preparing w = d at hp hv hw
  split at hw
  · rw [show (c.ask w.verb).2.working = some db from h] at hw
    cases hw
  · split at hw
    · rw [show ((c.ask w.verb).2.failed _).working = some db from h] at hw
      cases hw
    · split at hw
      · rw [hp] at hw
        cases hw
      · split at hw
        · rw [show (d.failed _).working = some db from hp] at hw
          cases hw
        · split at hw
          · rw [store_working, show d.succeeded.working = some db from hp] at hw
            cases hw
          · rename_i hrun
            rw [hv] at hrun
            exact Database.run_error hrun

/-! ## From one connection to the next -/

/-- How a connection can come to be another one by some writes. -/
structure Goes (c c' : Connection) (es : List Effect) : Prop where
  around : c'.around = c.around
  reads : c.mayWrite = false → es = []
  kept : (∀ e ∈ es, e.after.committed = c.committed) ↔ ∀ e ∈ es, ¬e.Strays
  committed : (∀ e ∈ es, ¬e.Strays) → c'.committed = c.committed
  whole : ∀ db', c'.working = some db' → (∀ e ∈ es, ¬e.Strays) ∧
    ∃ db, c.working = some db ∧ db.writeAll (writesOf es) = .ok db'
  room : ∀ db, c.working = some db → db.lastMember + es.length < Database.lastId →
    c'.working ≠ none

section
variable {c c' c'' : Connection} {es es' : List Effect}

theorem Goes.unseen (hu : c.Unseen c') (hw : c'.working = c.working) : Goes c c' [] where
  around := hu.around
  reads _ := rfl
  kept := by simp
  committed _ := hu.committed
  whole db' hdb := ⟨by simp, db', hw.symm.trans hdb, rfl⟩
  room db hdb _ := by simp [hw, hdb]

theorem Goes.failed {w : Write} {failure : Failure} (hw : c.write w = (.error failure, c'))
    (hf : c.Failed c' failure) : Goes c c' [] := by
  obtain ⟨-, hu, hk | hk⟩ := hf
  · exact .unseen hu hk
  · refine ⟨hu.around, fun _ => rfl, by simp, fun _ => hu.committed, fun db' hdb => ?_,
      fun db hdb hr => ?_⟩
    · rw [hk] at hdb
      cases hdb
    · have hlost := write_loses hdb (w := w) (by rw [hw, hk])
      simp only [List.length_nil] at hr
      omega

theorem Goes.wrote {w : Write} {rows : Nat} (hwrite : c.write w = (.ok rows, c'))
    (hw : c.Wrote c' w rows) : Goes c c' [⟨w, c, c'⟩] := by
  obtain ⟨-, -, ha, db', hrun, hk, hc⟩ := hw
  have hstray : ¬Effect.Strays ⟨w, c, c'⟩ ↔ c'.committed = c.committed := by
    unfold Effect.Strays
    cases hw : c.working with
    | none => simp
    | some db => simpa [hw] using hc
  refine ⟨ha, fun hr => ?_, by simp [hstray], by simp [hstray], fun db hdb => ?_, fun db hdb _ => ?_⟩
  · rcases write_cases_of_reader hr w with ⟨failure, d, he⟩
    rw [hwrite] at he
    cases he
  · obtain ⟨old, hold, rfl⟩ := Option.map_eq_some_iff.mp (hk.symm.trans hdb)
    rw [view_of_working hold] at hrun
    refine ⟨by simpa [hstray, hold] using hc, old, hold, ?_⟩
    simp [writesOf, Database.writeAll, hrun]
  · simp [hk, hdb]

theorem Goes.trans (h : Goes c c' es) (h' : Goes c' c'' es') : Goes c c'' (es ++ es') := by
  have hall : ∀ P : Effect → Prop,
      (∀ e ∈ es ++ es', P e) ↔ (∀ e ∈ es, P e) ∧ ∀ e ∈ es', P e := by
    intro P
    simp [or_imp, forall_and]
  refine ⟨h'.around.trans h.around, fun hr => ?_, ?_, ?_, fun db'' hdb => ?_, fun db hdb hr => ?_⟩
  · have hr' : c'.mayWrite = false := (congrArg (·.2.2) h.around).trans hr
    rw [h.reads hr, h'.reads hr', List.append_nil]
  · rw [hall, hall, h.kept]
    exact and_congr_right fun hs => by rw [← h'.kept, h.committed hs]
  · rw [hall]
    exact fun ⟨hs, hs'⟩ => (h'.committed hs').trans (h.committed hs)
  · obtain ⟨hs', db', hdb', hw'⟩ := h'.whole db'' hdb
    obtain ⟨hs, db, hdb, hw⟩ := h.whole db' hdb'
    refine ⟨(hall _).mpr ⟨hs, hs'⟩, db, hdb, ?_⟩
    rw [writesOf_append, Database.writeAll_append hw, hw']
  · rw [List.length_append] at hr
    obtain ⟨db', hdb'⟩ := Option.ne_none_iff_exists'.mp (h.room db hdb (by omega))
    obtain ⟨-, db₀, hdb₀, hw⟩ := h.whole db' hdb'
    rw [hdb, Option.some.injEq] at hdb₀
    subst hdb₀
    have hmost := Database.writeAll_lastMember hw
    rw [writesOf, List.length_map] at hmost
    exact h'.room db' hdb' (by omega)

theorem goes_exec {α : Type} (c : Connection) (s : Script α) :
    Goes c (c.exec s).connection (c.effects s) := by
  induction s generalizing c with
  | done value => exact .unseen (.refl c) rfl
  | fail failure => exact .unseen (.refl c) rfl
  | look table next ih =>
    unfold exec effects
    split
    · have hs : c.Goes c.succeeded [] := .unseen ⟨rfl, rfl⟩ rfl
      exact hs.trans (ih _ c.succeeded)
    · exact .unseen ⟨rfl, rfl⟩ rfl
  | write w next ih =>
    unfold exec effects
    rcases write_cases c w with ⟨failure, d, hw, hf⟩ | ⟨rows, d, hw, hd⟩
    · simpa only [hw] using Goes.failed hw hf
    · simp only [hw]
      exact (Goes.wrote hw hd).trans (ih rows d)
  | note n next ih => exact ih c

theorem unseen_open (h : c.open? = (none, c')) :
    c.Unseen c' ∧ c'.working = some c.committed := by
  rcases c.open?_cases with ⟨fault, d, ho, -⟩ | ⟨d, ho, hu, -, hw⟩
  · rw [h] at ho
    cases ho
  · rw [h] at ho
    cases ho
    exact ⟨hu, hw⟩

theorem settle_cases (c : Connection) (outcome : Option Failure) :
    ((World.settle c outcome).2.2 = none ∧ c.commit.1 = none ∧
      c.working = some (World.settle c outcome).1.committed) ∨
    ((∃ failure, (World.settle c outcome).2.2 = some failure) ∧
      (World.settle c outcome).1.committed = c.committed) := by
  cases outcome with
  | some failure => exact .inr ⟨⟨_, rfl⟩, (rollback_unseen c).committed⟩
  | none =>
    unfold World.settle
    rcases commit_cases c with ⟨fault, d, hc, hu, -⟩ | ⟨db, d, hc, hw, -, hd, -⟩
    · simp only [hc]
      exact .inr ⟨⟨_, rfl⟩, (hu.trans (rollback_unseen d)).committed⟩
    · simp only [hc]
      exact .inl ⟨trivial, trivial, hd ▸ hw⟩

end

end Connection

/-! ## Calls on a handle -/

namespace Handle

def effects {α : Type} (h : Handle) (op : Operation α) : List Effect :=
  match op.refusal with
  | some _ => []
  | none =>
    if h.entered then h.connection.effects op.body
    else
      match h.connection.open? with
      | (some _, _) => []
      | (none, c) => c.effects op.body

/-- Those of them that the end of the operation does not take back: all of them, unless the
operation has a transaction of its own and fails. -/
def lasting {α : Type} (h : Handle) (op : Operation α) : List Effect :=
  if h.entered || (h.perform op).result.toBool then h.effects op else []

theorem goes_perform {α : Type} {h : Handle} (he : h.entered = true) (op : Operation α) :
    h.connection.Goes (h.perform op).connection (h.effects op) := by
  unfold perform effects
  cases hr : op.refusal with
  | some failure => simpa [he, Connection.join, hr] using .unseen (.refl h.connection) rfl
  | none =>
    simp only [he, if_true, Connection.join_connection _ hr]
    exact Connection.goes_exec h.connection op.body

theorem writeAll_perform {h : Handle} (he : h.entered = false) (call : Call) :
    h.connection.committed.writeAll (writesOf (h.lasting call.operation)) =
      .ok (h.perform call.operation).connection.committed := by
  have hp : h.perform call.operation = h.connection.transact call.operation := by
    simp [perform, he]
  have hnone : ∀ {failure}, (h.connection.transact call.operation).result = .error failure →
      (h.connection.transact call.operation).connection.committed = h.connection.committed →
      h.connection.committed.writeAll (writesOf (h.lasting call.operation)) =
        .ok (h.connection.transact call.operation).connection.committed := by
    intro failure hf hc
    rw [hc, lasting, hp, hf, he]
    rfl
  rw [hp]
  cases hr : call.operation.refusal with
  | some failure =>
    have ht : h.connection.transact call.operation = ⟨h.connection, [], .error failure⟩ := by
      unfold Connection.transact
      rw [hr]
    exact hnone (congrArg Run.result ht) (congrArg (fun run => run.connection.committed) ht)
  | none =>
    rcases h.connection.transact_cases hr with
      ⟨failure, hf, hres, hu⟩ | ⟨last, db, hb, hres, hcom, -, d, ho, hx, -⟩
    · exact hnone (hres.trans (call.recover_fails (hf.imp_right fun h => ⟨_, h⟩))) hu.committed
    · cases hl : last.result with
      | error failure =>
        refine hnone (hres.trans hl) ?_
        rw [hcom, Call.eval_of_error hb hl]
      | ok reply =>
        have hw : h.lasting call.operation = d.effects call.operation.body := by
          simp [lasting, effects, he, hp, hres, hl, hr, ho, Except.toBool]
        obtain ⟨-, hk⟩ := Connection.unseen_open ho
        obtain ⟨db', hb', hk'⟩ := Connection.exec_of_ok hk hx
        rw [hb] at hb'
        cases hb'
        obtain ⟨-, start, hs, hall⟩ := (d.goes_exec call.operation.body).whole db hk'
        rw [hk, Option.some.injEq] at hs
        rw [hw, hcom, hs, hall]

theorem effects_of_reader {α : Type} {h : Handle} (hr : h.connection.mayWrite = false)
    (op : Operation α) : h.effects op = [] := by
  unfold effects
  cases op.refusal with
  | some failure => rfl
  | none =>
    simp only
    split
    · exact (Connection.goes_exec h.connection op.body).reads hr
    · split
      · rfl
      · rename_i d ho
        have hd := (Connection.unseen_open ho).1.around
        exact (d.goes_exec op.body).reads ((congrArg (·.2.2) hd).trans hr)

/-- A call outside every block writes nothing that lasts while another connection is inside a
transaction. -/
theorem lasting_of_held {h : Handle} (he : h.entered = false)
    (hb : h.connection.mayWrite = true → h.connection.blocked ≠ none ∨ h.connection.observed = true)
    (call : Call) : h.lasting call.operation = [] := by
  cases hm : h.connection.mayWrite with
  | false => simp [lasting, effects_of_reader hm]
  | true =>
    cases hr : call.operation.refusal with
    | some failure => simp [lasting, effects, hr]
    | none =>
      cases ho : h.connection.open? with
      | mk fault? d =>
        cases fault? with
        | some fault => simp [lasting, effects, hr, he, ho]
        | none =>
          have hfree := Connection.blocked_of_open (c := h.connection) (by rw [ho])
          have hobs := (hb hm).resolve_left fun hn => hn hfree
          rcases h.connection.transact_cases hr with
            ⟨failure, hf, hres, -⟩ | ⟨_, _, -, -, -, -, d', ho', -, hcom⟩
          · have := hres.trans (call.recover_fails (hf.imp_right fun h => ⟨_, h⟩))
            simp [lasting, perform, he, this, Except.toBool]
          · have ha : (d'.exec call.operation.body).connection.around = h.connection.around :=
              (d'.exec_around _).trans (Connection.unseen_open ho').1.around
            have hno := Connection.observed_of_commit hcom ((congrArg (·.2.2) ha).trans hm)
            rw [show (d'.exec call.operation.body).connection.observed = true from
              (congrArg (·.2.1) ha).trans hobs] at hno
            cases hno

end Handle

end PubSub
