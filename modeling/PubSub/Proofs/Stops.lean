import PubSub.Proofs.Bodies
import PubSub.Proofs.Locks

/-!
# Where scripts stop

A statement that is refused stops a script between two others, and a block that takes
the failure in goes on with what was written before. What every call keeps up to each
of its stops, calls and blocks keep in any order (`Holds.follow`).
-/

namespace PubSub

namespace Script

section
variable {α β : Type}

/-- The script comes from one database to another and is left there: at its end, at a failure, or
because the next statement is refused. -/
inductive Stops : Script α → Database → Database → Prop where
  | here (s : Script α) (db : Database) : Stops s db db
  | look {table : Table} {next : Database → Script α} {db db' : Database}
    (h : Stops (next db) db db') : Stops (.look table next) db db'
  | write {w : Write} {next : Nat → Script α} {rows : Nat} {db db₁ db' : Database}
    (hs : w.storable = true) (hrun : w.run db = .ok (rows, db₁)) (h : Stops (next rows) db₁ db') :
    Stops (.write w next) db db'
  | note {n : Note} {next : Script α} {db db' : Database} (h : Stops next db db') :
    Stops (.note n next) db db'

theorem stops_eval (s : Script α) (db : Database) : s.Stops db (s.eval db).2 := by
  induction s generalizing db with
  | done value => exact .here _ db
  | fail failure => exact .here _ db
  | look table next ih =>
    simp only [eval]
    split
    · exact .look (ih db db)
    · exact .here _ db
  | write w next ih =>
    simp only [eval]
    split
    · exact .here _ db
    · split
      · exact .here _ db
      · rename_i hs
        split
        · rename_i hrun
          exact .write (by simpa using hs) hrun (ih _ _)
        · exact .here _ db
  | note n next ih => exact .note (ih db)

theorem Only.stops {P : Write → Prop} {I : Database → Prop} {s : Script α} (hs : s.Only P)
    (hP : ∀ w, P w → ∀ db rows db', I db → w.run db = .ok (rows, db') → I db') {db db' : Database}
    (h : s.Stops db db') (hI : I db) : I db' := by
  induction h with
  | here s db => exact hI
  | look h ih => exact ih (hs _) hI
  | write _ hrun h ih => exact ih (hs.2 _) (hP _ hs.1 _ _ _ hI hrun)
  | note h ih => exact ih hs hI

end

end Script

/-! ## Calls and blocks on a store -/

structure Connection.Has (I : Database → Prop) (c : Connection) : Prop where
  committed : I c.committed
  working : ∀ db, c.working = some db → I db

namespace Connection

section
variable {α : Type} {I : Database → Prop} {c c' : Connection}

theorem Has.view (h : c.Has I) : I c.view := by
  unfold Connection.view
  cases hw : c.working with
  | none => exact h.committed
  | some db => exact h.working db hw

theorem Has.unseen (h : c.Has I) (hu : c.Unseen c') (hw : c'.working = c.working ∨ c'.working = none) :
    c'.Has I := by
  refine ⟨hu.committed ▸ h.committed, fun db hdb => ?_⟩
  rcases hw with hw | hw
  · exact h.working db (hw ▸ hdb)
  · rw [hw] at hdb
    cases hdb

theorem rollback_working (c : Connection) :
    c.rollback.2.working = c.working ∨ c.rollback.2.working = none := by
  unfold rollback
  split
  · exact .inl rfl
  · simp only
    split
    · exact .inl rfl
    · exact .inr rfl

theorem Has.rollback (h : c.Has I) : c.rollback.2.Has I :=
  h.unseen (rollback_unseen c) (rollback_working c)

theorem Has.open? (h : c.Has I) : c.open?.2.Has I := by
  rcases open?_cases c with ⟨fault, d, ho, hu, hw⟩ | ⟨d, ho, hu, -, hw⟩
  · rw [ho]
    exact h.unseen hu (.inl hw)
  · rw [ho]
    refine ⟨hu.committed ▸ h.committed, fun db hdb => ?_⟩
    rw [hw] at hdb
    cases hdb
    exact h.committed

theorem Has.commit (h : c.Has I) : c.commit.2.Has I := by
  rcases commit_cases c with ⟨fault, d, hc, hu, hw⟩ | ⟨db, d, hc, hw, hw', hcom, -⟩
  · rw [hc]
    exact h.unseen hu (.inl hw)
  · rw [hc]
    refine ⟨hcom ▸ h.working db hw, fun db' hdb => ?_⟩
    rw [hw'] at hdb
    cases hdb

theorem Has.write {w : Write} (h : c.Has I)
    (hI : c.mayWrite = true → ∀ rows db, w.storable = true → w.run c.view = .ok (rows, db) → I db) :
    (c.write w).2.Has I := by
  rcases write_cases c w with
    ⟨failure, d, hw, -, hu, hd⟩ | ⟨rows, d, hw, -, hst, -, db, hrun, hk, hc⟩
  · rw [hw]
    exact h.unseen hu hd
  · have hmay : c.mayWrite = true := by
      cases hm : c.mayWrite with
      | true => rfl
      | false =>
        obtain ⟨failure, d', hw'⟩ := write_cases_of_reader hm w
        rw [hw] at hw'
        cases hw'
    have hdb : I db := hI hmay rows db hst hrun
    rw [hw]
    refine ⟨?_, fun db' hdb' => ?_⟩
    · rw [hc]
      split
      · exact h.committed
      · exact hdb
    · rw [hk] at hdb'
      obtain ⟨-, -, rfl⟩ := Option.map_eq_some_iff.mp hdb'
      exact hdb

theorem Has.exec {s : Script α} (h : c.Has I) (hs : ∀ db, s.Stops c.view db → I db) :
    (c.exec s).connection.Has I := by
  induction s generalizing c with
  | done value => exact h
  | fail failure => exact h
  | look table next ih =>
    unfold Connection.exec
    split
    · have hd : c.succeeded.Has I := h.unseen ⟨rfl, rfl⟩ (.inl rfl)
      exact ih _ hd fun db hdb => hs db (.look hdb)
    · exact h.unseen ⟨rfl, rfl⟩ (.inl rfl)
  | write w next ih =>
    have hd : (c.write w).2.Has I :=
      h.write fun _ rows db hst hrun => hs db (.write hst hrun (.here _ _))
    unfold Connection.exec
    rcases write_cases c w with ⟨failure, d, hw, -⟩ | ⟨rows, d, hw, hwrote⟩
    · simpa only [hw] using hd
    · simp only [hw] at hd ⊢
      exact ih rows hd fun db' hdb' => hs db' (.write hwrote.2.1 hwrote.run hdb')
  | note n next ih => exact ih h fun db hdb => hs db (.note hdb)

end

end Connection

/-- What holds where the operation begins holds wherever it stops. -/
def Operation.Keeps {α : Type} (I : Database → Prop) (op : Operation α) : Prop :=
  op.refusal = none → ∀ db db', I db → op.body.Stops db db' → I db'

section
variable {α : Type} {I : Database → Prop} {op : Operation α} (hop : op.Keeps I)

include hop

theorem Connection.Has.transact {c : Connection} (h : c.Has I) : (c.transact op).connection.Has I := by
  unfold Connection.transact
  cases hr : op.refusal with
  | some failure => exact h
  | none =>
    have ho := h.open?
    simp only
    split
    · rename_i fault d heq
      rw [heq] at ho
      exact ho.rollback
    · rename_i d heq
      rw [heq] at ho
      have hx := ho.exec fun db hs => hop hr _ db ho.view hs
      split
      · exact hx.rollback
      · have hc := hx.commit
        split
        · rename_i heq'
          rw [heq'] at hc
          exact hc.rollback
        · rename_i heq'
          rwa [heq'] at hc

theorem Connection.Has.join {c : Connection} (h : c.Has I) : (c.join op).connection.Has I := by
  cases hr : op.refusal with
  | some failure =>
    unfold Connection.join
    rwa [hr]
  | none =>
    rw [join_connection c hr]
    exact h.exec fun db hs => hop hr _ db h.view hs

theorem Handle.has_perform {h : Handle} (hh : h.connection.Has I) : (h.perform op).connection.Has I := by
  unfold perform
  split
  · exact hh.join hop
  · exact hh.transact hop

end

section
variable {I : Database → Prop} {h : Handle} (hh : h.connection.Has I)

include hh

theorem Handle.has_enter : h.enter.1.connection.Has I := by
  have ho := hh.open?
  unfold enter
  split
  · exact hh
  · split
    · rename_i heq
      rwa [heq] at ho
    · rename_i heq
      rw [heq] at ho
      exact ho.rollback

theorem Handle.has_leave (entry : World.Entry) (outcome : Option Failure) :
    (h.leave entry outcome).1.connection.Has I := by
  cases entry with
  | joined => exact hh
  | outermost opening =>
    unfold leave
    simp only
    split
    · exact hh
    · unfold World.settle
      cases outcome with
      | some failure => exact hh.rollback
      | none =>
        have hc := hh.commit
        simp only
        split
        · rename_i heq
          rwa [heq] at hc
        · rename_i heq
          rw [heq] at hc
          exact hc.rollback

end

namespace World

/-- Stores are open, and what the connection of each of them has has a property. -/
def Holds (I : Database → Prop) (w : World) (G : Nat → Prop) : Prop :=
  ∀ k, G k → ∃ h, w.handle? k = some h ∧ h.connection.Has I

/-- The other stores are on other databases. -/
def Secluded (w : World) (G : Nat → Prop) : Prop := ∀ j k, ¬G j → G k → w.Apart j k

section
variable {I : Database → Prop} {w : World} {G : Nat → Prop}

theorem Secluded.settled {w' : World} (hG : w.Secluded G) (hset : w.Settled w') : w'.Secluded G :=
  fun j k hj hk => hset.apart (hG j k hj hk)

theorem Holds.touched {w' : World} {on : Nat} (h : w.Holds I G) (hG : w.Secluded G)
    (hset : w.Settled w')
    (hon : ∀ d, w.handle? on = some d → d.connection.Has I →
      ∃ d', w'.handle? on = some d' ∧ d'.connection.Has I)
    (ht : ∀ k, k ≠ on → Touched w w' on k) : w'.Holds I G := by
  intro k hk
  obtain ⟨d, hd, hI⟩ := h k hk
  by_cases hne : k = on
  · subst hne
    exact hon d hd hI
  · by_cases ha : w.Apart on k
    · exact ⟨d, ((ht k hne).of_apart ha).trans hd, hI⟩
    · have hin : G on := Classical.byContradiction fun hout => ha (hG on k hout hk)
      obtain ⟨o, ho, hoI⟩ := h on hin
      obtain ⟨o', ho', hoI'⟩ := hon o ho hoI
      obtain ⟨d', hd', halike⟩ := (ht k hne).alike hne hd
      refine ⟨d', hd', ?_, fun db hdb => hI.working db (halike.working.symm.trans hdb)⟩
      have hm : ¬w'.Apart on k := fun hn => ha (hset.symm.apart hn)
      rw [← committed_eq_of_meets hm ho' hd']
      exact hoI'.committed

section
variable (h : w.Holds I G) (hG : w.Secluded G)

include h hG

theorem Holds.call (on : Nat) {op : Operation Reply} (hop : op.Keeps I) :
    (w.call on op).1.Holds I G :=
  h.touched hG (settled_call w on op)
    (fun _ hd hI => ⟨_, (handle_call hd op).2, Handle.has_perform hop hI⟩)
    fun _ _ => touched_call op

theorem Holds.enter (on : Nat) : (w.enter on).1.Holds I G :=
  h.touched hG (settled_enter w on)
    (fun _ hd hI => ⟨_, (handle_enter hd).2, Handle.has_enter hI⟩)
    fun _ hk => touched_enter hk

theorem Holds.leave (on : Nat) (entry : Entry) (outcome : Option Failure) :
    (w.leave on entry outcome).1.Holds I G :=
  h.touched hG (settled_leave w on entry outcome)
    (fun _ hd hI => ⟨_, (handle_leave hd entry outcome).2, Handle.has_leave hI entry outcome⟩)
    fun _ hk => touched_leave hk entry outcome

theorem Holds.block (on : Nat) {body : World → Trace}
    (hset : ∀ w₁ : World, w₁.Settled (body w₁).world)
    (hbody : ∀ w₁, w.Settled w₁ → w₁.Holds I G →
      (body w₁).world.Holds I G ∧ ∀ w' ∈ (body w₁).worlds, w'.Holds I G) :
    (w.block on body).world.Holds I G ∧ ∀ w' ∈ (w.block on body).worlds, w'.Holds I G := by
  have hw₁ := settled_enter w on
  have h₁ := h.enter hG on
  unfold World.block
  generalize w.enter on = p at hw₁ h₁
  obtain ⟨w₁, result⟩ := p
  simp only at hw₁ h₁
  cases result with
  | error failure => exact ⟨h₁, fun w' hw' => by cases hw'⟩
  | ok entry =>
    obtain ⟨hend, hway⟩ := hbody w₁ hw₁ h₁
    refine ⟨hend.leave (hG.settled (hw₁.trans (hset w₁))) on entry _, fun w' hw' => ?_⟩
    rcases List.mem_cons.mp hw' with rfl | hw'
    · exact h₁
    · exact hway w' hw'

end

/-- What every call keeps up to every stop, calls and blocks keep in any order, on any of the stores
and with anything refused. -/
theorem Holds.follow {body : Body} (h : w.Holds I G) (hG : w.Secluded G)
    (hI : ∀ call : Call, call.operation.Keeps I) :
    (w.follow body).world.Holds I G ∧ ∀ w' ∈ (w.follow body).worlds, w'.Holds I G := by
  induction body generalizing w with
  | done => exact ⟨h, fun w' hw' => by cases hw'⟩
  | abort failure => exact ⟨h, fun w' hw' => by cases hw'⟩
  | call on call next ih =>
    have hset := settled_call w on call.operation
    have h₁ := h.call hG on (hI call)
    obtain ⟨hend, hway⟩ := ih (w.call on call.operation).2 h₁ (hG.settled hset)
    refine ⟨hend, fun w' hw' => ?_⟩
    rcases List.mem_cons.mp hw' with rfl | hw'
    · exact h₁
    · exact hway w' hw'
  | block on inner next ihInner ihNext =>
    have hset : w.Settled (w.block on fun w => w.follow inner).world :=
      settled_block fun w₁ => settled_follow w₁ inner
    obtain ⟨h₁, hinner⟩ := h.block hG on (fun w₁ => settled_follow w₁ inner) fun w₁ hw₁ h₁ =>
      ihInner h₁ (hG.settled hw₁)
    obtain ⟨hend, hway⟩ := ihNext (w.block on fun w => w.follow inner).outcome h₁ (hG.settled hset)
    refine ⟨hend, fun w' hw' => ?_⟩
    rcases List.mem_append.mp hw' with hw' | hw'
    · exact hinner w' hw'
    · rcases List.mem_cons.mp hw' with rfl | hw'
      · exact h₁
      · exact hway w' hw'

end

end World

end PubSub
