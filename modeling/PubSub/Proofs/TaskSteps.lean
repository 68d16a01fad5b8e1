import PubSub.Proofs.Effects
import PubSub.Proofs.Stops
import PubSub.Proofs.Tenures

/-!
# Steps on a connection

What one step of a task does to the connection of its store, seen from the other
connections to the same database (`Acted`). From its BEGIN to its COMMIT a transaction is as
good as alone: what it leaves is what it would have left by itself (`Tracks`). SQLite may drop
it before (`Machine.Drops`), and then the writes that follow go to the file at once.
-/

namespace PubSub

variable {α : Type}

/-! ## Connections without others -/

namespace Connection

/-- The connection as it would be if there were no others. -/
def alone (c : Connection) : Connection := { c with blocked := none, observed := false }

theorem look_alone (c : Connection) (table : Table) :
    c.alone.look table = ((c.look table).1, (c.look table).2.alone) := by
  unfold look
  rw [show c.alone.view = c.view from rfl]
  split <;> rfl

theorem preparing_alone (c : Connection) (w : Write) :
    c.alone.preparing w = (c.preparing w).alone := by
  unfold preparing
  split <;> rfl

theorem store_alone (c : Connection) (db : Database) : c.alone.store db = (c.store db).alone := by
  unfold store
  rw [show c.alone.working = c.working from rfl]
  split <;> rfl

theorem write_alone {c : Connection} {db : Database} (h : c.working = some db) (w : Write) :
    c.alone.write w = ((c.write w).1, (c.write w).2.alone) := by
  have hd : ((c.ask w.verb).2.preparing w).working = some db :=
    (preparing_working (c.ask w.verb).2 w).trans h
  unfold write
  simp only
  rw [show c.alone.ask w.verb = ((c.ask w.verb).1, (c.ask w.verb).2.alone) from rfl]
  simp only [preparing_alone]
  rw [show (c.ask w.verb).2.alone.view = (c.ask w.verb).2.view from rfl]
  generalize (c.ask w.verb).2.preparing w = d at hd
  have hobstacle : d.alone.obstacle? = d.obstacle? := by
    simp only [obstacle?, hd, show d.alone.working = d.working from rfl]
    rfl
  rw [hobstacle]
  split
  · rfl
  · split
    · rfl
    · split
      · rfl
      · cases d.obstacle? with
        | some fault => rfl
        | none =>
          rw [show d.alone.view = d.view from rfl]
          cases w.run d.view with
          | error fault => rfl
          | ok p => exact congrArg (Prod.mk _) (store_alone d.succeeded p.2)

theorem open?_alone {c : Connection} (h : c.open?.1 = none) :
    c.alone.open? = (none, c.open?.2.alone) := by
  have hb := blocked_of_open h
  have hw : c.working = none := by
    rcases c.open?_cases with ⟨fault, c', ho, -⟩ | ⟨c', -, -, hw, -⟩
    · rw [ho] at h
      cases h
    · exact hw
  have hr : ¬(c.ask .begin).1 = true := by
    intro hr
    simp [open?, hr] at h
  unfold open?
  simp only [show (c.alone.ask .begin).1 = (c.ask .begin).1 from rfl, if_neg hr]
  simp [ask, alone, succeeded, hw, hb]

theorem commit_alone {c : Connection} (h : c.commit.1 = none) :
    c.alone.commit = (none, c.commit.2.alone) := by
  have hr : ¬(c.ask .commit).1 = true := by
    intro hr
    simp [commit, hr] at h
  obtain ⟨db, hw⟩ : ∃ db, c.working = some db := by
    rcases c.commit_cases with ⟨fault, c', hc, -⟩ | ⟨db, c', -, hw, -⟩
    · rw [hc] at h
      cases h
    · exact ⟨db, hw⟩
  have ho : (c.mayWrite && c.observed) = false := by
    cases hm : c.mayWrite with
    | false => rfl
    | true => exact observed_of_commit h hm
  unfold commit
  simp only [show (c.alone.ask .commit).1 = (c.ask .commit).1 from rfl, if_neg hr]
  simp [ask, alone, succeeded, hw, ho]

end Connection

/-! ## What a transaction leaves -/

/-- A transaction at its BEGIN: the connection before, and what is going to be done. -/
structure Beginning (α : Type) where
  connection : Connection
  thread : Thread α

/-- What the transaction leaves where no other is open from its beginning to its end. -/
def Beginning.outcome (b : Beginning α) : Database :=
  (b.thread.tenure b.connection.alone).connection.committed

/-- The transaction that began there is open, and what is left of it leads to the same outcome. -/
structure Beginning.Tracks (b : Beginning α) (t : Thread α) (c : Connection) : Prop where
  opens : ∃ r : Routine α, r.Opens b.thread
  working : c.working ≠ none
  committed : b.connection.committed = c.committed
  outcome : b.outcome = (t.tenure c.alone).connection.committed

/-- The holder of the lock gives its transaction up, or is on the way to its outcome, or has lost
it. Only where one was `dropped` can it be lost. -/
inductive Thread.Ends (t : Thread α) (c : Connection) (b : Option (Beginning α)) (dropped : Prop) :
    Prop where
  | leaves (h : t.Leaves)
  | tracks {b₀ : Beginning α} (hb : b = some b₀) (h : b₀.Tracks t c)
  | lost (h : c.working = none) (hd : dropped)

/-! ## Acts -/

inductive Act (α : Type) where
  | quiet
  | began (t : Thread α)
  | committed
  | strayed (w : Write)

def Act.latest (e : Act α) (c : Connection) (b : Option (Beginning α)) :
    Option (Beginning α) :=
  match e with
  | .began t => some ⟨c, t⟩
  | _ => b

def Machine.act (m : Machine α) (k : TaskName) : Act α :=
  match m.threads k with
  | some (_, .begin next) => if m.connection.open?.1.isSome then .quiet else .began (.begin next)
  | some (_, .commit _) => if m.connection.commit.1.isSome then .quiet else .committed
  | some (_, .write w _) =>
    if m.connection.working.isNone && (m.connection.write w).1.toBool then .strayed w else .quiet
  | _ => .quiet

def Thread.isEnding : Thread α → Bool
  | .commit _ | .rollback _ => true
  | _ => false

/-- The transaction ends at a step of the task that is neither COMMIT nor ROLLBACK. -/
def Machine.Drops (m : Machine α) (k : TaskName) : Prop :=
  m.connection.working ≠ none ∧ (m.step k).connection.working = none ∧
    ∀ n t, m.threads k = some (n, t) → t.isEnding = false

inductive Acted (c c' : Connection) (b : Option (Beginning α)) (dropped : Prop) : Act α → Prop where
  | quiet (hu : c.Unseen c') (hw : c'.working ≠ none → c.working ≠ none) :
    Acted c c' b dropped .quiet
  | began {t : Thread α} (hu : c.Unseen c') (hfree : c.blocked = none) :
    Acted c c' b dropped (.began t)
  | committed {b₀ : Beginning α} (hb : b = some b₀) (hopens : ∃ r : Routine α, r.Opens b₀.thread)
    (hs : b₀.connection.committed = c.committed)
    (hc : c'.committed = b₀.outcome) (ha : c'.around = c.around)
    (hw : c.working = some c'.committed) (hw' : c'.working = none)
    (ho : c.mayWrite = true → c.observed = false) :
    Acted c c' b dropped .committed
  | strayed {w : Write} {rows : Nat} (hrun : w.run c.committed = .ok (rows, c'.committed))
    (ha : c'.around = c.around) (hw' : c'.working = none) (hm : c.mayWrite = true)
    (hb : c.blocked = none) (ho : c.observed = false) (hd : dropped) :
    Acted c c' b dropped (.strayed w)

section
variable {t t' : Thread α} {c c' : Connection} {b : Option (Beginning α)} {dropped dropped' : Prop}

theorem Thread.Ends.mono (h : t.Ends c b dropped) (hd : dropped → dropped') :
    t.Ends c b dropped' := by
  cases h with
  | leaves h => exact .leaves h
  | tracks hb h => exact .tracks hb h
  | lost h hlost => exact .lost h (hd hlost)

theorem Thread.Ends.tracks_of_open {db : Database} (h : t.Ends c b dropped) (hl : ¬t.Leaves)
    (hw : c.working = some db) : ∃ b₀, b = some b₀ ∧ b₀.Tracks t c := by
  cases h with
  | leaves h => exact absurd h hl
  | tracks hb h => exact ⟨_, hb, h⟩
  | lost h =>
    rw [hw] at h
    cases h

theorem Thread.Ends.dropped_of_closed (h : t.Ends c b dropped) (hl : ¬t.Leaves)
    (hw : c.working = none) : dropped := by
  cases h with
  | leaves h => exact absurd h hl
  | tracks hb h => exact absurd hw h.working
  | lost _ hd => exact hd

/-- What is left stays on its way to the outcome, over a step that changes neither the database nor
what the rest comes to. -/
theorem Thread.Ends.goes (h : t.Ends c b dropped) (hl : ¬t.Leaves) (hc : c'.committed = c.committed)
    (hw : c'.working = c.working)
    (ht : c.working ≠ none → (t'.tenure c'.alone).connection = (t.tenure c.alone).connection) :
    t'.Ends c' b dropped := by
  cases hopen : c.working with
  | none => exact .lost (hw.trans hopen) (h.dropped_of_closed hl hopen)
  | some db =>
    have hn : c.working ≠ none := by simp [hopen]
    obtain ⟨b₀, hb, htracks⟩ := h.tracks_of_open hl hopen
    refine .tracks hb ⟨htracks.opens, ?_, htracks.committed.trans hc.symm, ?_⟩
    · rwa [hw]
    · rw [ht hn]
      exact htracks.outcome

theorem Thread.not_leaves (hne : ∀ next, t ≠ .rollback next) : ¬t.Leaves := by
  rintro ⟨r, hr⟩
  exact hne _ hr

end

namespace Machine

variable {m m' : Machine α} {k : TaskName} {b : Option (Beginning α)} {dropped dropped' : Prop}

theorem step_has {I : Database → Prop} (h : m.connection.Has I)
    (hI : m.connection.mayWrite = true →
      ∀ w : Write, ∀ rows db, w.run m.connection.view = .ok (rows, db) → I db) (k : TaskName) :
    (m.step k).connection.Has I := by
  cases hk : m.threads k with
  | none => simpa [Machine.step, hk] using h
  | some entry =>
    obtain ⟨n, t⟩ := entry
    cases t with
    | finish ending => simpa [Machine.step, hk] using h
    | acquire next =>
      simp only [Machine.step, hk]
      split <;> exact h
    | begin next =>
      have ho := h.open?
      simp only [Machine.step, hk]
      split <;> exact ho
    | look table next =>
      simp only [Machine.step, hk, Connection.look]
      split <;> exact h.unseen ⟨rfl, rfl⟩ (.inl rfl)
    | write w next =>
      simp only [Machine.step, hk]
      exact h.write fun hm rows db _ hrun => hI hm w rows db hrun
    | commit next =>
      simp only [Machine.step, hk]
      exact h.commit
    | rollback next =>
      simp only [Machine.step, hk]
      exact h.rollback
    | _ =>
      simp only [Machine.step, hk]
      exact h

theorem drops_of_write {n : Nat} {w : Write} {next : Except Failure Nat → Thread α}
    (hk : m.threads k = some (n, .write w next)) (hn : m.connection.working ≠ none)
    (hlost : (m.connection.write w).2.working = none) : m.Drops k := by
  refine ⟨hn, ?_, fun n' t ht => ?_⟩
  · simp only [Machine.step, hk]
    exact hlost
  · obtain ⟨-, rfl⟩ : n = n' ∧ .write w next = t := by simpa using hk.symm.trans ht
    rfl

/-- Apart from COMMIT and ROLLBACK, only a write ends a transaction. -/
theorem Drops.write (h : m.Drops k) : ∃ w, (m.connection.write w).2.working = none := by
  obtain ⟨hn, hlost, hending⟩ := h
  have hchanges : ¬(m.step k).connection.working = m.connection.working := fun he =>
    hn (he.symm.trans hlost)
  cases hk : m.threads k with
  | none => exact absurd (by simp only [Machine.step, hk]) hchanges
  | some entry =>
    obtain ⟨n, t⟩ := entry
    have ht := hending n t hk
    cases t with
    | write w next =>
      simp only [Machine.step, hk] at hlost
      exact ⟨w, hlost⟩
    | commit next => cases ht
    | rollback next => cases ht
    | finish ending => exact absurd (by simp only [Machine.step, hk]) hchanges
    | begin next =>
      rcases m.connection.open?_cases with ⟨fault, c, ho, -, hw⟩ | ⟨c, -, -, hw, -⟩
      · refine absurd ?_ hchanges
        simp only [Machine.step, hk, ho, Option.isSome_some, if_true]
        exact hw
      · exact absurd hw hn
    | look table next =>
      refine absurd ?_ hchanges
      simp only [Machine.step, hk, Connection.look]
      split <;> rfl
    | acquire next =>
      refine absurd ?_ hchanges
      simp only [Machine.step, hk]
      split <;> rfl
    | _ =>
      refine absurd ?_ hchanges
      simp only [Machine.step, hk]
      rfl

/-- The holder of the lock, where it is inside a transaction, knows its outcome. -/
def Ends (m : Machine α) (b : Option (Beginning α)) (dropped : Prop) : Prop :=
  ∀ k n t, m.holder = some k → m.threads k = some (n, t) → t.Closes → t.Ends m.connection b dropped

theorem Ends.mono (h : m.Ends b dropped) (hd : dropped → dropped') : m.Ends b dropped' :=
  fun k n t hh hk hc => (h k n t hh hk hc).mono hd

theorem ends_of_holder (hh : m.holder = some k) {n : Nat} {t : Thread α}
    (hk : m.threads k = some (n, t)) (h : t.Closes → t.Ends m.connection b dropped) :
    m.Ends b dropped := by
  intro k' n' t' hh' hk' hcloses
  obtain rfl : k = k' := Option.some.inj (hh.symm.trans hh')
  obtain ⟨-, rfl⟩ : n = n' ∧ t = t' := by simpa using hk.symm.trans hk'
  exact h hcloses

theorem act_of_outside (ho : m.Orderly) (hout : m.holder ≠ some k) : m.act k = .quiet := by
  unfold act
  cases hk : m.threads k with
  | none => rfl
  | some entry =>
    obtain ⟨n, t⟩ := entry
    have hobeys := ho.outside hk hout
    cases t with
    | begin next => cases hobeys.1
    | write w next => cases hobeys.1
    | commit next => cases hobeys.1
    | _ => rfl

theorem ends_outside (ho : m.Orderly) (hr : m.Regular) (hout : m.holder ≠ some k)
    (h : m.Ends b dropped) :
    (m.step k).connection = m.connection ∧ (m.step k).Ends b dropped := by
  have hresume : ∀ n t, (m.resume k n t).Ends b dropped := by
    intro n t k' n' t' hh' hk' hc
    have hne : k' ≠ k := by
      rintro rfl
      exact hout hh'
    rw [show (m.resume k n t).threads k' = m.threads k' from Pool.put_of_ne _ hne n t] at hk'
    exact h k' n' t' hh' hk' hc
  have hstep := hr.outside_step ho hout
  generalize m.step k = m' at hstep
  cases hstep with
  | stays => exact ⟨rfl, h⟩
  | goes n ht => exact ⟨rfl, hresume n _⟩
  | @spawns n t hk child rest =>
    refine ⟨rfl, fun k' n' t' hh' hk' hc => ?_⟩
    have hne : k' ≠ n :: k := by
      rintro rfl
      exact unheld_child ho hk hh'
    refine hresume (n + 1) rest.start k' n' t' hh' ?_ hc
    rwa [show ((m.resume k (n + 1) rest.start).resume (n :: k) 0 child.start).threads k' =
      (m.resume k (n + 1) rest.start).threads k' from Pool.put_of_ne _ hne 0 child.start] at hk'
  | gets n hfree hopens =>
    refine ⟨rfl, ends_of_holder rfl (Pool.put_self ..) ?_⟩
    obtain ⟨next, rfl, -⟩ := hopens.begins
    exact False.elim

theorem act_opening (hh : m.holder = some k) {n : Nat} {t : Thread α}
    (hk : m.threads k = some (n, t)) {r : Routine α} (hopens : r.Opens t) :
    Acted m.connection (m.step k).connection b dropped (m.act k) ∧
      (m.step k).Ends ((m.act k).latest m.connection b) dropped := by
  obtain ⟨next, rfl, -, hleaves⟩ := hopens.begins
  simp only [Machine.step, Machine.act, hk]
  rcases m.connection.open?_cases with ⟨fault, c, ho, hu, hw⟩ | ⟨c, ho, hu, -, hw⟩
  · simp only [ho, Option.isSome_some, if_true]
    exact ⟨.quiet hu fun hn => hw ▸ hn,
      ends_of_holder hh (Pool.put_self ..) fun _ => .leaves (hleaves fault)⟩
  · have hnone : m.connection.open?.1 = none := by rw [ho]
    have halone := Connection.open?_alone hnone
    simp only [ho] at halone
    simp only [ho, Option.isSome_none, Bool.false_eq_true, if_false]
    refine ⟨.began hu (Connection.blocked_of_open hnone),
      ends_of_holder hh (Pool.put_self ..) fun _ =>
        .tracks rfl ⟨⟨r, hopens⟩, ?_, hu.committed.symm, ?_⟩⟩
    · simp only [Machine.remember, Machine.resume, hw]
      simp
    · simp only [Beginning.outcome, Thread.tenure, halone]
      rfl

theorem act_writing (hh : m.holder = some k) {n : Nat} {w : Write}
    {next : Except Failure Nat → Thread α} (hk : m.threads k = some (n, .write w next))
    (h : (Thread.write w next).Ends m.connection b dropped) :
    Acted m.connection (m.step k).connection b dropped (m.act k) ∧
      (m.step k).Ends ((m.act k).latest m.connection b) (dropped ∨ m.Drops k) := by
  simp only [Machine.step, Machine.act, hk]
  cases hw : m.connection.working with
  | none =>
    -- The transaction was lost by an earlier write.
    simp only [Option.isNone_none, Bool.true_and]
    have hlost := h.dropped_of_closed (Thread.not_leaves fun _ he => by cases he) hw
    rcases m.connection.write_cases w with
      ⟨failure, c, hc, -, hu, hn⟩ | ⟨rows, c, hc, -, -, ha, db, hrun, hn, hcom⟩
    · have hn' : c.working = none := hn.elim (fun he => he.trans hw) id
      simp only [hc, Except.toBool, Bool.false_eq_true, if_false]
      exact ⟨.quiet hu fun hne => absurd hn' hne,
        ends_of_holder hh (Pool.put_self ..) fun _ => .lost hn' (.inl hlost)⟩
    · obtain ⟨hmay, hblocked, hobserved⟩ := Connection.free_of_write hw hc
      rw [hw] at hn hcom
      simp only [Option.isSome_none, Bool.false_eq_true, if_false] at hcom
      have hview : m.connection.view = m.connection.committed := by simp [Connection.view, hw]
      rw [hview, ← hcom] at hrun
      simp only [hc, Except.toBool, if_true]
      exact ⟨.strayed hrun ha hn hmay hblocked hobserved hlost,
        ends_of_holder hh (Pool.put_self ..) fun _ => .lost hn (.inl hlost)⟩
  | some db =>
    simp only [Option.isNone_some, Bool.false_and, Bool.false_eq_true, if_false]
    obtain ⟨b₀, hb, ht⟩ := h.tracks_of_open (Thread.not_leaves fun _ he => by cases he) hw
    have hu : m.connection.Unseen (m.connection.write w).2 := by
      rcases m.connection.write_cases w with
        ⟨failure, c, hc, -, hu, -⟩ | ⟨rows, c, hc, -, -, ha, db, -, -, hcom⟩
      · rw [hc]
        exact hu
      · rw [hc]
        rw [hw] at hcom
        exact ⟨hcom, ha⟩
    refine ⟨.quiet hu fun _ => by simp [hw], ends_of_holder hh (Pool.put_self ..) fun _ => ?_⟩
    by_cases hlost : (m.connection.write w).2.working = none
    · exact .lost hlost (.inr (drops_of_write hk (by simp [hw]) hlost))
    · refine .tracks hb ⟨ht.opens, hlost, ht.committed.trans hu.committed.symm, ht.outcome.trans ?_⟩
      simp only [Thread.tenure, Connection.write_alone hw]
      rfl

theorem act_ending (hh : m.holder = some k) {n : Nat} {next : Option Fault → Thread α}
    (hk : m.threads k = some (n, .commit next)) (hcloses : (Thread.commit next).Closes)
    (h : (Thread.commit next).Ends m.connection b dropped) :
    Acted m.connection (m.step k).connection b dropped (m.act k) ∧
      (m.step k).Ends ((m.act k).latest m.connection b) dropped := by
  obtain ⟨⟨r, hr⟩, hleaves⟩ := hcloses
  simp only [Machine.step, Machine.act, hk]
  rcases m.connection.commit_cases with ⟨fault, c, hc, hu, hw⟩ | ⟨db, c, hc, hw, hw', hcom, ha⟩
  · simp only [hc, Option.isSome_some, if_true]
    exact ⟨.quiet hu fun hn => hw ▸ hn,
      ends_of_holder hh (Pool.put_self ..) fun _ => .leaves (hleaves fault)⟩
  · obtain ⟨b₀, hb, ht⟩ := h.tracks_of_open (Thread.not_leaves fun _ he => by cases he) hw
    have hnone : m.connection.commit.1 = none := by rw [hc]
    have halone := Connection.commit_alone hnone
    have hout : c.committed = b₀.outcome := by
      rw [ht.outcome]
      simp only [hc] at halone
      simp only [Thread.tenure, halone, hr]
      rfl
    simp only [hc, Option.isSome_none, Bool.false_eq_true, if_false]
    refine ⟨.committed hb ht.opens ht.committed hout ha (hw.trans (congrArg some hcom.symm)) hw'
      (Connection.observed_of_commit hnone), ends_of_holder hh (Pool.put_self ..) ?_⟩
    rw [hr]
    exact False.elim

theorem act_closing (ho : m.Orderly) (hh : m.holder = some k) {n : Nat} {t : Thread α}
    (hk : m.threads k = some (n, t)) (hcloses : t.Closes) (h : t.Ends m.connection b dropped) :
    Acted m.connection (m.step k).connection b dropped (m.act k) ∧
      (m.step k).Ends ((m.act k).latest m.connection b) (dropped ∨ m.Drops k) := by
  have hlater : t.Ends m.connection b (dropped ∨ m.Drops k) := h.mono .inl
  cases t with
  | write w next => exact act_writing hh hk h
  | commit next => exact (act_ending hh hk hcloses h).imp_right (·.mono .inl)
  | pause next =>
    simp only [Machine.step, Machine.act, hk]
    refine ⟨.quiet (.refl _) id, ends_of_holder hh (Pool.put_self ..) fun _ => ?_⟩
    exact hlater.goes (Thread.not_leaves fun _ he => by cases he) rfl rfl fun _ => rfl
  | spawn child next =>
    simp only [Machine.step, Machine.act, hk]
    have hput : ((m.resume k (n + 1) next).resume (n :: k) 0 child).threads k =
        some (n + 1, next) :=
      (Pool.put_of_ne _ (Pool.cons_ne n k).symm 0 child).trans (Pool.put_self ..)
    refine ⟨.quiet (.refl _) id, ends_of_holder hh hput fun _ => ?_⟩
    exact hlater.goes (Thread.not_leaves fun _ he => by cases he) rfl rfl fun _ => rfl
  | enter next =>
    simp only [Machine.step, Machine.act, hk, ho.owner.trans hh, decide_true]
    refine ⟨.quiet (.refl _) id, ends_of_holder hh (Pool.put_self ..) fun _ => ?_⟩
    exact hlater.goes (Thread.not_leaves fun _ he => by cases he) rfl rfl fun _ => rfl
  | look table next =>
    simp only [Machine.step, Machine.act, hk]
    have hu : m.connection.Unseen (m.connection.look table).2 ∧
        (m.connection.look table).2.working = m.connection.working := by
      unfold Connection.look
      split <;> exact ⟨⟨rfl, rfl⟩, rfl⟩
    refine ⟨.quiet hu.1 fun hn => hu.2 ▸ hn, ends_of_holder hh (Pool.put_self ..) fun _ => ?_⟩
    refine hlater.goes (Thread.not_leaves fun _ he => by cases he) hu.1.committed hu.2 fun _ => ?_
    simp only [Thread.tenure, Connection.look_alone]
    rfl
  | rollback next =>
    obtain ⟨r, hr⟩ := hcloses
    simp only [Machine.step, Machine.act, hk]
    have hw : m.connection.rollback.2.working ≠ none → m.connection.working ≠ none := by
      intro hn
      rcases m.connection.rollback_working with hw | hw
      · rwa [hw] at hn
      · exact absurd hw hn
    refine ⟨.quiet m.connection.rollback_unseen hw, ends_of_holder hh (Pool.put_self ..) ?_⟩
    rw [hr]
    exact False.elim
  | _ => exact hcloses.elim

/-! ### Tracked machines -/

structure Tracked (m : Machine α) (b : Option (Beginning α)) (room : Nat) (dropped : Prop) :
    Prop where
  orderly : m.Orderly
  regular : m.Regular
  /-- No more numbers are taken than there were steps. -/
  numbers : m.connection.Has (·.lastMember ≤ room)
  reads : m.connection.mayWrite = false → m.connection.Has (· = m.connection.committed)
  ends : m.Ends b dropped

variable {room : Nat}

theorem Tracked.mono (h : m.Tracked b room dropped) (hd : dropped → dropped') :
    m.Tracked b room dropped' :=
  ⟨h.orderly, h.regular, h.numbers, h.reads, h.ends.mono hd⟩

theorem Tracked.room_of_drops (h : m.Tracked b room dropped) (hd : m.Drops k) :
    Database.lastId ≤ room := by
  obtain ⟨w, hlost⟩ := hd.write
  obtain ⟨db, hw⟩ := Option.ne_none_iff_exists'.mp hd.1
  exact Nat.le_trans (Connection.write_loses hw hlost) (h.numbers.working db hw)

theorem Tracked.acts (h : m.Tracked b room dropped) (k : TaskName) :
    Acted m.connection (m.step k).connection b dropped (m.act k) ∧
      (m.step k).Ends ((m.act k).latest m.connection b) (dropped ∨ m.Drops k) := by
  by_cases hh : m.holder = some k
  · obtain ⟨⟨n, t⟩, hk⟩ := Option.isSome_iff_exists.mp (h.orderly.present k hh)
    cases h.regular.holding k n t hk hh with
    | opening hopens => exact (act_opening hh hk hopens).imp_right (·.mono .inl)
    | closing hcloses => exact act_closing h.orderly hh hk hcloses (h.ends k n t hh hk hcloses)
    | @leaving r ht =>
      subst ht
      simp only [Machine.step, Machine.act, hk]
      refine ⟨.quiet (.refl _) id, fun k' n' t' hh' => ?_⟩
      cases hh'
  · obtain ⟨hc, hends⟩ := ends_outside h.orderly h.regular hh h.ends
    rw [hc, act_of_outside h.orderly hh]
    exact ⟨.quiet (.refl _) id, hends.mono .inl⟩

end Machine

theorem Acted.around {c c' : Connection} {b : Option (Beginning α)} {dropped : Prop} {e : Act α}
    (h : Acted c c' b dropped e) : c'.around = c.around := by
  cases h with
  | quiet hu => exact hu.around
  | began hu => exact hu.around
  | committed _ _ _ _ ha => exact ha
  | strayed _ ha => exact ha

namespace Machine

variable {m : Machine α} {b : Option (Beginning α)} {room : Nat} {dropped : Prop}

theorem Tracked.step (h : m.Tracked b room dropped) (k : TaskName) :
    (m.step k).Tracked ((m.act k).latest m.connection b) (room + 1) (dropped ∨ m.Drops k) := by
  obtain ⟨hact, hends⟩ := h.acts k
  refine ⟨h.orderly.step k, h.regular.step h.orderly k, ?_, fun hm => ?_, hends⟩
  · have hroom : m.connection.Has (·.lastMember ≤ room + 1) :=
      ⟨Nat.le_succ_of_le h.numbers.committed,
        fun db hdb => Nat.le_succ_of_le (h.numbers.working db hdb)⟩
    refine step_has hroom (fun _ w rows db hrun => ?_) k
    exact Nat.le_trans (Database.run_lastMember hrun) (Nat.succ_le_succ h.numbers.view)
  · have hmay : m.connection.mayWrite = false :=
      (congrArg (·.2.2) hact.around).symm.trans hm
    have hreads := step_has (h.reads hmay) (fun hw => by rw [hmay] at hw; cases hw) k
    rwa [← hreads.committed] at hreads

end Machine

end PubSub
