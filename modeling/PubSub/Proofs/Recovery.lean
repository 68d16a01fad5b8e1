import PubSub.Proofs.Release
import PubSub.Proofs.Reopening

/-!
# What faults leave behind

A statement that is refused leaves nothing behind but, where it was a rollback, an open
transaction. What else a connection remembers has no part in what calls answer
(`transact_bare`), and the next call that comes to its BEGIN clears the transaction
(`transact_leftover`). So a store on which nothing is refused any more does what one does
that was opened just now, but for one call at the most (`recovers_after_one`).
-/

namespace PubSub

namespace Connection

/-! ## What a connection remembers -/

/-- The connection if it had, or had not, looked at the setting of a notification before. -/
def knowing (c : Connection) (known : Bool) : Connection := { c with knowsSetting := known }

@[simp] theorem ask_knowing (c : Connection) (known : Bool) (verb : Verb) :
    (c.knowing known).ask verb = ((c.ask verb).1, (c.ask verb).2.knowing known) := rfl

@[simp] theorem view_knowing (c : Connection) (known : Bool) : (c.knowing known).view = c.view := rfl

@[simp] theorem working_knowing (c : Connection) (known : Bool) :
    (c.knowing known).working = c.working := rfl

@[simp] theorem around_knowing (c : Connection) (known : Bool) :
    (c.knowing known).observed = c.observed ∧ (c.knowing known).mayWrite = c.mayWrite := ⟨rfl, rfl⟩

@[simp] theorem lastFault_knowing (c : Connection) (known : Bool) :
    (c.knowing known).lastFault = c.lastFault := rfl

@[simp] theorem obstacle_knowing (c : Connection) (known : Bool) :
    (c.knowing known).obstacle? = c.obstacle? := rfl

section
variable {c : Connection} {α : Type}

theorem preparing_knowing (h : c.lastFault = none) (known : Bool) (w : Write) :
    ∃ known', (c.knowing known).preparing w = (c.preparing w).knowing known' := by
  unfold preparing
  split
  · exact ⟨true, by simp [knowing, h]⟩
  · exact ⟨known, rfl⟩

theorem store_knowing (c : Connection) (known : Bool) (db : Database) :
    (c.knowing known).store db = (c.store db).knowing known := by
  unfold store
  cases h : c.working <;> simp [knowing, h]

theorem rollback_knowing (c : Connection) (known : Bool) :
    (c.knowing known).rollback = (c.rollback.1, c.rollback.2.knowing known) := by
  unfold rollback
  simp only [working_knowing, ask_knowing]
  cases c.working with
  | none => rfl
  | some db =>
    by_cases hr : (c.ask .rollback).1 = true
    · simp only [hr, if_true]
    · simp only [hr]
      rfl

theorem commit_knowing (c : Connection) (known : Bool) :
    (c.knowing known).commit = (c.commit.1, c.commit.2.knowing known) := by
  unfold commit
  simp only [working_knowing, ask_knowing, around_knowing]
  by_cases hr : (c.ask .commit).1 = true
  · simp only [hr, if_true]
  · simp only [hr]
    cases (c.ask .commit).2.working with
    | none => rfl
    | some db =>
      by_cases ho : ((c.ask .commit).2.mayWrite && (c.ask .commit).2.observed) = true
      · simp only [ho, if_true]
        rfl
      · simp only [ho]
        rfl

theorem write_knowing (h : c.lastFault = none) (known : Bool) (w : Write) :
    ∃ known', (c.knowing known).write w = ((c.write w).1, (c.write w).2.knowing known') := by
  obtain ⟨known', hp⟩ := preparing_knowing (c := (c.ask w.verb).2) h known w
  unfold write
  simp only [ask_knowing, hp, view_knowing, obstacle_knowing, lastFault_knowing]
  split
  · exact ⟨known, rfl⟩
  · split
    · exact ⟨known, rfl⟩
    · split
      · exact ⟨known', rfl⟩
      · split
        · exact ⟨known', rfl⟩
        · split
          · exact ⟨known', congrArg (Prod.mk _)
              (store_knowing ((c.ask w.verb).2.preparing w).succeeded known' _)⟩
          · exact ⟨known', rfl⟩

theorem lastFault_of_write {c' : Connection} {w : Write} {rows : Nat}
    (h : c.write w = (.ok rows, c')) : c'.lastFault = none := by
  unfold write at h
  simp only at h
  split at h
  · cases h
  · split at h
    · cases h
    · split at h
      · cases h
      · split at h
        · cases h
        · split at h
          · cases h
            unfold store
            split <;> rfl
          · cases h

theorem exec_knowing (h : c.lastFault = none) (known : Bool) (s : Script α) :
    ((c.knowing known).exec s).result = (c.exec s).result ∧
      ∃ known', ((c.knowing known).exec s).connection = (c.exec s).connection.knowing known' := by
  induction s generalizing c known with
  | done value => exact ⟨rfl, known, rfl⟩
  | fail failure => exact ⟨rfl, known, rfl⟩
  | look table next ih =>
    simp only [exec, view_knowing]
    by_cases ht : c.view.has table = true
    · simp only [ht, if_true]
      exact ih c.view (c := c.succeeded) rfl known
    · simp only [ht]
      exact ⟨rfl, known, rfl⟩
  | write w next ih =>
    obtain ⟨known', hw⟩ := write_knowing h known w
    simp only [exec, hw]
    rcases hc : c.write w with ⟨result, c'⟩
    cases result with
    | error failure => exact ⟨rfl, known', rfl⟩
    | ok rows => exact ih rows (lastFault_of_write hc) known'
  | note n next ih => exact ih h known

end

/-- A connection without what it remembers of earlier statements and without what it will refuse. -/
def bare (c : Connection) : Connection :=
  { c with refusals := [], lastFault := none, knowsSetting := false }

section
variable {c c' : Connection} {α : Type} (hr : c.refusals = []) (hr' : c'.refusals = [])
  (hb : c'.bare = c.bare)

include hr hr' hb

theorem rollback_bare : c'.rollback.2.bare = c.rollback.2.bare := by
  obtain ⟨committed, blocked, observed, mayWrite, working, refusals, lastFault, knows⟩ := c
  obtain ⟨committed', blocked', observed', mayWrite', working', refusals', lastFault', knows'⟩ := c'
  simp only [bare, mk.injEq, and_true] at hr hr' hb
  obtain ⟨rfl, rfl, rfl, rfl, rfl⟩ := hb
  subst hr hr'
  cases working' <;> rfl

theorem open?_bare : (∃ fault, c.open?.1 = some fault ∧ c'.open?.1 = some fault ∧
      c'.open?.2.rollback.2.bare = c.open?.2.rollback.2.bare) ∨
    c.open?.1 = none ∧ c'.open?.1 = none ∧ c.open?.2.lastFault = none ∧
      ∃ known, c'.open?.2 = c.open?.2.knowing known := by
  have hback : ∀ fault, (c'.failed fault).rollback.2.bare = (c.failed fault).rollback.2.bare :=
    fun fault => rollback_bare hr hr' hb
  obtain ⟨committed, blocked, observed, mayWrite, working, refusals, lastFault, knows⟩ := c
  obtain ⟨committed', blocked', observed', mayWrite', working', refusals', lastFault', knows'⟩ := c'
  simp only [bare, mk.injEq, and_true] at hr hr' hb
  obtain ⟨rfl, rfl, rfl, rfl, rfl⟩ := hb
  subst hr hr'
  simp only [open?, ask_of_none, Bool.false_eq_true, if_false]
  cases (if working'.isSome = true then some .nested else blocked') with
  | some fault => exact .inl ⟨fault, rfl, rfl, hback fault⟩
  | none => exact .inr ⟨rfl, rfl, rfl, knows', rfl⟩

theorem transact_bare (op : Operation α) :
    (c'.transact op).result = (c.transact op).result ∧
      (c'.transact op).connection.bare = (c.transact op).connection.bare := by
  have hopen := open?_bare hr hr' hb
  unfold transact
  cases op.refusal with
  | some failure => exact ⟨rfl, hb⟩
  | none =>
    rcases ho : c.open? with ⟨fault, d⟩
    rcases ho' : c'.open? with ⟨fault', d'⟩
    simp only [ho, ho'] at hopen ⊢
    rcases hopen with ⟨fault, rfl, rfl, hback⟩ | ⟨rfl, rfl, hlast, known, rfl⟩
    · exact ⟨rfl, hback⟩
    · obtain ⟨hresult, known', hd⟩ := exec_knowing hlast known op.body
      simp only [hresult, hd, commit_knowing]
      cases (d.exec op.body).result with
      | error failure =>
        refine ⟨rfl, ?_⟩
        simp only [giveUp, conclude, rollback_knowing]
        rfl
      | ok last =>
        rcases (d.exec op.body).connection.commit with ⟨fault, d₂⟩
        cases fault with
        | none => exact ⟨rfl, rfl⟩
        | some fault =>
          refine ⟨rfl, ?_⟩
          simp only [giveUp, conclude, rollback_knowing]
          rfl

end

/-! ## What is left open -/

section
variable {α : Type}

def verbs (c : Connection) : List Verb := c.refusals.map (·.verb)

theorem ask_verbs (c : Connection) (verb : Verb) : (c.ask verb).2.verbs = c.verbs := by
  have ha : ∀ r : Refusal, (r.after verb).verb = r.verb := by
    intro r
    unfold Refusal.after
    split
    · rfl
    · split <;> rfl
  simp [verbs, ask, Function.comp_def, ha]

theorem write_verbs (c : Connection) (w : Write) : (c.write w).2.verbs = c.verbs := by
  have hp : ((c.ask w.verb).2.preparing w).verbs = c.verbs := by
    rw [← ask_verbs c w.verb]
    unfold preparing
    split <;> rfl
  unfold write
  simp only
  split
  · exact ask_verbs c w.verb
  · split
    · exact ask_verbs c w.verb
    · split
      · exact hp
      · split
        · exact hp
        · split
          · unfold store
            split <;> exact hp
          · exact hp

theorem exec_verbs (c : Connection) (s : Script α) : (c.exec s).connection.verbs = c.verbs := by
  induction s generalizing c with
  | done value => rfl
  | fail failure => rfl
  | look table next ih =>
    unfold exec
    split
    · exact ih _ c.succeeded
    · rfl
  | write w next ih =>
    have hw := write_verbs c w
    unfold exec
    split
    · rename_i rows c' heq
      rw [heq] at hw
      exact (ih rows c').trans hw
    · rename_i failure c' heq
      rw [heq] at hw
      exact hw
  | note n next ih => exact ih c

theorem open?_verbs (c : Connection) : c.open?.2.verbs = c.verbs := by
  refine Eq.trans ?_ (ask_verbs c .begin)
  unfold open?
  simp only
  split
  · rfl
  · split <;> rfl

theorem commit_verbs (c : Connection) : c.commit.2.verbs = c.verbs := by
  refine Eq.trans ?_ (ask_verbs c .commit)
  unfold commit
  simp only
  split
  · rfl
  · split
    · rfl
    · split <;> rfl

theorem rollback_closes {c : Connection} (h : .rollback ∉ c.verbs) : c.rollback.2.working = none := by
  unfold rollback
  split
  · rename_i hw
    exact hw
  · have hn : (c.ask .rollback).1 = false := by
      rw [Bool.eq_false_iff]
      intro ha
      obtain ⟨r, hr, href⟩ := List.any_eq_true.mp ha
      simp only [Refusal.refuses, Bool.and_eq_true, decide_eq_true_eq] at href
      exact h (List.mem_map.mpr ⟨r, hr, href.1.1⟩)
    simp only [hn]
    rfl

theorem transact_closes {c : Connection} (h : .rollback ∉ c.verbs) {op : Operation α}
    (hr : op.refusal = none) : (c.transact op).connection.working = none := by
  unfold transact
  simp only [hr]
  have hopen := open?_verbs c
  rcases ho : c.open? with ⟨fault, d⟩
  rw [ho] at hopen
  cases fault with
  | some fault => exact rollback_closes (by rw [hopen]; exact h)
  | none =>
    have hexec := (exec_verbs d op.body).trans hopen
    simp only
    cases (d.exec op.body).result with
    | error failure => exact rollback_closes (by rw [hexec]; exact h)
    | ok last =>
      have hcommit := (commit_verbs (d.exec op.body).connection).trans hexec
      simp only
      rcases commit_cases (d.exec op.body).connection with
        ⟨fault, d₂, hc, -, -⟩ | ⟨db, d₂, hc, -, hw, -⟩
      · rw [hc] at hcommit
        simp only [hc]
        exact rollback_closes (by rw [hcommit]; exact h)
      · simp only [hc]
        exact hw

theorem transact_leftover {c : Connection} (hr : c.refusals = []) (hw : c.working.isSome)
    {call : Call} (hn : call.operation.refusal = none) :
    (c.transact call.operation).result = .error (.store (.transaction .nested)) ∧
      (c.transact call.operation).connection.bare = { c.bare with working := none } := by
  have ho : c.open? = (some .nested, c.failed .nested) := by
    simp [open?, ask_of_none hr, hw]
  obtain ⟨db, hdb⟩ := Option.isSome_iff_exists.mp hw
  unfold transact
  simp only [hn, ho]
  have hfault : (Failure.engine .nested).FromStatement := trivial
  refine ⟨call.recover_fails (.inl hfault), ?_⟩
  simp only [giveUp, conclude, rollback, show (c.failed .nested).working = some db from hdb,
    ask_of_none (c := c.failed .nested) hr]
  rfl

end

/-- The connection that an opening gives to the same database in the same surroundings. -/
def anew (c : Connection) : Connection := { c.bare with working := none }

end Connection

/-! ## Runs in which nothing is refused any more -/

def Turn.quiet (call : Call) : Turn := ⟨[], call⟩

namespace World

/-- An idle store whose connection is like another one in all that matters for later calls. -/
def Like (w : World) (i : Nat) (c : Connection) : Prop :=
  ∃ h, w.handle? i = some h ∧ h.entered = false ∧ h.connection.bare = c.bare

section
variable {w : World} {i : Nat} {h : Handle} {c : Connection}

theorem Like.committed (hl : w.Like i c) : w.committed i = c.committed := by
  obtain ⟨h, hh, -, hb⟩ := hl
  rw [committed_of_committed? (committed?_of_handle hh)]
  have hc := congrArg Connection.committed hb
  exact hc

theorem Like.turn (hl : w.Like i c) (call : Call) :
    (w.turn i (.quiet call)).2 = (c.bare.transact call.operation).result ∧
      (w.turn i (.quiet call)).1.Like i (c.bare.transact call.operation).connection := by
  obtain ⟨h, hh, he, hb⟩ := hl
  obtain ⟨hr, hh'⟩ := handle_call (handle_refusing hh []) call.operation
  simp only [Handle.perform, he, Bool.false_eq_true, if_false] at hr hh'
  let quiet : Connection := { h.connection with refusals := [] }
  have hquiet : quiet.bare = c.bare.bare := hb
  obtain ⟨hresult, hbare⟩ := Connection.transact_bare rfl rfl hquiet call.operation
  exact ⟨hr.trans hresult, _, hh', rfl, hbare⟩

theorem Like.history {w₀ : World} {k : Nat} (hl : w.Like i c) (hl₀ : w₀.Like k c)
    (calls : List Call) :
    w.history i (calls.map .quiet) = w₀.history k (calls.map .quiet) := by
  induction calls generalizing w w₀ c with
  | nil => rfl
  | cons call calls ih =>
    obtain ⟨hr, hl'⟩ := hl.turn call
    obtain ⟨hr₀, hl₀'⟩ := hl₀.turn call
    simp only [List.map_cons, World.history, hr, hr₀, hl.committed, hl₀.committed, hl'.committed,
      hl₀'.committed, ih hl' hl₀']

/-- The first call that comes to its BEGIN fails where a transaction was left open. Those before it
are refused without one, and those after it find nothing open any more. -/
theorem Like.history_leftover {w₀ : World} {k : Nat} (hl : w.Like i c) (hw : c.working.isSome)
    (hl₀ : w₀.Like k c.anew) (calls : List Call) :
    w.history i (calls.map .quiet) = w₀.history k (calls.map .quiet) ∨
      ∃ before call after, calls = before ++ call :: after ∧
        (∀ b ∈ before, b.operation.refusal.isSome) ∧
        w.history i (calls.map .quiet) = w₀.history k (before.map .quiet) ++
          ⟨call, .error (.store (.transaction .nested)), c.committed, c.committed⟩ ::
            w₀.history k (after.map .quiet) := by
  induction calls generalizing w w₀ with
  | nil => exact .inl rfl
  | cons call calls ih =>
    obtain ⟨hr, hl'⟩ := hl.turn call
    obtain ⟨hr₀, hl₀'⟩ := hl₀.turn call
    have hcom₀ : w₀.committed k = c.committed := hl₀.committed
    cases hn : call.operation.refusal with
    -- A call that is refused for its arguments does not come to its BEGIN, on either store.
    | some failure =>
      have hrun : ∀ c : Connection, c.transact call.operation = ⟨c, [], .error failure⟩ := by
        intro c
        simp [Connection.transact, hn]
      rw [hrun] at hr hr₀ hl' hl₀'
      have hcom' : (w.turn i (.quiet call)).1.committed i = c.committed := hl'.committed
      have hcom₀' : (w₀.turn k (.quiet call)).1.committed k = c.committed := hl₀'.committed
      rcases ih hl' hl₀' with hsame | ⟨before, later, after, rfl, hb, hsplit⟩
      · refine .inl ?_
        simp only [List.map_cons, World.history, hr, hr₀, hl.committed, hcom₀, hcom', hcom₀', hsame]
      · refine .inr ⟨call :: before, later, after, rfl, ?_, ?_⟩
        · simpa [hn] using hb
        · simp only [List.map_cons, World.history, hr, hr₀, hl.committed, hcom₀, hcom', hcom₀',
            hsplit, hl₀'.history hl₀ after, List.cons_append]
    | none =>
      obtain ⟨hfail, hclear⟩ := Connection.transact_leftover (c := c.bare) rfl hw hn
      rw [hfail] at hr
      have hl'' : (w.turn i (.quiet call)).1.Like i c.anew := by
        obtain ⟨h, hh, he, hb⟩ := hl'
        exact ⟨h, hh, he, hb.trans hclear⟩
      have hcom' : (w.turn i (.quiet call)).1.committed i = c.committed := hl''.committed
      refine .inr ⟨[], call, calls, rfl, by simp, ?_⟩
      simp only [List.map_cons, World.history, hr, hl.committed, hcom', hl''.history hl₀ calls]
      rfl

/-! ## Recovery -/

theorem run_leaves (hh : w.handle? i = some h) (he : h.entered = false) (turns : List Turn) :
    ∃ h₁, (w.run i turns).handle? i = some h₁ ∧ h₁.entered = false ∧
      (h₁.connection.working.isSome → h.connection.working.isSome ∨
        ∃ t ∈ turns, .rollback ∈ t.refusals.map (·.verb)) := by
  induction turns generalizing w h with
  | nil => exact ⟨h, hh, he, .inl⟩
  | cons t turns ih =>
    obtain ⟨-, hh'⟩ := handle_call (handle_refusing hh t.refusals) t.call.operation
    simp only [Handle.perform, he, Bool.false_eq_true, if_false] at hh'
    obtain ⟨h₁, hrun, he₁, hopen⟩ := ih hh' rfl
    refine ⟨h₁, hrun, he₁, fun hw => ?_⟩
    rcases hopen hw with hleft | ⟨t', ht', hv⟩
    · by_cases hv : .rollback ∈ t.refusals.map (·.verb)
      · exact .inr ⟨t, by simp, hv⟩
      · refine .inl ?_
        cases hn : t.call.operation.refusal with
        | some failure => simpa [Connection.transact, hn] using hleft
        | none =>
          have hclosed := Connection.transact_closes
            (c := { h.connection with refusals := t.refusals }) hv hn
          simp [hclosed] at hleft
    · exact .inr ⟨t', by simp [ht'], hv⟩

theorem anew_of_openHome {w : World} {s : Store} (hs : w.stores[i]? = some s) {a : Address}
    {home : Home} (ho : (w.openHome i s a home).2 = .ok ())
    (hh : (w.openHome i s a home).1.handle? i = some h) :
    h.entered = s.entered ∧ h.connection.anew = h.connection := by
  unfold openHome at ho hh
  cases hp : w.prepare i s.path a home with
  | error failure =>
    rw [hp] at ho
    cases ho
  | ok prepared =>
    obtain ⟨db, events⟩ := prepared
    rw [hp] at hh
    simp only at hh
    have hreport : ∀ (events : List Event) (w : World), (events.foldl report w).stores = w.stores := by
      intro events
      induction events with
      | nil => exact fun w => rfl
      | cons e events ih => exact fun w => ih (w.report e)
    obtain ⟨s', link, db', hs', hl', -, -, rfl⟩ := handle?_eq_some.mp hh
    have hkeep : (w.keep home db).1.stores[i]? = some s := by rw [(keep_stores w home db).1, hs]
    rw [show ∀ (w : World) e, (w.report e).stores = w.stores from fun _ _ => rfl, hreport,
      getElem?_setStore _ i hkeep, if_pos rfl, Option.some.injEq] at hs'
    subst hs'
    cases hl'
    exact ⟨rfl, rfl⟩

theorem anew_of_openStore {w : World} {s : Store} (hs : w.stores[i]? = some s) (hl : s.link = none)
    (ho : (w.openStore i).2 = .ok ()) (hh : (w.openStore i).1.handle? i = some h) :
    h.entered = s.entered ∧ h.connection.anew = h.connection := by
  unfold openStore at ho hh
  simp only [hs, show s.isOpen = false by simp [Store.isOpen, hl], Bool.false_eq_true, if_false,
    openClosed] at ho hh
  generalize w.files.makeFolders true (Path.folderText s.path) = made at ho hh
  obtain ⟨files, obstacle⟩ := made
  cases obstacle with
  | some obstacle => cases ho
  | none =>
    cases hbytes : Files.bytesOf s.path with
    | error obstacle =>
      rw [hbytes] at ho
      cases ho
    | ok bytes =>
      cases ha : Address.ofBytes bytes with
      | error fault =>
        simp only [hbytes, ha] at ho
        cases ho
      | ok a =>
        simp only [hbytes, ha, openAddress] at ho hh
        have hst := homeOf_stores { w with files := files } a
        rcases hhome : ({ w with files := files } : World).homeOf a with ⟨w₂, result⟩
        rw [hhome] at ho hh hst
        cases result with
        | error fault => cases ho
        | ok home => exact anew_of_openHome (hst ▸ hs) ho hh

/-- A store that was opened just now on what a connection has committed, with the same around it. -/
def JustOpened (w₀ : World) (k : Nat) (c : Connection) : Prop :=
  ∃ (v : World) (s : Store) (h₀ : Handle), v.stores[k]? = some s ∧ s.link = none ∧
    s.entered = false ∧ v.openStore k = (w₀, .ok ()) ∧ w₀.handle? k = some h₀ ∧
      h₀.connection.committed = c.committed ∧ h₀.connection.around = c.around

theorem JustOpened.like {w₀ : World} {k : Nat} {c : Connection} (ho : w₀.JustOpened k c) :
    w₀.Like k c.anew := by
  obtain ⟨v, s, h₀, hs, hl, he, hopen, hh₀, hc, ha⟩ := ho
  have hresult : (v.openStore k).2 = .ok () := by rw [hopen]
  have hhandle : (v.openStore k).1.handle? k = some h₀ := by rw [hopen]; exact hh₀
  obtain ⟨he₀, hanew⟩ := anew_of_openStore hs hl hresult hhandle
  have hsame : h₀.connection.anew = c.anew := by
    simp only [Connection.around, Prod.mk.injEq] at ha
    simp only [Connection.anew, Connection.bare, hc, ha.1, ha.2.1, ha.2.2]
  exact ⟨h₀, hh₀, he₀.trans he, by rw [← hanew, hsame]⟩

/-- Once nothing is refused any more, whatever was refused before, calls answer and commit what they
do on a store that was opened just now on the same database. Only where a refused rollback has left
a transaction open does one call fail on that, the first that comes to its BEGIN. -/
theorem recovers_after_one (hh : w.handle? i = some h) (he : h.entered = false) (turns : List Turn) :
    ∃ h₁, (w.run i turns).handle? i = some h₁ ∧ h₁.entered = false ∧
      (h₁.connection.working.isSome → h.connection.working.isSome ∨
        ∃ t ∈ turns, .rollback ∈ t.refusals.map (·.verb)) ∧
      (∀ (w₀ : World) (k : Nat), w₀.JustOpened k h₁.connection → ∀ calls : List Call,
        (w.run i turns).history i (calls.map .quiet) = w₀.history k (calls.map .quiet) ∨
          h₁.connection.working.isSome ∧ ∃ before call after, calls = before ++ call :: after ∧
            (∀ b ∈ before, b.operation.refusal.isSome) ∧
            (w.run i turns).history i (calls.map .quiet) = w₀.history k (before.map .quiet) ++
              ⟨call, .error (.store (.transaction .nested)), h₁.connection.committed,
                h₁.connection.committed⟩ :: w₀.history k (after.map .quiet)) ∧
      ∀ (refusals : List Refusal) {α : Type} (main : Routine α) (schedule : List TaskName),
        ((Machine.start { h.connection with refusals := refusals } main).run schedule).Passable := by
  obtain ⟨h₁, hh₁, he₁, hleft⟩ := run_leaves hh he turns
  refine ⟨h₁, hh₁, he₁, hleft, fun w₀ k hopened calls => ?_, fun refusals α main schedule =>
    Machine.passable_run _ main schedule⟩
  have hl : (w.run i turns).Like i h₁.connection := ⟨h₁, hh₁, he₁, rfl⟩
  have hl₀ := hopened.like
  -- What differs from a new connection is what it remembers, and a transaction that was left open.
  cases hw : h₁.connection.working with
  | some db => exact (hl.history_leftover (by simp [hw]) hl₀ calls).imp_right fun hx => ⟨rfl, hx⟩
  | none =>
    have hsame : h₁.connection.anew = h₁.connection.bare := by
      simp [Connection.anew, Connection.bare, hw]
    exact .inl (hl.history (hsame ▸ hl₀ : w₀.Like k h₁.connection.bare) calls)

end

def closedStore : World := (World.empty.addStore (Text.points "r.db")).1

def openedStore : World := (closedStore.openStore 0).1

def register : Call := .registerTopic "t" "p" none (.plain true)

def leavesOpen : List Turn := [⟨[⟨.commit, 0, 1⟩, ⟨.rollback, 0, 1⟩], register⟩]

/-- A registration whose commit and rollback are refused leaves a transaction open. The next one fails
on that, and the one after it does what it does on a store that was opened just now. -/
theorem recovers_after_one_leftover :
    (openedStore.run 0 leavesOpen).history 0 ([register, register].map .quiet) =
      ⟨register, .error (.store (.transaction .nested)), .fresh, .fresh⟩ ::
        openedStore.history 0 ([register].map .quiet) := by
  let seen (w : World) := (w.handle? 0).map fun h =>
    (h.entered, h.connection.committed, h.connection.around)
  have hseen : seen openedStore = some (false, .fresh, none, false, true) := by decide +kernel
  have hseen₁ : seen (openedStore.run 0 leavesOpen) = some (false, .fresh, none, false, true) := by
    decide +kernel
  obtain ⟨h, hh, heq⟩ := Option.map_eq_some_iff.mp hseen
  obtain ⟨he, hc, ha⟩ : h.entered = false ∧ h.connection.committed = .fresh ∧
      h.connection.around = (none, false, true) := by simpa using heq
  obtain ⟨h₁, hh₁, -, -, hanswers, -⟩ := recovers_after_one hh he leavesOpen
  obtain ⟨_, hh₁', heq₁⟩ := Option.map_eq_some_iff.mp hseen₁
  obtain rfl := Option.some.inj (hh₁.symm.trans hh₁')
  obtain ⟨-, hc₁, ha₁⟩ : h₁.entered = false ∧ h₁.connection.committed = .fresh ∧
      h₁.connection.around = (none, false, true) := by simpa using heq₁
  have hopened : openedStore.JustOpened 0 h₁.connection :=
    ⟨closedStore, ⟨Text.points "r.db", none, 0, false, .startedAt 0⟩, h, rfl, rfl, rfl, rfl, hh,
      hc.trans hc₁.symm, ha.trans ha₁.symm⟩
  rcases hanswers openedStore 0 hopened [register, register] with
    hsame | ⟨-, before, call, after, hcalls, hrefused, hsplit⟩
  · have hfails : ((openedStore.run 0 leavesOpen).history 0 ([register, register].map .quiet)).map
        (fun m => m.result.isOk) = [false, true] := by decide +kernel
    have hgoes : (openedStore.history 0 ([register, register].map .quiet)).map
        (fun m => m.result.isOk) = [true, true] := by decide +kernel
    rw [hsame, hgoes] at hfails
    cases hfails
  · cases before with
    | nil =>
      obtain ⟨hcall, hafter⟩ := List.cons.inj hcalls
      rw [hc₁, ← hcall, ← hafter] at hsplit
      exact hsplit
    | cons b before =>
      obtain ⟨hcall, -⟩ := List.cons.inj hcalls
      cases hcall ▸ hrefused b (by simp)

end World

end PubSub
