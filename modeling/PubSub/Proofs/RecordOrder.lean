import PubSub.Proofs.Effects
import PubSub.Proofs.Reachable

/-!
# The order of the records

A request or a withdrawal puts the record of its topic last; a purge takes records out;
everything else leaves the records where they are, with the requests that they carry.
A call does any of that with its last statement (`Script.Shifts`), so one that fails has
not done it, whatever it has written before (`Handle.perform_of_error`).
-/

namespace PubSub

/-- What becomes of the records in their order. -/
inductive Shift where
  | still
  | last (topic : String)
  /-- Some records are taken out. -/
  | thinned
  deriving DecidableEq

def Write.shift : Write → Shift
  | .putSubscription topic .. => .last topic
  | .dropSubscription _ | .dropInState _ => .thinned
  | _ => .still

def Call.shift : Call → Shift
  | .requestSubscribe topic _ | .requestUnsubscribe topic _ | .retire topic
  | .handleWithdrawal topic => .last topic
  | .purge _ | .purgeDeprecated => .thinned
  | _ => .still

namespace Database

/-- The topics of the records in their order, each with the request that is carried. -/
def marks (db : Database) : List (String × Option String) :=
  db.subscriptions.map fun row => (row.topic, row.requestId)

def topicOf (db : Database) (requestId : Option String) : Option String :=
  (db.carrier? requestId).map (·.topic)

theorem topicOf_some (db : Database) (requestId : String) :
    db.topicOf (some requestId) = (db.marks.filter (·.2 = some requestId)).getLast?.map (·.1) := by
  have hcarrier : db.carrier? (some requestId) =
      (db.subscriptions.filter (·.requestId = some requestId)).getLast? := by
    rw [← List.head?_reverse, ← List.filter_reverse, List.head?_filter]
    rfl
  unfold topicOf marks
  rw [hcarrier, List.filter_map, List.getLast?_map, Option.map_map]
  rfl

theorem topicOf_congr {db db' : Database} (h : db'.marks = db.marks) (requestId : Option String) :
    db'.topicOf requestId = db.topicOf requestId := by
  cases requestId with
  | none => rfl
  | some requestId => rw [topicOf_some, topicOf_some, h]

end Database

/-! ## Writes -/

def Shift.Moves : Shift → List (String × Option String) → List (String × Option String) → Prop
  | .still, before, after => after = before
  | .last topic, before, after =>
    ∃ requestId, after = before.filter (·.1 ≠ topic) ++ [(topic, requestId)]
  | .thinned, before, after => after.Sublist before

structure Database.Shifted (shift : Shift) (db db' : Database) : Prop where
  tables : db'.tables = db.tables
  marks : shift.Moves db.marks db'.marks

namespace Database

section
variable {shift : Shift} {db db₁ db' : Database}

theorem Shifted.refl (db : Database) : db.Shifted .still db := ⟨rfl, rfl⟩

theorem Shifted.after (h : db.Shifted .still db₁) (h' : db₁.Shifted shift db') :
    db.Shifted shift db' := by
  refine ⟨h'.tables.trans h.tables, ?_⟩
  have hm : db₁.marks = db.marks := h.marks
  rw [← hm]
  exact h'.marks

theorem marks_filter_topic (db : Database) (topic : String) :
    (db.subscriptions.filter (·.topic ≠ topic)).map (fun row => (row.topic, row.requestId)) =
      db.marks.filter (·.1 ≠ topic) := by
  unfold marks
  rw [List.filter_map]
  rfl

theorem shifted_run {w : Write} {rows : Nat} (hrun : w.run db = .ok (rows, db')) :
    db.Shifted w.shift db' := by
  have hthin : ∀ p : SubscriptionRow → Bool,
      db.Shifted .thinned { db with subscriptions := db.subscriptions.filter p } := fun p =>
    ⟨rfl, List.filter_sublist.map _⟩
  cases w with
  | addMember new =>
    simp only [Write.run, addMember] at hrun
    split at hrun
    · cases hrun
    · split at hrun <;> cases hrun <;> exact ⟨rfl, rfl⟩
  | putSubscription topic state requestId =>
    cases hrun
    refine ⟨rfl, requestId, ?_⟩
    rw [← marks_filter_topic]
    exact List.map_append
  | setState topic state =>
    cases hrun
    refine ⟨rfl, (List.map_map ..).trans (List.map_congr_left fun row _ => ?_)⟩
    simp only [Function.comp]
    split <;> rfl
  | dropSubscription topic =>
    cases hrun
    exact hthin _
  | dropInState state =>
    cases hrun
    exact hthin _
  | _ =>
    cases hrun
    exact ⟨rfl, rfl⟩

end

end Database

/-! ## Scripts -/

namespace Script

section
variable {α β : Type}

/-- Nothing is left to do but to end well. -/
def Closes : Script (Conclusion α) → Prop
  | .done last => ∃ value, last.result = .ok value
  | .note _ next => next.Closes
  | _ => False

def Shifts (shift : Shift) : Script (Conclusion α) → Prop
  | .done _ => shift = .still
  | .fail _ => True
  | .look _ next => ∀ db, (next db).Shifts shift
  | .write w next =>
    (w.shift = .still ∧ ∀ rows, (next rows).Shifts shift) ∨
      (w.shift = shift ∧ ∀ rows, (next rows).Closes)
  | .note _ next => next.Shifts shift

def Rests (s : Script α) : Prop := s.Only (·.shift = .still)

theorem Rests.shifts {s : Script (Conclusion α)} (hs : s.Rests) : s.Shifts .still := by
  induction s with
  | done last => rfl
  | fail failure => trivial
  | look table next ih => exact fun db => ih db (hs db)
  | write w next ih => exact .inl ⟨hs.1, fun rows => ih rows (hs.2 rows)⟩
  | note n next ih => exact ih hs

theorem Shifts.bind {shift : Shift} {s : Script α} {f : α → Script (Conclusion β)} (hs : s.Rests)
    (hf : ∀ a, (f a).Shifts shift) : (s.bind f).Shifts shift := by
  induction s with
  | done a => exact hf a
  | fail failure => trivial
  | look table next ih => exact fun db => ih db (hs db)
  | write w next ih => exact .inl ⟨hs.1, fun rows => ih rows (hs.2 rows)⟩
  | note n next ih => exact ih hs

/-- More to conclude shifts nothing. -/
theorem Shifts.concluding {shift : Shift} {s : Script (Conclusion α)}
    {g : Conclusion α → Conclusion β}
    (hg : ∀ last value, last.result = .ok value → ∃ value', (g last).result = .ok value')
    (hs : s.Shifts shift) : (s.bind fun last => .done (g last)).Shifts shift := by
  have hclose : ∀ s : Script (Conclusion α), s.Closes → (s.bind fun last => .done (g last)).Closes := by
    intro s hs
    induction s with
    | done last => exact hs.elim fun value hv => hg last value hv
    | note n next ih => exact ih hs
    | _ => exact hs.elim
  induction s with
  | done last => exact hs
  | fail failure => trivial
  | look table next ih => exact fun db => ih db (hs db)
  | write w next ih =>
    exact hs.imp (fun h => ⟨h.1, fun rows => ih rows (h.2 rows)⟩)
      fun h => ⟨h.1, fun rows => hclose _ (h.2 rows)⟩
  | note n next ih => exact ih hs

theorem shifts_issue {w : Write} {f : Nat → Script (Conclusion α)} (hf : ∀ rows, (f rows).Closes) :
    ((issue w).bind f).Shifts w.shift := .inr ⟨rfl, hf⟩

end

end Script

/-! ## Calls -/

namespace Operation

theorem shifts_map {α β : Type} {op : Operation α} {shift : Shift} (h : op.body.Shifts shift)
    (f : α → β) : (op.map f).body.Shifts shift :=
  h.concluding fun last value hv => ⟨f value, by simp [Conclusion.map, hv, Except.map]⟩

end Operation

namespace Negotiation

theorem request_shifts (topic : String) (next : State) (requestId : String) :
    (request topic next requestId).Shifts (.last topic) := by
  refine Script.Shifts.bind (stateNow_only _ topic) fun current => ?_
  refine Script.Shifts.bind (check_only _ topic current next) fun _ => ?_
  exact Script.shifts_issue fun rows => ⟨(), rfl⟩

theorem retire_shifts (topic : String) : (retire topic).body.Shifts (.last topic) := by
  refine Script.Shifts.bind (lookUp_only _ topic) fun record => ?_
  refine Script.shifts_issue fun rows => ?_
  split <;> exact ⟨(), rfl⟩

theorem purge_shifts (topic : String) : (purge topic).body.Shifts .thinned := by
  refine Script.shifts_issue fun rows => ?_
  split <;> exact ⟨_, rfl⟩

theorem purgeDeprecated_shifts : purgeDeprecated.body.Shifts .thinned :=
  Script.shifts_issue fun rows => ⟨rows, rfl⟩

end Negotiation

theorem Call.rests {call : Call} (h : call.shift = .still) : call.operation.body.Rests := by
  refine Script.Only.mono (fun w hw => ?_) call.issues
  cases w with
  | putSubscription | dropSubscription | dropInState =>
    cases call <;> simp_all [Call.Issues, Write.Applies, Write.Inserts, Call.shift]
  | _ => rfl

theorem Call.shifts (call : Call) : call.operation.body.Shifts call.shift := by
  cases h : call.shift with
  | still => exact (Call.rests h).shifts
  | last topic =>
    cases call with
    | requestSubscribe t requestId =>
      cases h
      refine Operation.shifts_map ?_ doneReply
      refine Script.Shifts.bind (Script.see_only _ _ _) fun registered => ?_
      split
      · exact Negotiation.request_shifts topic _ requestId
      · trivial
    | requestUnsubscribe t requestId =>
      cases h
      exact Operation.shifts_map (Negotiation.request_shifts topic _ requestId) doneReply
    | retire t =>
      cases h
      exact Operation.shifts_map (Negotiation.retire_shifts topic) doneReply
    | handleWithdrawal t =>
      cases h
      refine Operation.shifts_map ?_ doneReply
      refine (Negotiation.retire_shifts topic).concluding fun last value hv => ⟨(), ?_⟩
      simp [hv, Conclusion.answer]
    | _ => cases h
  | thinned =>
    cases call with
    | purge topic => exact Operation.shifts_map (Negotiation.purge_shifts topic) Reply.truth
    | purgeDeprecated => exact Operation.shifts_map Negotiation.purgeDeprecated_shifts countReply
    | _ => cases h

/-! ## On a connection -/

namespace Connection

/-- What a connection sees has been shifted. A transaction that was open still is, and one that was
not is not. -/
structure Went (shift : Shift) (c c' : Connection) : Prop where
  working : c'.working.isSome = c.working.isSome
  committed : c.working ≠ none → c'.committed = c.committed
  shifted : c.view.Shifted shift c'.view

/-- A shift is written, and not beside the transaction of somebody else. -/
def Free (shift : Shift) (c : Connection) : Prop :=
  shift ≠ .still → c.mayWrite = true ∧ (c.working = none → c.blocked = none ∧ c.observed = false)

inductive Came {α : Type} (shift : Shift) (c c' : Connection) : Except Failure (Conclusion α) → Prop where
  | returned {last : Conclusion α} {value : α} (hl : last.result = .ok value) (h : c.Went shift c')
    (hfree : c.Free shift) : Came shift c c' (.ok last)
  | refused {last : Conclusion α} {failure : Failure} (hl : last.result = .error failure)
    (h : c.Went .still c') : Came shift c c' (.ok last)
  | failed {failure : Failure} (h : c.Went .still c') : Came shift c c' (.error failure)
  | lost {failure : Failure} (hw : c'.working = none) (hc : c'.committed = c.committed) :
    Came shift c c' (.error failure)

section
variable {α : Type} {shift : Shift} {c d c' : Connection}

theorem Went.of_same (hw : c'.working = c.working) (hc : c'.committed = c.committed) :
    c.Went .still c' := by
  refine ⟨by rw [hw], fun _ => hc, ?_⟩
  have hview : c'.view = c.view := by simp only [view, hw, hc]
  rw [hview]
  exact .refl c.view

theorem Went.after (h : c.Went .still d) (h' : d.Went shift c') : c.Went shift c' where
  working := h'.working.trans h.working
  committed hw := by
    have hd : d.working ≠ none := by
      rw [← Option.isSome_iff_ne_none, h.working, Option.isSome_iff_ne_none]
      exact hw
    exact (h'.committed hd).trans (h.committed hw)
  shifted := h.shifted.after h'.shifted

theorem Went.idle (h : c.Went shift c') (hw : c.working = none) : c'.working = none := by
  have hsame := h.working
  rwa [hw, Option.isSome_none, Option.isSome_eq_false_iff, Option.isNone_iff_eq_none] at hsame

theorem Went.committed_still (h : c.Went .still c') : c.committed.Shifted .still c'.committed := by
  cases hw : c.working with
  | some db =>
    rw [h.committed (by simp [hw])]
    exact .refl _
  | none =>
    have hs := h.shifted
    rwa [view_of_idle hw, view_of_idle (h.idle hw)] at hs

theorem Wrote.went {w : Write} {rows : Nat} (h : c.Wrote c' w rows) : c.Went w.shift c' := by
  refine ⟨?_, fun hw => ?_, Database.shifted_run h.run⟩
  · obtain ⟨-, -, -, db, -, hk, -⟩ := h
    rw [hk, Option.isSome_map]
  · obtain ⟨-, -, -, db, -, -, hc⟩ := h
    rw [hc, if_pos (Option.isSome_iff_ne_none.mpr hw)]

theorem free_of_wrote {w : Write} {rows : Nat} (hw : c.write w = (.ok rows, c')) : c.Free shift := by
  intro _
  refine ⟨?_, fun hn => (free_of_write hn hw).2⟩
  by_contra hm
  obtain ⟨failure, d, hf⟩ := write_cases_of_reader (Bool.eq_false_iff.mpr hm) w
  rw [hw] at hf
  cases hf

theorem Free.of_went (ha : d.around = c.around) (h : c.Went .still d) (hf : d.Free shift) :
    c.Free shift := by
  intro hs
  obtain ⟨hm, hn⟩ := hf hs
  simp only [around, Prod.mk.injEq] at ha
  obtain ⟨hb, ho, hmay⟩ := ha
  rw [← hb, ← ho, ← hmay]
  exact ⟨hm, fun hw => hn (h.idle hw)⟩

theorem Came.after {result : Except Failure (Conclusion α)} (h' : d.Came shift c' result)
    (ha : d.around = c.around) (h : c.Went .still d) : c.Came shift c' result := by
  cases h' with
  | returned hl hw hf => exact .returned hl (h.after hw) (hf.of_went ha h)
  | refused hl hw => exact .refused hl (h.after hw)
  | failed hw => exact .failed (h.after hw)
  | lost hw hc =>
    cases hopen : c.working with
    | some db => exact .lost hw (hc.trans (h.committed (by simp [hopen])))
    | none =>
      -- Without a transaction there is none to lose.
      exact .failed (h.after (.of_same (hw.trans (h.idle hopen).symm) hc))

theorem came_of_failed {failure : Failure} (h : c.Failed c' failure) :
    Came (α := α) shift c c' (.error failure) := by
  obtain ⟨-, hu, hw | hw⟩ := h
  · exact .failed (.of_same hw hu.committed)
  · exact .lost hw hu.committed

theorem exec_of_closes {s : Script (Conclusion α)} (hs : s.Closes) (c : Connection) :
    ∃ last value, (c.exec s).result = .ok last ∧ last.result = .ok value ∧
      (c.exec s).connection = c := by
  induction s with
  | done last =>
    obtain ⟨value, hv⟩ := hs
    exact ⟨last, value, rfl, hv, rfl⟩
  | note n next ih => exact ih hs
  | _ => exact hs.elim

theorem came_exec {s : Script (Conclusion α)} (hs : s.Shifts shift) (c : Connection) :
    c.Came shift (c.exec s).connection (c.exec s).result := by
  induction s generalizing c with
  | done last =>
    cases hl : last.result with
    | error failure => exact .refused hl (.of_same rfl rfl)
    | ok value =>
      obtain rfl : shift = .still := hs
      exact .returned hl (.of_same rfl rfl) fun h => absurd rfl h
  | fail failure => exact .failed (.of_same rfl rfl)
  | look table next ih =>
    unfold exec
    split
    · have hgo : c.Went .still c.succeeded := .of_same rfl rfl
      exact (ih c.view (hs c.view) c.succeeded).after rfl hgo
    · exact .failed (.of_same rfl rfl)
  | write w next ih =>
    unfold exec
    rcases c.write_cases w with ⟨failure, d, hw, hf⟩ | ⟨rows, d, hw, hwrote⟩
    · rw [hw]
      exact came_of_failed hf
    · rw [hw]
      rcases hs with ⟨hstill, hnext⟩ | ⟨hshift, hnext⟩
      · exact (ih rows (hnext rows) d).after hwrote.2.2.1 (hstill ▸ hwrote.went)
      · obtain ⟨last, value, hr, hl, hd⟩ := exec_of_closes (hnext rows) d
        simp only [hr, hd]
        exact .returned hl (hshift ▸ hwrote.went) (free_of_wrote hw)
  | note n next ih => exact ih hs c

end

/-! ## Calls on a connection -/

section
variable (c : Connection) (call : Call)

theorem join_shift :
    (∀ reply, (c.join call.operation).result = .ok reply →
      c.Went call.shift (c.join call.operation).connection ∧ c.Free call.shift) ∧
    ∀ failure, (c.join call.operation).result = .error failure →
      c.Went .still (c.join call.operation).connection ∨
        (c.join call.operation).connection.working = none ∧
          (c.join call.operation).connection.committed = c.committed := by
  cases hr : call.operation.refusal with
  | some failure =>
    have hj : c.join call.operation = ⟨c, [], .error failure⟩ := by simp [join, hr]
    rw [hj]
    exact ⟨fun _ h => (by cases h), fun _ _ => .inl (.of_same rfl rfl)⟩
  | none =>
    rw [join_connection c hr]
    have hcame := came_exec call.shifts c
    unfold join
    simp only [hr]
    cases hx : (c.exec call.operation.body).result with
    | error failure =>
      rw [hx] at hcame
      have hfail := call.recovers ((fails_of_exec hx).imp_right fun he => ⟨c.view, he⟩) (.inl rfl)
      simp only [conclude, hfail]
      refine ⟨fun _ hok => (by cases hok), fun _ _ => ?_⟩
      cases hcame with
      | failed h => exact .inl h
      | lost hw hc => exact .inr ⟨hw, hc⟩
    | ok last =>
      rw [hx] at hcame
      simp only [conclude]
      cases hcame with
      | returned hl h hfree =>
        exact ⟨fun _ _ => ⟨h, hfree⟩, fun _ hf => (by cases hl.symm.trans hf)⟩
      | refused hl h =>
        exact ⟨fun _ hok => (by cases hl.symm.trans hok), fun _ _ => .inl h⟩

theorem transact_shift {reply : Reply} (hok : (c.transact call.operation).result = .ok reply) :
    c.Went call.shift (c.transact call.operation).connection ∧ c.Free call.shift := by
  obtain ⟨hn, hn'⟩ := working_of_transact hok
  cases hr : call.operation.refusal with
  | some failure =>
    unfold transact at hok
    rw [hr] at hok
    cases hok
  | none =>
    rcases transact_cases c hr with ⟨failure, hf, hres, -⟩ | ⟨last, db, hb, hres, hcom, -, d, ho, hx, hcommit⟩
    · have hfail := call.recover_fails (hf.imp_right fun h => ⟨_, h⟩)
      cases hok.symm.trans (hres.trans hfail)
    · obtain ⟨hu, hd⟩ := unseen_open ho
      obtain ⟨db', hb', hd'⟩ := exec_of_ok hd hx
      obtain rfl : db = db' := congrArg Prod.snd (hb.symm.trans hb')
      have hcame := came_exec call.shifts d
      rw [hx] at hcame
      cases hcame with
      | refused hl h => cases hok.symm.trans (hres.trans hl)
      | returned hl h hfree =>
        refine ⟨⟨by rw [hn, hn'], fun hw => absurd hn hw, ?_⟩, fun hs => ?_⟩
        · have hshift := h.shifted
          rw [view_of_working hd, view_of_working hd'] at hshift
          rwa [view_of_idle hn, view_of_idle hn', hcom]
        · have ha := hu.around
          simp only [around, Prod.mk.injEq] at ha
          obtain ⟨hb, hobs, hmay⟩ := ha
          have hmw : d.mayWrite = true := (hfree hs).1
          have ha' := exec_around d call.operation.body
          simp only [around, Prod.mk.injEq] at ha'
          have hfreed := observed_of_commit hcommit (ha'.2.2.trans hmw)
          exact ⟨hmay ▸ hmw, fun _ => ⟨blocked_of_open (by rw [ho]), hobs ▸ ha'.2.1 ▸ hfreed⟩⟩

end

end Connection

namespace Handle

section
variable (h : Handle) (call : Call)

/-- A call that is answered has shifted the records as it should, in the transaction of a block or
in its own. -/
theorem perform_of_ok {reply : Reply} (hok : (h.perform call.operation).result = .ok reply) :
    h.connection.Went call.shift (h.perform call.operation).connection ∧
      h.connection.Free call.shift := by
  unfold perform at hok ⊢
  split
  · rename_i he
    rw [if_pos he] at hok
    exact (h.connection.join_shift call).1 reply hok
  · rename_i he
    rw [if_neg he] at hok
    exact h.connection.transact_shift call hok

/-- A call that fails has shifted nothing. In a block the transaction may have been lost, and outside
nothing is committed. -/
theorem perform_of_error {failure : Failure}
    (hf : (h.perform call.operation).result = .error failure) :
    (h.entered = true ∧ h.connection.Went .still (h.perform call.operation).connection) ∨
      (h.entered = true → (h.perform call.operation).connection.working = none) ∧
        (h.perform call.operation).connection.committed = h.connection.committed := by
  unfold perform at hf ⊢
  cases he : h.entered with
  | true =>
    simp only [he, if_true] at hf ⊢
    exact ((h.connection.join_shift call).2 failure hf).imp (fun hw => ⟨trivial, hw⟩)
      fun hl => ⟨fun _ => hl.1, hl.2⟩
  | false =>
    simp only [he, Bool.false_eq_true, if_false] at hf ⊢
    refine .inr ⟨fun hn => (by cases hn), ?_⟩
    rcases h.connection.transact_call call with ⟨_, -, hc⟩ | ⟨reply, hok, -⟩
    · exact hc
    · cases hf.symm.trans hok

end

end Handle

end PubSub
