import PubSub.Proofs.Denials
import PubSub.Proofs.Ledger
import PubSub.Proofs.Responding

/-!
# The log of steps

Steps of topics are logged where they are taken and counted where a call of the authority is
concluded. Either has an idea of its own of what is none: a withdrawal of a topic that is
withdrawn already is counted and not logged, and a confirmation that fails after its step
has been logged, though nothing of it stays. Apart from these, both are the number of calls
that changed the state of a topic (`counter_and_log`).
-/

namespace PubSub

/-! ## Steps among notes -/

def Event.isStep : Event → Bool
  | .transition .. => true
  | _ => false

def Note.isStep : Note → Bool
  | .event e => e.isStep
  | .count _ => false

def told (notes : List Note) : Nat := notes.countP Note.isStep

@[simp] theorem told_nil : told [] = 0 := rfl

@[simp] theorem told_append (notes more : List Note) : told (notes ++ more) = told notes + told more :=
  List.countP_append

/-! ## What scripts note -/

namespace Script

section
variable {α β : Type}

def notes : Script α → Database → List Note
  | .done _, _ | .fail _, _ => []
  | .look table next, db => if db.has table then (next db).notes db else []
  | .write w next, db =>
    if !db.has w.table then []
    else if !w.storable then []
    else
      match w.run db with
      | .ok (rows, db) => (next rows).notes db
      | .error _ => []
  | .note n next, db => n :: next.notes db

def notesAfter (f : α → Script β) : Except Failure α × Database → List Note
  | (.ok a, db) => (f a).notes db
  | (.error _, _) => []

theorem notes_bind (s : Script α) (f : α → Script β) (db : Database) :
    (s.bind f).notes db = s.notes db ++ notesAfter f (s.eval db) := by
  induction s generalizing db with
  | done a => rfl
  | fail failure => rfl
  | look table next ih =>
    simp only [Script.bind, notes, eval]
    split
    · exact ih _ _
    · rfl
  | write w next ih =>
    simp only [Script.bind, notes, eval]
    split
    · rfl
    · split
      · rfl
      · cases w.run db with
        | ok p => exact ih _ _
        | error fault => rfl
  | note n next ih => exact congrArg (n :: ·) (ih db)

theorem notes_noteAll (notes : List Note) (s : Script α) (db : Database) :
    (noteAll notes s).notes db = notes ++ s.notes db := by
  induction notes with
  | nil => rfl
  | cons n notes ih => exact congrArg (n :: ·) ih

theorem notes_ofExcept (e : Except Failure α) (db : Database) : (ofExcept e).notes db = [] := by
  cases e <;> rfl

theorem notes_catching (caught : Failure → Bool) (s : Script α) (db : Database) :
    (s.catching caught).notes db = s.notes db := by
  induction s generalizing db with
  | done a => rfl
  | fail failure =>
    simp only [catching]
    split <;> rfl
  | look table next ih => simp only [catching, notes, ih]
  | write w next ih => simp only [catching, notes, ih]
  | note n next ih => exact congrArg (n :: ·) (ih db)

/-! ### Scripts that tell of no step -/

def Untold (s : Script α) : Prop := ∀ db, told (s.notes db) = 0

theorem told_notesAfter {f : α → Script β} (hf : ∀ a, (f a).Untold)
    (result : Except Failure α × Database) : told (notesAfter f result) = 0 := by
  obtain ⟨result, db⟩ := result
  cases result with
  | ok a => exact hf a db
  | error failure => rfl

theorem told_bind {f : α → Script β} (hf : ∀ a, (f a).Untold) (s : Script α) (db : Database) :
    told ((s.bind f).notes db) = told (s.notes db) := by
  rw [notes_bind, told_append, told_notesAfter hf, Nat.add_zero]

theorem told_bind_of_ok {s : Script α} (hs : s.Untold) {db db' : Database} {a : α}
    (he : s.eval db = (.ok a, db')) (f : α → Script β) :
    told ((s.bind f).notes db) = told ((f a).notes db') := by
  rw [notes_bind, told_append, hs db, Nat.zero_add, he]
  rfl

theorem Untold.bind {s : Script α} {f : α → Script β} (hs : s.Untold) (hf : ∀ a, (f a).Untold) :
    (s.bind f).Untold := fun db => (told_bind hf s db).trans (hs db)

theorem untold_see (table : Table) (view : Database → α) : (see table view).Untold := by
  intro db
  unfold see notes
  split <;> rfl

theorem untold_issue (w : Write) : (issue w).Untold := by
  intro db
  unfold issue notes
  split
  · rfl
  · split
    · rfl
    · split <;> rfl

theorem untold_ofExcept (e : Except Failure α) : (ofExcept e).Untold := fun db => by
  rw [notes_ofExcept, told_nil]

end

end Script

namespace Connection

variable {α : Type} {c : Connection}

/-- In a transaction where no statement can fail but by what it says, exactly that is noted. -/
theorem notes_of_steady {db : Database} (h : c.working = some db) (hs : c.Steady) (s : Script α) :
    (c.exec s).notes = s.notes db := by
  induction s generalizing c db with
  | done a => rfl
  | fail failure => rfl
  | look table next ih =>
    unfold exec
    simp only [Script.notes, view_of_working h]
    split
    · exact ih _ (c := c.succeeded) h ⟨hs.refusals, hs.mayWrite, rfl⟩
    · rfl
  | write w next ih =>
    unfold exec
    simp only [Script.notes, write_of_steady h hs]
    cases db.has w.table with
    | false => rfl
    | true =>
      cases w.storable with
      | false => rfl
      | true =>
        cases hrun : w.run db with
        | error fault => rfl
        | ok p =>
          obtain ⟨rows, db'⟩ := p
          refine ih rows ?_ (steady_store hs w db')
          rw [store_working, show (c.preparing w).succeeded.working = some db from
            (preparing_working c w).trans h]
          rfl
  | note n next ih => exact congrArg (n :: ·) (ih h hs)

end Connection

/-! ## What operations note -/

namespace Operation

section
variable {α β : Type} {op : Operation α}

def notes (op : Operation α) (db : Database) : List Note :=
  match op.refusal with
  | some _ => []
  | none =>
    op.body.notes db ++
      match (op.body.eval db).1 with
      | .ok last => last.notes
      | .error failure => (op.recover failure.leaving).notes

theorem notes_map (op : Operation α) (f : α → β) (db : Database) :
    (op.map f).notes db = op.notes db := by
  unfold notes map
  cases op.refusal with
  | some failure => rfl
  | none =>
    simp only [Script.notes_bind, Script.eval_bind, List.append_assoc]
    cases op.body.eval db with
    | mk result db' => cases result <;> rfl

theorem told_concluding {f : Except Failure α → Conclusion β}
    (hf : ∀ result, told (f result).notes = 0) (db : Database) :
    told ((op.concluding f).notes db) = told (op.notes db) := by
  unfold notes concluding
  cases op.refusal with
  | some failure => rfl
  | none =>
    simp only [Script.notes_bind, Script.eval_bind, told_append]
    cases op.body.eval db with
    | mk result db' =>
      cases result <;>
        simp [Script.notesAfter, Script.notes, Script.andThen_ok, Script.andThen_error, hf]

theorem notes_inline (op : Operation α) (hr : ∀ failure, (op.recover failure).notes = [])
    (db : Database) : op.inline.notes db = op.notes db := by
  unfold notes inline
  cases op.refusal with
  | some failure => rfl
  | none =>
    simp only [Script.notes_bind]
    cases op.body.eval db with
    | mk result db' =>
      cases result with
      | ok last =>
        simp only [Script.notesAfter, Script.notes_noteAll, Script.notes_ofExcept, List.append_nil]
      | error failure => simp only [Script.notesAfter, hr]

theorem told_of_ends (hr : op.refusal = none) (he : op.body.Ends fun last => told last.notes = 0)
    (hrec : ∀ failure, told (op.recover failure).notes = 0) (db : Database) :
    told (op.notes db) = told (op.body.notes db) := by
  unfold notes
  rw [hr]
  simp only [told_append]
  cases hb : op.body.eval db with
  | mk result db' =>
    cases result with
    | ok last => simp only [he.of_eval (congrArg Prod.fst hb), Nat.add_zero]
    | error failure => simp only [hrec, Nat.add_zero]

/-- Neither the body tells of a step nor what it is concluded with. -/
structure Untold (op : Operation α) : Prop where
  body : op.body.Untold
  ends : op.body.Ends fun last => told last.notes = 0

theorem Untold.inline (h : op.Untold) : op.inline.Untold := by
  intro db
  unfold Operation.inline
  cases op.refusal with
  | some failure => rfl
  | none =>
    simp only [Script.notes_bind, told_append, h.body db, Nat.zero_add]
    cases he : op.body.eval db with
    | mk result db' =>
      cases result with
      | ok last =>
        simp only [Script.notesAfter, Script.notes_noteAll, Script.notes_ofExcept, List.append_nil]
        exact h.ends.of_eval (congrArg Prod.fst he)
      | error failure => rfl

end

end Operation

theorem Connection.notes_transact {α : Type} {c : Connection} (hc : c.Calm) (op : Operation α) :
    (c.transact op).notes = op.notes c.committed := by
  unfold transact Operation.notes
  cases op.refusal with
  | some failure => rfl
  | none =>
    obtain ⟨d, ho, hd, hw, hs⟩ := open?_of_calm hc
    obtain ⟨hx, hst⟩ := exec_of_steady hw hs op.body
    have hn := notes_of_steady hw hs op.body
    simp only [ho]
    cases he : op.body.eval c.committed with
    | mk result db =>
      rw [he] at hx hst
      cases result with
      | error failure =>
        simp only at hx
        have hback : (d.exec op.body).connection.rollback.1 = [] := by
          unfold rollback
          rw [ask_of_none (exec_refusals hs.refusals op.body)]
          split <;> rfl
        simp only [hx, giveUp, conclude, hback, hn, List.append_nil]
      | ok last =>
        simp only at hx
        obtain ⟨db', -, hk⟩ := exec_of_ok hw hx
        have hobs : (d.exec op.body).connection.observed = false :=
          (congrArg (·.2.1) (hd.trans (exec_unseen hw op.body)).around).trans hc.observed
        simp only [hx, commit, ask_of_none (hst last rfl).refusals, hk, hobs, Bool.and_false]
        simp only [Bool.false_eq_true, if_false, conclude, hn]

/-! ## The log of a world -/

namespace World

def stepsLogged (w : World) : Nat := w.log.countP Event.isStep

theorem stepsLogged_takeNotes (w : World) (i : Nat) (notes : List Note) :
    (w.takeNotes i notes).stepsLogged = w.stepsLogged + told notes := by
  unfold takeNotes
  induction notes generalizing w with
  | nil => rfl
  | cons n notes ih =>
    have hn : (takeNote i w n).stepsLogged = w.stepsLogged + told [n] := by
      cases n with
      | event e => exact List.countP_append
      | count name =>
        simp only [takeNote]
        split <;> rfl
    rw [List.foldl_cons, ih, hn, Nat.add_assoc, ← told_append]
    rfl

theorem log_putBack (w : World) (i : Nat) (s : Store) (link : Link) (c : Connection) :
    (w.putBack i s link c).log = w.log := by
  have hkeep : (w.keep link.home c.committed).1.log = w.log := by
    unfold keep
    split
    · rfl
    · rfl
    · split <;> rfl
  exact hkeep

theorem stepsLogged_call {w : World} {i : Nat} (hc : w.Calm i) {db : Database}
    (hd : w.committed? i = some db) (op : Operation Reply) :
    (w.call i op).1.stepsLogged = w.stepsLogged + told (op.notes db) := by
  obtain ⟨h, hh, he, hcalm⟩ := hc
  rw [committed?_of_handle hh, Option.some.injEq] at hd
  obtain ⟨s, link, _, hs, hl, -, -, rfl⟩ := handle?_eq_some.mp hh
  have hn := Connection.notes_transact hcalm op
  unfold call
  simp only [hs, hl, show s.entered = false from he, Bool.false_eq_true, if_false]
  rw [stepsLogged_takeNotes, hn, hd]
  exact congrArg (List.countP Event.isStep · + _) (log_putBack ..)

end World

/-! ## What the parts of a call tell -/

namespace Negotiation

theorem untold_lookUp (topic : String) : (lookUp topic).Untold := by
  refine .bind (Script.untold_see _ _) fun row => ?_
  cases row with
  | none => exact fun _ => rfl
  | some row => exact Script.untold_ofExcept _

theorem untold_get (topic : String) : (get topic).Untold :=
  ⟨.bind (untold_lookUp topic) fun _ _ => rfl, Script.Ends.bind (.true _) fun _ _ => rfl⟩

theorem untold_topicOfRequest (requestId : Option String) : (topicOfRequest requestId).Untold :=
  ⟨.bind (Script.untold_see _ _) fun _ _ => rfl, Script.Ends.bind (.true _) fun _ _ => rfl⟩

theorem untold_resolve_body (topic : String) (accepted : Bool) :
    (resolve topic accepted).body.Untold := by
  refine .bind (untold_lookUp topic) fun record => ?_
  dsimp only
  split
  · exact fun _ => rfl
  · refine .bind (fun _ => ?_) fun _ => .bind (Script.untold_issue _) fun _ _ => rfl
    unfold check
    split <;> rfl

theorem untold_retire_body (topic : String) : (retire topic).body.Untold := by
  refine .bind (untold_lookUp topic) fun record => .bind (Script.untold_issue _) fun _ => ?_
  split <;> exact fun _ => rfl

end Negotiation

namespace Membership

theorem untold_add (topic subscriber : String) (details : Details) (expiry : Option Int)
    (requestId : Option String) : (add topic subscriber details expiry requestId).Untold := by
  refine ⟨.bind (Script.untold_ofExcept _) fun _ => .bind (Script.untold_issue _) fun rows => ?_,
    Script.Ends.bind (.true _) fun _ _ => Script.Ends.bind (.true _) fun rows _ => ?_⟩
  · split <;> exact fun _ => rfl
  · split <;> rfl

theorem untold_remove (topic subscriber : String) : (remove topic subscriber).Untold := by
  refine ⟨.bind (Script.untold_issue _) fun rows => ?_, Script.Ends.bind (.true _) fun rows _ => ?_⟩
  · split <;> exact fun _ => rfl
  · split <;> rfl

end Membership

section
variable {db : Database} (h : db.WellFormed)

include h

theorem Negotiation.told_resolve (topic : String) (accepted : Bool) :
    told ((resolve topic accepted).notes db) = if (db.stateOf topic).isPending then 1 else 0 := by
  rw [← State.isSome_resolution?]
  simp only [Operation.notes, show (resolve topic accepted).refusal = none from rfl, told_append,
    untold_resolve_body topic accepted db, resolve_body_eval h]
  cases (db.stateOf topic).resolution? <;> rfl

theorem Negotiation.told_retire (topic : String) :
    told ((retire topic).notes db) = if db.stateOf topic = .deprecated then 0 else 1 := by
  simp only [Operation.notes, show (retire topic).refusal = none from rfl, told_append,
    untold_retire_body topic db, retire_body_eval h]
  split <;> rfl

namespace Response

theorem told_confirmWithMember (topic subscriber : String) (details : Details) (expiry : Option Int) :
    told ((confirmWithMember topic subscriber details expiry).notes db) =
      if (db.stateOf topic).isPending then 1 else 0 := by
  refine (Script.told_bind_of_ok (Negotiation.untold_get topic).inline
    (Negotiation.get_returns h topic) _).trans ?_
  refine (Script.told_bind (fun state => ?_) _ db).trans ?_
  · dsimp only
    split
    · exact (Membership.untold_add ..).inline.bind fun _ _ => rfl
    · exact (Membership.untold_remove ..).inline.bind fun _ _ => rfl
  · rw [Negotiation.confirm, Operation.notes_inline _ (fun _ => rfl), Negotiation.told_resolve h]

theorem told_confirming (topic subscriber : String) (details : Details) (expiry : Option Int) :
    told (Operation.notes
      { body := (confirmWithMember topic subscriber details expiry).bind fun state =>
          .done (.answer state) } db) = if (db.stateOf topic).isPending then 1 else 0 := by
  have hends : ((confirmWithMember topic subscriber details expiry).bind fun state =>
      Script.done (Conclusion.answer state)).Ends fun last => told last.notes = 0 :=
    Script.Ends.bind (.true _) fun _ _ => rfl
  rw [Operation.told_of_ends rfl hends fun _ => rfl, Script.told_bind fun _ _ => rfl,
    told_confirmWithMember h]

omit h in
theorem told_counted (result : Except Failure State) : told (counted result).notes = 0 := by
  cases result with
  | ok state => rfl
  | error failure =>
    simp only [counted, Conclusion.refuse]
    split <;> rfl

theorem told_apply (topic : String) (accepted : Bool) (subscriber : String) (details : Details)
    (expiry : Option Int) : told ((apply topic accepted subscriber details expiry).notes db) =
      if (db.stateOf topic).isPending then 1 else 0 := by
  cases accepted with
  | true => exact told_confirmWithMember h topic subscriber details expiry
  | false =>
    have hn := Operation.notes_inline (Negotiation.deny topic) (fun _ => rfl) db
    exact (congrArg told hn).trans (Negotiation.told_resolve h topic false)

theorem told_handle (requestId : Option String) (accepted : Bool) (subscriber : String)
    (details : Details) (expiry : Option Int) :
    told ((handle requestId accepted subscriber details expiry).notes db) =
      if ((db.carrier? requestId).map (·.topic)).any (fun t => (db.stateOf t).isPending) then 1
      else 0 := by
  have hends : (handle requestId accepted subscriber details expiry).body.Ends
      fun last => told last.notes = 0 := by
    refine Script.Ends.bind (.true _) fun topic _ => ?_
    cases topic with
    | none => rfl
    | some topic =>
      refine Script.Ends.bind (.true _) fun result _ => ?_
      cases result with
      | ok state => rfl
      | error failure =>
        change told (stale requestId topic accepted failure).notes = 0
        simp only [stale, Conclusion.answer]
        split <;> rfl
  rw [Operation.told_of_ends rfl hends fun _ => rfl]
  refine (Script.told_bind_of_ok (Negotiation.untold_topicOfRequest requestId).inline
    ((Negotiation.topicOfRequest_returns h).mpr ⟨rfl, rfl⟩) _).trans ?_
  cases db.carrier? requestId with
  | none => rfl
  | some row =>
    refine (Script.told_bind (fun result => ?_) _ db).trans ?_
    · cases result <;> exact fun _ => rfl
    · rw [Script.notes_catching, told_apply h]
      rfl

end Response

end

/-! ## Calls of the authority -/

namespace Call

/-- The calls that bring what the authority has decided. -/
def isVerdict : Call → Bool
  | .applyConfirmation .. | .applyDenial _ | .handleResponse .. | .handleWithdrawal _ => true
  | _ => false

/-- Whether a decision finds its topic in a state that it ends. -/
def finds (db : Database) (call : Call) : Bool :=
  (call.addressee? db).any fun topic =>
    match call with
    | .handleWithdrawal _ => db.stateOf topic ≠ .deprecated
    | _ => (db.stateOf topic).isPending

def repeats (db : Database) : Call → Bool
  | .handleWithdrawal topic => db.stateOf topic = .deprecated
  | _ => false

theorem told_verdict {call : Call} (hv : call.isVerdict = true) {db : Database} (h : db.WellFormed) :
    told (call.operation.notes db) = if call.finds db then 1 else 0 := by
  have hmap : ∀ {α : Type} (op : Operation α) (f : α → Reply), told ((op.map f).notes db) =
      told (op.notes db) := fun op f => congrArg told (op.notes_map f db)
  cases call with
  | applyConfirmation topic subscriber details expiry =>
    refine (hmap _ _).trans ((Operation.told_concluding Response.told_counted db).trans ?_)
    exact Response.told_confirming h topic subscriber details expiry
  | applyDenial topic =>
    refine (hmap _ _).trans ((Operation.told_concluding Response.told_counted db).trans ?_)
    exact Negotiation.told_resolve h topic false
  | handleWithdrawal topic =>
    refine (hmap _ _).trans ((Operation.told_concluding (fun result => ?_) db).trans ?_)
    · cases result <;> rfl
    · rw [Negotiation.told_retire h]
      by_cases hs : db.stateOf topic = .deprecated <;> simp [finds, addressee?, address?, hs]
  | handleResponse requestId accepted subscriber details expiry =>
    exact (hmap _ _).trans (Response.told_handle h requestId accepted subscriber details expiry)
  | _ => cases hv

section
variable {db db' : Database} (h : db.WellFormed)

include h

theorem moves_of_apply {topic subscriber : String} {accepted : Bool} {details : Details}
    {expiry : Option Int} {state : State}
    (ha : (Response.apply topic accepted subscriber details expiry).eval db = (.ok state, db')) :
    (db.stateOf topic).isPending = true ∧ ∃ t, db'.stateOf t ≠ db.stateOf t := by
  obtain ⟨resolution, hr, rfl, -, hs⟩ := Response.apply_ok h ha
  have hp : (db.stateOf topic).isPending = true := by rw [← State.isSome_resolution?, hr]; rfl
  refine ⟨hp, topic, fun he => ?_⟩
  rw [Database.stateOf_congr hs, Database.stateOf_resolve hr, if_pos rfl] at he
  rw [← he, State.not_pending_outcome hr accepted] at hp
  cases hp

theorem verdict_of_returns {call : Call} (hv : call.isVerdict = true) {reply : Reply}
    (hr : call.operation.Returns db reply db') :
    ((∃ t, db'.stateOf t ≠ db.stateOf t) ↔ call.finds db = true) ∧
      Counter.transitions.counts db call (.ok reply) = (call.finds db || call.repeats db) := by
  -- A decision that is answered and finds what it ends moves its topic and is counted.
  have hmoves : ∀ {call : Call} {reply : Reply}, call.finds db = true →
      Counter.transitions.counts db call (.ok reply) = true →
      (∃ t, db'.stateOf t ≠ db.stateOf t) → ((∃ t, db'.stateOf t ≠ db.stateOf t) ↔
        call.finds db = true) ∧
        Counter.transitions.counts db call (.ok reply) = (call.finds db || call.repeats db) :=
    fun hf hcount hmoved => ⟨iff_of_true hmoved hf, by rw [hcount, hf, Bool.true_or]⟩
  cases call with
  | applyConfirmation topic subscriber details expiry =>
    obtain ⟨state, ho, rfl⟩ := Operation.returns_map.mp hr
    obtain ⟨hp, hmoved⟩ := moves_of_apply h (Response.applyConfirmation_returns.mp ho)
    exact hmoves hp rfl hmoved
  | applyDenial topic =>
    obtain ⟨state, ho, rfl⟩ := Operation.returns_map.mp hr
    have ha : (Response.apply topic false "" (.list []) none).eval db = (.ok state, db') :=
      Response.applyDenial_returns.mp ho
    obtain ⟨hp, hmoved⟩ := moves_of_apply h ha
    exact hmoves hp rfl hmoved
  | handleResponse requestId accepted subscriber details expiry =>
    obtain ⟨outcome, ho, rfl⟩ := Operation.returns_map.mp hr
    rcases Response.handle_returns h ho with ⟨rfl, rfl⟩ | ⟨rfl, row, state, hc, ha⟩
    · have hnone := (Response.ignored_iff h accepted subscriber details expiry).mp ⟨_, ho⟩
      have hf : (Call.handleResponse requestId accepted subscriber details expiry).finds db' = false := by
        cases hc : db'.carrier? requestId with
        | none => simp [finds, addressee?, hc]
        | some row => simp [finds, addressee?, hc, hnone row hc]
      rw [hf]
      exact ⟨iff_of_false (fun ⟨_, hne⟩ => hne rfl) Bool.false_ne_true, rfl⟩
    · obtain ⟨hp, hmoved⟩ := moves_of_apply h ha
      exact hmoves (by simp [finds, addressee?, hc, hp]) rfl hmoved
  | handleWithdrawal topic =>
    obtain ⟨_, ho, rfl⟩ := Operation.returns_map.mp hr
    obtain rfl := (Negotiation.retire_returns h).mp (Response.handleWithdrawal_returns.mp ho)
    have hf : (Call.handleWithdrawal topic).finds db = decide (db.stateOf topic ≠ .deprecated) := rfl
    have hstate := Database.stateOf_putSubscription db topic .deprecated (db.requestOf topic)
    rw [hf, decide_eq_true_iff]
    refine ⟨⟨fun ⟨t, ht⟩ hs => ht ?_, fun hs => ⟨topic, ?_⟩⟩, ?_⟩
    · rw [hstate]
      split
      · rename_i he
        rw [he, hs]
      · rfl
    · rw [hstate, if_pos rfl]
      exact Ne.symm hs
    · by_cases hs : db.stateOf topic = .deprecated <;> simp [Counter.counts, repeats, hs]
  | _ => cases hv

theorem returns_or_grants {call : Call} (hv : call.isVerdict = true) (hf : call.finds db = true) :
    (∃ reply db', call.operation.Returns db reply db') ∨
      ∃ topic subscriber expiry, call.grant? db = some (topic, subscriber, expiry) ∧
        db.stateOf topic = .subscribePending := by
  have happly : ∀ {topic : String} (accepted : Bool) (subscriber : String) (details : Details)
      (expiry : Option Int), (db.stateOf topic).isPending = true →
      (∃ state db', (Response.apply topic accepted subscriber details expiry).eval db =
        (.ok state, db')) ∨ accepted = true ∧ db.stateOf topic = .subscribePending := by
    intro topic accepted subscriber details expiry hp
    simp only [Response.apply_iff h]
    cases accepted with
    | false =>
      obtain ⟨resolution, hr⟩ := Option.isSome_iff_exists.mp ((State.isSome_resolution? _).trans hp)
      exact .inl ⟨_, _, resolution, hr, rfl, rfl⟩
    | true =>
      cases hs : db.stateOf topic with
      | subscribePending => exact .inr ⟨rfl, rfl⟩
      | unsubscribePending => exact .inl ⟨_, _, ⟨_, _⟩, rfl, rfl, rfl⟩
      | _ =>
        rw [hs] at hp
        cases hp
  cases call with
  | applyConfirmation topic subscriber details expiry =>
    rcases happly true subscriber details expiry hf with ⟨state, db', ha⟩ | ⟨-, hs⟩
    · exact .inl ⟨_, db', Operation.returns_map.mpr
        ⟨state, Response.applyConfirmation_returns.mpr ha, rfl⟩⟩
    · exact .inr ⟨topic, subscriber, expiry, rfl, hs⟩
  | applyDenial topic =>
    rcases happly false "" (.list []) none hf with ⟨state, db', ha⟩ | ⟨hfalse, -⟩
    · exact .inl ⟨_, db', Operation.returns_map.mpr ⟨state, Response.applyDenial_returns.mpr ha, rfl⟩⟩
    · cases hfalse
  | handleWithdrawal topic =>
    exact .inl ⟨_, _, Operation.returns_map.mpr ⟨(), Response.handleWithdrawal_returns.mpr
      ((Negotiation.retire_returns h).mpr rfl), rfl⟩⟩
  | handleResponse requestId accepted subscriber details expiry =>
    obtain ⟨topic, ht, hp⟩ := (Option.any_eq_true _ _).mp hf
    obtain ⟨row, hc, rfl⟩ := Option.map_eq_some_iff.mp ht
    rcases happly accepted subscriber details expiry hp with ⟨state, db', ha⟩ | ⟨rfl, hs⟩
    · exact .inl ⟨_, db', Operation.returns_map.mpr ⟨.applied, Response.handle_applied h hc ha, rfl⟩⟩
    · exact .inr ⟨row.topic, subscriber, expiry, by simp [grant?, hc], hs⟩
  | _ => cases hv

end

end Call

theorem Call.finds_of_repeats {call : Call} {db : Database} (h : call.repeats db = true) :
    call.finds db = false := by
  cases call with
  | handleWithdrawal topic =>
    have hs : db.stateOf topic = .deprecated := by simpa [repeats] using h
    simp [finds, addressee?, address?, hs]
  | _ => cases h

/-! ## Moments -/

theorem Database.subscription?_isSome_of_ne {db db' : Database} {topic : String}
    (h : db'.stateOf topic ≠ db.stateOf topic) :
    (db.subscription? topic).isSome ∨ (db'.subscription? topic).isSome := by
  by_contra hn
  obtain ⟨hnone, hnone'⟩ := not_or.mp hn
  rw [Option.not_isSome_iff_eq_none] at hnone hnone'
  exact h (by simp [stateOf, hnone, hnone'])

namespace Moment

def changes (m : Moment) : Bool :=
  (m.before.subscriptions ++ m.after.subscriptions).any fun row =>
    m.after.stateOf row.topic ≠ m.before.stateOf row.topic

/-- A withdrawal is answered of a topic that was withdrawn before. -/
def repeats (m : Moment) : Bool := m.result.toBool && m.call.repeats m.before

def tears (m : Moment) : Bool := !m.result.toBool && m.call.finds m.before

theorem changes_iff {m : Moment} :
    m.changes = true ↔ ∃ topic, m.after.stateOf topic ≠ m.before.stateOf topic := by
  simp only [changes, List.any_eq_true, decide_eq_true_iff]
  refine ⟨fun ⟨row, _, hne⟩ => ⟨row.topic, hne⟩, fun ⟨topic, hne⟩ => ?_⟩
  have hrow : ∃ row ∈ m.before.subscriptions ++ m.after.subscriptions, row.topic = topic := by
    rcases Database.subscription?_isSome_of_ne hne with hs | hs <;>
      obtain ⟨row, hrow⟩ := Option.isSome_iff_exists.mp hs
    · exact ⟨row, List.mem_append_left _ (List.mem_of_find?_eq_some hrow),
        by simpa using List.find?_some hrow⟩
    · exact ⟨row, List.mem_append_right _ (List.mem_of_find?_eq_some hrow),
        by simpa using List.find?_some hrow⟩
  obtain ⟨row, hmem, rfl⟩ := hrow
  exact ⟨row, hmem, hne⟩

section
variable {m : Moment} (hv : m.call.isVerdict = true) (h : m.before.WellFormed)
  (ho : Call.Outcome m.before m.call m.result m.after)

include hv h ho

theorem finds_eq : (if m.call.finds m.before then 1 else 0) =
    (if m.changes then 1 else 0) + if m.tears then 1 else 0 := by
  obtain ⟨call, result, before, after⟩ := m
  cases ho with
  | fails failure => simp [changes, tears, Except.toBool]
  | returns hr =>
    have hc : changes ⟨call, .ok _, before, after⟩ = call.finds before :=
      Bool.eq_iff_iff.mpr (changes_iff.trans (Call.verdict_of_returns h hv hr).1)
    simp [hc, tears, Except.toBool]

theorem moves_eq : (if m.moves .transitions then 1 else 0) =
    (if m.changes then 1 else 0) + if m.repeats then 1 else 0 := by
  obtain ⟨call, result, before, after⟩ := m
  cases ho with
  | fails failure =>
    have hc : Counter.transitions.counts before call (.error failure) = false := by
      cases call <;> rfl
    simp [changes, repeats, moves, hc, Except.toBool]
  | @returns reply _ hr =>
    obtain ⟨hiff, hcounts⟩ := Call.verdict_of_returns h hv hr
    have hc : changes ⟨call, .ok reply, before, after⟩ = call.finds before :=
      Bool.eq_iff_iff.mpr (changes_iff.trans hiff)
    have hm : moves .transitions ⟨call, .ok reply, before, after⟩ =
      (call.finds before || call.repeats before) := hcounts
    -- Whoever repeats a withdrawal finds nothing to end, so the two do not add up.
    cases hrep : call.repeats before with
    | true => simp [hm, hc, repeats, hrep, Call.finds_of_repeats hrep, Except.toBool]
    | false => simp [hm, hc, repeats, hrep]

end

end Moment

theorem countP_eq_add {α : Type} {p q r : α → Bool} {l : List α}
    (h : ∀ a ∈ l, (if p a then 1 else 0) = (if q a then 1 else 0) + if r a then 1 else 0) :
    l.countP p = l.countP q + l.countP r := by
  induction l with
  | nil => rfl
  | cons a l ih =>
    have hfirst := h a List.mem_cons_self
    have hrest := ih fun b hb => h b (List.mem_cons_of_mem _ hb)
    rw [List.countP_cons, List.countP_cons, List.countP_cons, hrest, hfirst]
    omega

/-! ## Runs -/

namespace World

section
variable {w : World} {i : Nat} {turns : List Turn}

theorem stepsLogged_refusing (w : World) (i : Nat) (refusals : List Refusal) :
    (w.refusing i refusals).stepsLogged = w.stepsLogged := by
  unfold refusing
  split <;> rfl

theorem turn_of_calm (hc : w.Calm i) {db : Database} (hd : w.committed? i = some db) {t : Turn}
    (ht : t.refusals = []) :
    (w.turn i t).1.Calm i ∧ (w.turn i t).2 = (t.call.operation.alone db).1 ∧
      (w.turn i t).1.committed? i = some (t.call.operation.alone db).2 ∧
      (w.turn i t).1.stepsLogged = w.stepsLogged + told (t.call.operation.notes db) := by
  have hc' : (w.refusing i []).Calm i := calm_refusing hc
  have hd' : (w.refusing i []).committed? i = some db := by
    obtain ⟨h, hh, -⟩ := hc
    rw [← hd, committed?_of_handle hh, committed?_of_handle (handle_refusing hh [])]
  obtain ⟨hres, hcom⟩ := call_of_calm hc' hd' t.call.operation
  unfold turn
  rw [ht]
  refine ⟨calm_call hc' t.call, hres, hcom, ?_⟩
  rw [stepsLogged_call hc' hd', stepsLogged_refusing]

theorem alone_of_history (hc : w.Calm i) {db : Database} (hd : w.committed? i = some db)
    (hn : ∀ t ∈ turns, t.refusals = []) :
    ∀ m ∈ w.history i turns, m.result = (m.call.operation.alone m.before).1 := by
  induction turns generalizing w db with
  | nil => exact fun _ hm => by cases hm
  | cons t turns ih =>
    obtain ⟨hc', hres, hd', -⟩ := turn_of_calm hc hd (hn t List.mem_cons_self)
    intro m hm
    rcases List.mem_cons.mp hm with rfl | hm
    · rw [committed_of_committed? hd]
      exact hres
    · exact ih hc' hd' (fun u hu => hn u (List.mem_cons_of_mem _ hu)) m hm

theorem stepsLogged_run (hc : w.Calm i) {db : Database} (hd : w.committed? i = some db)
    (h : db.Reached) (hn : ∀ t ∈ turns, t.refusals = [])
    (hv : ∀ t ∈ turns, t.call.isVerdict = true) : (w.run i turns).stepsLogged =
      w.stepsLogged + (w.history i turns).countP fun m => m.call.finds m.before := by
  induction turns generalizing w db with
  | nil => rfl
  | cons t turns ih =>
    obtain ⟨hc', -, hd', hlog⟩ := turn_of_calm hc hd (hn t List.mem_cons_self)
    -- What the first call leaves is reached, so the rest of the run can be told of in the same way.
    have h' : (t.call.operation.alone db).2.Reached := by
      obtain ⟨-, db', hd'', ho⟩ := turn_step hc.idle hd t
      obtain rfl := Option.some.inj (hd''.symm.trans hd')
      exact h.outcome ho
    have hrest := ih hc' hd' h' (fun u hu => hn u (List.mem_cons_of_mem _ hu))
      fun u hu => hv u (List.mem_cons_of_mem _ hu)
    rw [Call.told_verdict (hv t List.mem_cons_self) h.wellFormed] at hlog
    rw [history, List.countP_cons, run, hrest, hlog, committed_of_committed? hd]
    dsimp only
    omega

/-- On a store where nothing stands in the way, the counter of steps goes up by the number of
decisions that changed the state of a topic, and once more for every withdrawal of a topic that was
withdrawn already. The log tells of as many steps as there were such changes, and once more for every
decision that failed after its step, which is always one that grants a subscription. So either is
the number of changes exactly if there were none of these. -/
theorem counter_and_log (hc : w.Calm i) {db : Database} (hd : w.committed? i = some db)
    (h : db.Reached) (hn : ∀ t ∈ turns, t.refusals = [])
    (hv : ∀ t ∈ turns, t.call.isVerdict = true) :
    let moments := w.history i turns
    let changed := moments.countP Moment.changes
    ∃ s s', w.stores[i]? = some s ∧ (w.run i turns).stores[i]? = some s' ∧
      s'.metrics.counted "transitions_total" = s.metrics.counted "transitions_total" +
        ((changed + moments.countP Moment.repeats : Nat) : Int) ∧
      (w.run i turns).stepsLogged =
        w.stepsLogged + (changed + moments.countP Moment.tears) ∧
      (s'.metrics.counted "transitions_total" = s.metrics.counted "transitions_total" + changed ∧
          (w.run i turns).stepsLogged = w.stepsLogged + changed ↔
        ∀ m ∈ moments, m.repeats = false ∧ m.tears = false) ∧
      (∀ m ∈ moments, m.changes = true ↔ ∃ topic, m.after.stateOf topic ≠ m.before.stateOf topic) ∧
      ∀ m ∈ moments, m.tears = true → ∃ topic subscriber expiry,
        m.call.grant? m.before = some (topic, subscriber, expiry) ∧
          m.before.stateOf topic = .subscribePending := by
  intro moments changed
  have hmoments : ∀ m ∈ moments, m.call.isVerdict = true ∧ m.before.WellFormed ∧
      Call.Outcome m.before m.call m.result m.after := by
    intro m hm
    have hcall : m.call ∈ turns.map (·.call) := history_map_call w i turns ▸ List.mem_map_of_mem hm
    obtain ⟨t, ht, he⟩ := List.mem_map.mp hcall
    obtain ⟨hreached, ho⟩ := history_outcomes hc.idle hd h turns m hm
    exact ⟨he ▸ hv t ht, hreached.wellFormed, ho⟩
  -- The log counts what finds a state to end, and that is a change or a decision that fails after it.
  have hlog : (w.run i turns).stepsLogged =
      w.stepsLogged + (changed + moments.countP Moment.tears) := by
    rw [stepsLogged_run hc hd h hn hv, countP_eq_add fun m hm => ?_]
    obtain ⟨hverdict, hw, ho⟩ := hmoments m hm
    exact Moment.finds_eq hverdict hw ho
  obtain ⟨s, s', hs, hs', hcount⟩ : ∃ s s', w.stores[i]? = some s ∧
      (w.run i turns).stores[i]? = some s' ∧
      s'.metrics.counted "transitions_total" = s.metrics.counted "transitions_total" +
        ((changed + moments.countP Moment.repeats : Nat) : Int) := by
    obtain ⟨d, hh, he, -⟩ := hc
    obtain ⟨s, link, _, hs, hl, -, -, rfl⟩ := handle?_eq_some.mp hh
    obtain ⟨link', hrun⟩ := counters_run hs he turns
    refine ⟨s, _, hs, hrun, ?_⟩
    have hmoves := Moment.count_counters moments .transitions
    rw [countP_eq_add fun m hm => ?_] at hmoves
    · rw [Metrics.counted_tallied]
      exact congrArg (fun n : Nat => s.metrics.counted "transitions_total" + (n : Int)) hmoves
    · obtain ⟨hverdict, hw, ho⟩ := hmoments m hm
      exact Moment.moves_eq hverdict hw ho
  refine ⟨s, s', hs, hs', hcount, hlog, ?_, fun m _ => Moment.changes_iff, fun m hm ht => ?_⟩
  · rw [hcount, hlog]
    have hzero : (∀ m ∈ moments, m.repeats = false ∧ m.tears = false) ↔
        moments.countP Moment.repeats = 0 ∧ moments.countP Moment.tears = 0 := by
      simp only [List.countP_eq_zero, Bool.not_eq_true, forall_and]
    rw [hzero]
    omega
  · obtain ⟨hverdict, hw, -⟩ := hmoments m hm
    obtain ⟨hfailed, hfinds⟩ := Bool.and_eq_true_iff.mp ht
    refine (Call.returns_or_grants hw hverdict hfinds).resolve_left ?_
    rintro ⟨reply, db', hr⟩
    rw [alone_of_history hc hd hn m hm, hr.alone] at hfailed
    cases hfailed

end

/-- Two grants without a subscriber, which fail after the step, one that goes well, the same once more
when nothing is pending, and two withdrawals. -/
def answeredThrough : List Turn :=
  let grant := fun subscriber => Call.handleResponse (some "r") true subscriber (.list []) (some 0)
  [⟨[], .applyConfirmation "t" "" (.list []) (some 0)⟩, ⟨[], grant ""⟩, ⟨[], grant "s"⟩, ⟨[], grant "s"⟩,
    ⟨[], .handleWithdrawal "t"⟩, ⟨[], .handleWithdrawal "t"⟩]

theorem counter_and_log_answeredThrough :
    let w := (lone .fresh []).run 0 asked
    (w.history 0 answeredThrough).countP Moment.changes = 2 ∧
      ∃ s s', w.stores[0]? = some s ∧ (w.run 0 answeredThrough).stores[0]? = some s' ∧
        s'.metrics.counted "transitions_total" = s.metrics.counted "transitions_total" + 3 ∧
        (w.run 0 answeredThrough).stepsLogged = w.stepsLogged + 4 := by
  intro w
  obtain ⟨-, db, hd, h⟩ := reached_run asked
  have hquiet : ∀ t ∈ answeredThrough, t.refusals = [] := by decide
  obtain ⟨s, s', hs, hs', hcount, hlog, -⟩ :=
    counter_and_log (run_calm (lone_calm .fresh) (by decide)) hd h hquiet (by decide)
  have hchanges : (w.history 0 answeredThrough).countP Moment.changes = 2 := by decide +kernel
  have hrepeats : (w.history 0 answeredThrough).countP Moment.repeats = 1 := by decide +kernel
  have htears : (w.history 0 answeredThrough).countP Moment.tears = 2 := by decide +kernel
  rw [hchanges, hrepeats] at hcount
  rw [hchanges, htears] at hlog
  exact ⟨hchanges, s, s', hs, hs', hcount, hlog⟩

/-- The second withdrawal of a topic is counted. It is not logged and changes no state. -/
theorem second_withdrawal_counted :
    let w := lone .fresh []
    let turns : List Turn := [⟨[], .handleWithdrawal "t"⟩, ⟨[], .handleWithdrawal "t"⟩]
    w.stores[0]?.map (fun s => s.metrics.counted "transitions_total") = some 0 ∧
      (w.run 0 turns).stores[0]?.map (fun s => s.metrics.counted "transitions_total") = some 2 ∧
      (w.run 0 turns).stepsLogged = w.stepsLogged + 1 ∧
      (w.history 0 turns).countP Moment.changes = 1 := by
  refine ⟨by decide +kernel, by decide +kernel, by decide +kernel, by decide +kernel⟩

end World

end PubSub
