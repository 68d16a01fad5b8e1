import PubSub.Call

/-!
# Scripts on a database of their own

What a script comes to when nothing stands in its way: `Script.eval` reads and
writes one database and knows no connection. `Operation.alone` is the same for a
whole operation, whose failure leaves the database as it was. Two predicates
speak of scripts without running them: which writes they may issue, and with
which values they may end.
-/

namespace PubSub

/-- A failure that a statement brings with it, and no rule of the registry. -/
def Failure.FromStatement : Failure → Prop
  | .engine _ | .oversized => True
  | _ => False

namespace Script

section
variable {α β : Type}

def eval : Script α → Database → Except Failure α × Database
  | .done value, db => (.ok value, db)
  | .fail failure, db => (.error failure, db)
  | .look table next, db =>
    if db.has table then (next db).eval db else (.error (.engine (.missingTable table)), db)
  | .write w next, db =>
    if !db.has w.table then (.error (.engine (.missingTable w.table)), db)
    else if !w.storable then (.error .oversized, db)
    else
      match w.run db with
      | .ok (rows, db) => (next rows).eval db
      | .error fault => (.error (.engine fault), db)
  | .note _ next, db => next.eval db

/-! ## Combined scripts -/

@[simp] theorem bind_eq (s : Script α) (f : α → Script β) : s >>= f = s.bind f := rfl

@[simp] theorem pure_eq (a : α) : (pure a : Script α) = .done a := rfl

def andThen (f : α → Script β) : Except Failure α × Database → Except Failure β × Database
  | (.ok a, db) => (f a).eval db
  | (.error failure, db) => (.error failure, db)

@[simp] theorem andThen_ok (f : α → Script β) (a : α) (db : Database) :
    andThen f (.ok a, db) = (f a).eval db := rfl

@[simp] theorem andThen_error (f : α → Script β) (failure : Failure) (db : Database) :
    andThen f (.error failure, db) = (.error failure, db) := rfl

theorem eval_bind (s : Script α) (f : α → Script β) (db : Database) :
    (s.bind f).eval db = andThen f (s.eval db) := by
  induction s generalizing db with
  | done a => rfl
  | fail failure => rfl
  | look table next ih =>
    simp only [Script.bind, eval]
    split
    · exact ih _ _
    · rfl
  | write w next ih =>
    simp only [Script.bind, eval]
    split
    · rfl
    · split
      · rfl
      · split
        · exact ih _ _
        · rfl
  | note n next ih => exact ih db

theorem eval_bind_ok {s : Script α} {f : α → Script β} {db db'' : Database} {b : β} :
    (s.bind f).eval db = (.ok b, db'') ↔
      ∃ a db', s.eval db = (.ok a, db') ∧ (f a).eval db' = (.ok b, db'') := by
  rw [eval_bind]
  cases hs : s.eval db with
  | mk result db' =>
    cases result with
    | ok a =>
      constructor
      · exact fun h => ⟨a, db', rfl, h⟩
      · rintro ⟨a', db₁, he, h⟩
        cases he
        exact h
    | error failure =>
      constructor
      · intro h
        cases h
      · rintro ⟨a', db₁, he, -⟩
        cases he

theorem error_of_bind_done {s : Script α} {g : α → β} {db : Database} {failure : Failure}
    (h : ((s.bind fun a => .done (g a)).eval db).1 = .error failure) :
    (s.eval db).1 = .error failure := by
  rw [eval_bind] at h
  cases hs : s.eval db with
  | mk result db' =>
    rw [hs] at h
    cases result with
    | ok a => simp [eval] at h
    | error failure' => simpa using h

@[simp] theorem eval_done (a : α) (db : Database) : (Script.done a).eval db = (.ok a, db) := rfl

@[simp] theorem eval_fail (failure : Failure) (db : Database) :
    (Script.fail failure : Script α).eval db = (.error failure, db) := rfl

@[simp] theorem eval_ofExcept (e : Except Failure α) (db : Database) :
    (ofExcept e).eval db = (e, db) := by
  cases e <;> rfl

@[simp] theorem eval_noteAll (notes : List Note) (s : Script α) (db : Database) :
    (noteAll notes s).eval db = s.eval db := by
  induction notes with
  | nil => rfl
  | cons n notes ih => exact ih

theorem eval_see {table : Table} {db : Database} (h : db.has table = true) (view : Database → α) :
    (see table view).eval db = (.ok (view db), db) := by
  simp [see, eval, h]

theorem eval_see_ok {table : Table} {view : Database → α} {db db' : Database} {a : α} :
    (see table view).eval db = (.ok a, db') ↔ db.has table = true ∧ a = view db ∧ db' = db := by
  unfold see eval
  cases db.has table with
  | true => simp [eq_comm]
  | false => simp

theorem eval_issue_ok {w : Write} {db db' : Database} {rows : Nat} :
    (issue w).eval db = (.ok rows, db') ↔
      db.has w.table = true ∧ w.storable = true ∧ w.run db = .ok (rows, db') := by
  unfold issue eval
  cases db.has w.table with
  | false => simp
  | true =>
    cases w.storable with
    | false => simp
    | true =>
      cases w.run db with
      | error fault => simp
      | ok p =>
        obtain ⟨rows', db''⟩ := p
        simp

theorem eval_ofExcept_ok {e : Except Failure α} {db db' : Database} {a : α} :
    (ofExcept e).eval db = (.ok a, db') ↔ e = .ok a ∧ db' = db := by
  rw [eval_ofExcept, Prod.mk.injEq]
  exact and_congr_right fun _ => eq_comm

theorem eval_catching (caught : Failure → Bool) (he : ∀ fault, caught (.engine fault) = false)
    (ho : caught .oversized = false) (s : Script α) (db : Database) :
    (s.catching caught).eval db =
      match s.eval db with
      | (.ok a, db) => (.ok (.ok a), db)
      | (.error failure, db) =>
        if caught failure then (.ok (.error failure), db) else (.error failure, db) := by
  induction s generalizing db with
  | done a => rfl
  | fail failure =>
    simp only [catching, eval]
    split <;> rfl
  | look table next ih =>
    simp only [catching, eval]
    split
    · exact ih _ _
    · simp [he]
  | write w next ih =>
    simp only [catching, eval]
    split
    · simp [he]
    · split
      · simp [ho]
      · split
        · exact ih _ _
        · simp [he]
  | note n next ih => exact ih db

/-! ## What a script may write, and with what it may end -/

def Only (P : Write → Prop) : Script α → Prop
  | .done _ | .fail _ => True
  | .look _ next => ∀ db, (next db).Only P
  | .write w next => P w ∧ ∀ rows, (next rows).Only P
  | .note _ next => next.Only P

def Ends (Q : α → Prop) : Script α → Prop
  | .done value => Q value
  | .fail _ => True
  | .look _ next => ∀ db, (next db).Ends Q
  | .write _ next => ∀ rows, (next rows).Ends Q
  | .note _ next => next.Ends Q

def Fails (Q : Failure → Prop) : Script α → Prop
  | .done _ => True
  | .fail failure => Q failure
  | .look _ next => ∀ db, (next db).Fails Q
  | .write _ next => ∀ rows, (next rows).Fails Q
  | .note _ next => next.Fails Q

theorem Only.bind {P : Write → Prop} {s : Script α} {f : α → Script β} (hs : s.Only P)
    (hf : ∀ a, (f a).Only P) : (s.bind f).Only P := by
  induction s with
  | done a => exact hf a
  | fail failure => trivial
  | look table next ih => exact fun db => ih db (hs db)
  | write w next ih => exact ⟨hs.1, fun rows => ih rows (hs.2 rows)⟩
  | note n next ih => exact ih hs

theorem Ends.bind {Q : α → Prop} {R : β → Prop} {s : Script α} {f : α → Script β} (hs : s.Ends Q)
    (hf : ∀ a, Q a → (f a).Ends R) : (s.bind f).Ends R := by
  induction s with
  | done a => exact hf a hs
  | fail failure => trivial
  | look table next ih => exact fun db => ih db (hs db)
  | write w next ih => exact fun rows => ih rows (hs rows)
  | note n next ih => exact ih hs

theorem Fails.bind {Q : Failure → Prop} {R : α → Prop} {s : Script α} {f : α → Script β}
    (hs : s.Fails Q) (he : s.Ends R) (hf : ∀ a, R a → (f a).Fails Q) : (s.bind f).Fails Q := by
  induction s with
  | done a => exact hf a he
  | fail failure => exact hs
  | look table next ih => exact fun db => ih db (hs db) (he db)
  | write w next ih => exact fun rows => ih rows (hs rows) (he rows)
  | note n next ih => exact ih hs he

theorem Fails.mono {Q R : Failure → Prop} (hQR : ∀ failure, Q failure → R failure) {s : Script α}
    (hs : s.Fails Q) : s.Fails R := by
  induction s with
  | done a => trivial
  | fail failure => exact hQR failure hs
  | look table next ih => exact fun db => ih db (hs db)
  | write w next ih => exact fun rows => ih rows (hs rows)
  | note n next ih => exact ih hs

theorem Fails.noteAll {Q : Failure → Prop} (notes : List Note) {s : Script α} (hs : s.Fails Q) :
    (Script.noteAll notes s).Fails Q := by
  induction notes with
  | nil => exact hs
  | cons n notes ih => exact ih

theorem Ends.true (s : Script α) : s.Ends fun _ => True := by
  induction s with
  | done a => trivial
  | fail failure => trivial
  | look table next ih => exact ih
  | write w next ih => exact ih
  | note n next ih => exact ih

theorem Only.ofExcept (P : Write → Prop) (e : Except Failure α) : (Script.ofExcept e).Only P := by
  cases e <;> trivial

theorem Only.noteAll {P : Write → Prop} (notes : List Note) {s : Script α} (hs : s.Only P) :
    (Script.noteAll notes s).Only P := by
  induction notes with
  | nil => exact hs
  | cons n notes ih => exact ih

theorem Only.keeps {P : Write → Prop} {I : Database → Prop} {s : Script α} (hs : s.Only P)
    (hP : ∀ w, P w → ∀ db rows db', I db → w.run db = .ok (rows, db') → I db') {db : Database}
    (hI : I db) : I (s.eval db).2 := by
  induction s generalizing db with
  | done a => exact hI
  | fail failure => exact hI
  | look table next ih =>
    simp only [eval]
    split
    · exact ih _ (hs _) hI
    · exact hI
  | write w next ih =>
    simp only [eval]
    split
    · exact hI
    · split
      · exact hI
      · split
        · rename_i hrun
          exact ih _ (hs.2 _) (hP w hs.1 _ _ _ hI hrun)
        · exact hI
  | note n next ih => exact ih hs hI

theorem Only.unchanged {s : Script α} (hs : s.Only fun _ => False) (db : Database) :
    (s.eval db).2 = db :=
  hs.keeps (I := (· = db)) (fun _ h => h.elim) rfl

theorem Ends.of_eval {Q : α → Prop} {s : Script α} (hs : s.Ends Q) {db : Database} {a : α}
    (h : (s.eval db).1 = .ok a) : Q a := by
  induction s generalizing db with
  | done b =>
    simp only [eval, Except.ok.injEq] at h
    exact h ▸ hs
  | fail failure => simp [eval] at h
  | look table next ih =>
    simp only [eval] at h
    split at h
    · exact ih _ (hs _) h
    · simp at h
  | write w next ih =>
    simp only [eval] at h
    split at h
    · simp at h
    · split at h
      · simp at h
      · split at h
        · exact ih _ (hs _) h
        · simp at h
  | note n next ih => exact ih hs h

theorem Fails.of_eval {Q : Failure → Prop} {s : Script α} (hs : s.Fails Q) {db : Database}
    {failure : Failure} (h : (s.eval db).1 = .error failure) : failure.FromStatement ∨ Q failure := by
  induction s generalizing db with
  | done a => simp [eval] at h
  | fail f =>
    simp only [eval, Except.error.injEq] at h
    exact .inr (h ▸ hs)
  | look table next ih =>
    simp only [eval] at h
    split at h
    · exact ih _ (hs _) h
    · cases h
      exact .inl trivial
  | write w next ih =>
    simp only [eval] at h
    split at h
    · cases h
      exact .inl trivial
    · split at h
      · cases h
        exact .inl trivial
      · split at h
        · exact ih _ (hs _) h
        · cases h
          exact .inl trivial
  | note n next ih => exact ih hs h

end

end Script

/-! ## Operations -/

namespace Operation

section
variable {α β : Type}

/-- The answer of an operation and the database after it. A failure undoes what was written. -/
def alone (op : Operation α) (db : Database) : Except Failure α × Database :=
  match op.refusal with
  | some failure => (.error failure, db)
  | none =>
    match op.body.eval db with
    | (.ok last, db') => (last.result, db')
    | (.error failure, _) => ((op.recover failure.leaving).result, db)

theorem eval_inline {op : Operation α} (h : op.refusal = none) (db : Database) :
    op.inline.eval db =
      match op.body.eval db with
      | (.ok last, db) => (last.result, db)
      | (.error failure, db) => (.error failure, db) := by
  unfold inline
  rw [h]
  simp only [Script.eval_bind]
  split
  · rename_i hb
    rw [hb]
    simp
  · rename_i hb
    rw [hb]
    rfl

def Returns (op : Operation α) (db : Database) (a : α) (db' : Database) : Prop :=
  op.inline.eval db = (.ok a, db')

theorem returns_iff {op : Operation α} {db db' : Database} {a : α} :
    op.Returns db a db' ↔
      op.refusal = none ∧ ∃ last, op.body.eval db = (.ok last, db') ∧ last.result = .ok a := by
  unfold Returns
  cases hr : op.refusal with
  | some failure => simp [inline, hr]
  | none =>
    rw [eval_inline hr]
    cases hb : op.body.eval db with
    | mk result db₁ =>
      cases result with
      | error failure => simp
      | ok last =>
        simp only [Prod.mk.injEq, Except.ok.injEq, true_and]
        constructor
        · exact fun h => ⟨last, ⟨rfl, h.2⟩, h.1⟩
        · rintro ⟨last', ⟨rfl, h⟩, h'⟩
          exact ⟨h', h⟩

theorem returns_of_ok {op : Operation α} {db db₁ : Database} {last : Conclusion α}
    (hb : op.body.eval db = (.ok last, db₁)) {a : α} {db' : Database} :
    op.Returns db a db' ↔ op.refusal = none ∧ last.result = .ok a ∧ db' = db₁ := by
  rw [returns_iff, hb]
  refine and_congr_right fun _ => ?_
  constructor
  · rintro ⟨last', he, hl⟩
    cases he
    exact ⟨hl, rfl⟩
  · rintro ⟨hl, rfl⟩
    exact ⟨last, rfl, hl⟩

theorem not_returns_of_error {op : Operation α} {db db₁ : Database} {failure : Failure}
    (hb : op.body.eval db = (.error failure, db₁)) (a : α) (db' : Database) :
    ¬op.Returns db a db' := by
  rw [returns_iff, hb]
  rintro ⟨-, last, he, -⟩
  cases he

theorem Returns.alone {op : Operation α} {db db' : Database} {a : α} (h : op.Returns db a db') :
    op.alone db = (.ok a, db') := by
  obtain ⟨hr, last, hb, hl⟩ := returns_iff.mp h
  unfold Operation.alone
  rw [hr, hb, ← hl]

theorem returns_map {op : Operation α} {f : α → β} {db db' : Database} {b : β} :
    (op.map f).Returns db b db' ↔ ∃ a, op.Returns db a db' ∧ b = f a := by
  simp only [returns_iff, map, Script.eval_bind_ok, Script.eval_done, Prod.mk.injEq,
    Except.ok.injEq]
  constructor
  · rintro ⟨hr, _, ⟨last, _, hb, rfl, rfl⟩, hl⟩
    obtain ⟨a, ha, rfl⟩ : ∃ a, last.result = .ok a ∧ b = f a := by
      cases h : last.result with
      | ok a => exact ⟨a, rfl, by simpa [Conclusion.map, h, Except.map] using hl.symm⟩
      | error failure => simp [Conclusion.map, h, Except.map] at hl
    exact ⟨a, ⟨hr, last, hb, ha⟩, rfl⟩
  · rintro ⟨a, ⟨hr, last, hb, ha⟩, rfl⟩
    exact ⟨hr, _, ⟨last, _, hb, rfl, rfl⟩, by simp [Conclusion.map, ha, Except.map]⟩

theorem returns_concluding {op : Operation α} {f : Except Failure α → Conclusion α}
    (hf : ∀ result, (f result).result = result) {db db' : Database} {a : α} :
    (op.concluding f).Returns db a db' ↔ op.Returns db a db' := by
  simp only [returns_iff, concluding, Script.eval_bind_ok, Script.eval_done, Prod.mk.injEq,
    Except.ok.injEq]
  constructor
  · rintro ⟨hr, _, ⟨last, _, hb, rfl, rfl⟩, hl⟩
    exact ⟨hr, last, hb, (hf _).symm.trans hl⟩
  · rintro ⟨hr, last, hb, hl⟩
    exact ⟨hr, _, ⟨last, _, hb, rfl, rfl⟩, (hf _).trans hl⟩

end

end Operation

end PubSub
