import PubSub.Proofs.Stops

/-!
# Safe scripts

Some writes are safe only after what the script has looked at before. `Script.Safe` is
the condition on a database from which a script keeps a property up to every stop,
and it is put together along the script as the script is.
-/

namespace PubSub

namespace Script

section
variable {α β : Type}

/-- From the database on, every stop has property `I`, a failure that the script ends with by itself
has property `E`, and a value that it ends with suits the last database. -/
def Safe (I : Database → Prop) (E : Failure → Prop) (Q : α → Database → Prop) :
    Script α → Database → Prop
  | .done a, db => I db ∧ Q a db
  | .fail failure, db => I db ∧ E failure
  | .look _ next, db => (next db).Safe I E Q db
  | .write w next, db =>
    I db ∧ (w.storable = true → ∀ rows db', w.run db = .ok (rows, db') →
      (next rows).Safe I E Q db')
  | .note _ next, db => next.Safe I E Q db

variable {I : Database → Prop} {E : Failure → Prop} {Q : α → Database → Prop} {db : Database}

theorem Safe.holds {s : Script α} (h : s.Safe I E Q db) : I db := by
  induction s with
  | done a => exact h.1
  | fail failure => exact h.1
  | look table next ih => exact ih db h
  | write w next ih => exact h.1
  | note n next ih => exact ih h

theorem Safe.stops {s : Script α} {db' : Database} (h : s.Safe I E Q db) (hs : s.Stops db db') :
    I db' := by
  induction hs with
  | here s db => exact h.holds
  | look hs ih => exact ih h
  | write hst hrun hs ih => exact ih (h.2 hst _ _ hrun)
  | note hs ih => exact ih h

theorem Safe.mono {R : α → Database → Prop} (hQR : ∀ a db', I db' → Q a db' → R a db')
    {s : Script α} (h : s.Safe I E Q db) : s.Safe I E R db := by
  induction s generalizing db with
  | done a => exact ⟨h.1, hQR a db h.1 h.2⟩
  | fail failure => exact h
  | look table next ih => exact ih db h
  | write w next ih => exact ⟨h.1, fun hst rows db' hrun => ih rows (h.2 hst rows db' hrun)⟩
  | note n next ih => exact ih h

/-! ## Combined scripts -/

theorem safe_bind {s : Script α} {f : α → Script β} {R : β → Database → Prop}
    (h : s.Safe I E (fun a db' => (f a).Safe I E R db') db) : (s.bind f).Safe I E R db := by
  induction s generalizing db with
  | done a => exact h.2
  | fail failure => exact h
  | look table next ih => exact ih db h
  | write w next ih => exact ⟨h.1, fun hst rows db' hrun => ih rows (h.2 hst rows db' hrun)⟩
  | note n next ih => exact ih h

theorem Safe.bind {s : Script α} {f : α → Script β} {R : β → Database → Prop}
    (h : s.Safe I E Q db) (hf : ∀ a db', I db' → Q a db' → (f a).Safe I E R db') :
    (s.bind f).Safe I E R db :=
  safe_bind (h.mono hf)

theorem safe_see {table : Table} {view : Database → α} (h : I db) (hQ : Q (view db) db) :
    (see table view).Safe I E Q db :=
  ⟨h, hQ⟩

theorem safe_ofExcept {e : Except Failure α} (h : I db) (hok : ∀ a, e = .ok a → Q a db)
    (herr : ∀ failure, e = .error failure → E failure) : (ofExcept e).Safe I E Q db := by
  cases e with
  | ok a => exact ⟨h, hok a rfl⟩
  | error failure => exact ⟨h, herr failure rfl⟩

theorem Safe.noteAll (notes : List Note) {s : Script α} (h : s.Safe I E Q db) :
    (Script.noteAll notes s).Safe I E Q db := by
  induction notes with
  | nil => exact h
  | cons n notes ih => exact ih

theorem Safe.catching (caught : Failure → Bool) {s : Script α} (h : s.Safe I E Q db) :
    (s.catching caught).Safe I E (fun _ _ => True) db := by
  induction s generalizing db with
  | done a => exact ⟨h.1, trivial⟩
  | fail failure =>
    simp only [Script.catching]
    split
    · exact ⟨h.1, trivial⟩
    · exact h
  | look table next ih => exact ih db h
  | write w next ih => exact ⟨h.1, fun hst rows db' hrun => ih rows (h.2 hst rows db' hrun)⟩
  | note n next ih => exact ih h

theorem safe_of_eval {s : Script α} (hs : s.Only fun _ => False) (h : I db) {a : α}
    (he : (s.eval db).1 = .ok a) : s.Safe I E (fun a' db' => a' = a ∧ db' = db) db := by
  induction s with
  | done b =>
    simp only [eval, Except.ok.injEq] at he
    exact ⟨h, he, rfl⟩
  | fail failure => cases he
  | look table next ih =>
    simp only [eval] at he
    split at he
    · exact ih db (hs db) he
    · cases he
  | write w next ih => exact hs.1.elim
  | note n next ih => exact ih hs he

/-! ## On a connection -/

/-- Wherever a script runs, in a transaction or without one, it ends with what it may end with, or a
statement has failed. -/
theorem Safe.exec {s : Script α} {c : Connection} (h : s.Safe I E Q c.view) :
    (∀ a, (c.exec s).result = .ok a → Q a (c.exec s).connection.view) ∧
      ∀ failure, (c.exec s).result = .error failure → failure.FromStatement ∨ E failure := by
  induction s generalizing c with
  | done a =>
    refine ⟨fun b hb => ?_, fun failure hf => by cases hf⟩
    cases hb
    exact h.2
  | fail failure =>
    refine ⟨fun a ha => (by cases ha), fun failure' hf => ?_⟩
    cases hf
    exact .inr h.2
  | look table next ih =>
    unfold Connection.exec
    split
    · exact ih c.view (c := c.succeeded) h
    · refine ⟨fun a ha => (by cases ha), fun failure hf => ?_⟩
      cases hf
      exact .inl trivial
  | write w next ih =>
    unfold Connection.exec
    rcases c.write_cases w with ⟨f, d, hw, hf, -⟩ | ⟨rows, d, hw, hwrote⟩
    · simp only [hw]
      refine ⟨fun a ha => (by cases ha), fun failure he => ?_⟩
      cases he
      exact .inl hf
    · simp only [hw]
      exact ih rows (h.2 hwrote.2.1 rows d.view hwrote.run)
  | note n next ih => exact ih h

end

end Script

/-! ## Operations -/

/-- What an operation leaves at every stop has property `I`, and what it fails with, apart from
failures of statements, has property `E`. -/
structure Operation.Safe {α : Type} (I : Database → Prop) (E : Failure → Prop) (op : Operation α) :
    Prop where
  refusal : ∀ failure, op.refusal = some failure → E failure
  body : op.refusal = none → ∀ db, I db →
    op.body.Safe I E (fun last _ => ∀ failure, last.result = .error failure → E failure) db
  recover : ∀ cause failure, (op.recover cause).result = .error failure → failure = cause ∨ E failure

namespace Operation

section
variable {α β : Type} {I : Database → Prop} {E : Failure → Prop} {op : Operation α}

theorem Safe.keeps (h : op.Safe I E) : op.Keeps I :=
  fun hr _ _ hdb hs => (h.body hr _ hdb).stops hs

theorem Safe.map (h : op.Safe I E) (f : α → β) : (op.map f).Safe I E := by
  refine ⟨h.refusal, fun hr db hdb => ?_, fun cause failure he => ?_⟩
  · exact (h.body hr db hdb).bind fun last db' hdb' hl =>
      ⟨hdb', fun failure he => hl failure (error_of_map he)⟩
  · exact h.recover cause failure (error_of_map he)

theorem Safe.concluding (h : op.Safe I E) {f : Except Failure α → Conclusion β}
    (hf : ∀ result failure, (f result).result = .error failure → result = .error failure) :
    (op.concluding f).Safe I E := by
  refine ⟨h.refusal, fun hr db hdb => ?_, fun cause failure he => ?_⟩
  · exact (h.body hr db hdb).bind fun last db' hdb' hl =>
      ⟨hdb', fun failure he => hl failure (hf _ failure he)⟩
  · exact h.recover cause failure (hf _ failure he)

theorem Safe.inline (h : op.Safe I E) {db : Database} (hdb : I db) :
    op.inline.Safe I E (fun _ _ => True) db := by
  unfold Operation.inline
  cases hr : op.refusal with
  | some failure => exact ⟨hdb, h.refusal failure hr⟩
  | none =>
    exact (h.body hr db hdb).bind fun last db' hdb' hl =>
      .noteAll _ (Script.safe_ofExcept hdb' (fun _ _ => trivial) hl)

theorem safe_of_look {γ : Type} {table : Table} {view : Database → γ} {f : γ → Conclusion α}
    (hr : op.refusal = none) (hb : op.body = (Script.see table view).bind fun c => .done (f c))
    (hrec : ∀ cause, (op.recover cause).result = .error cause)
    (hf : ∀ db, I db → ∀ failure, (f (view db)).result = .error failure → E failure) :
    op.Safe I E := by
  refine ⟨fun failure he => ?_, fun _ db hdb => ?_, fun cause failure he => ?_⟩
  · rw [hr] at he
    cases he
  · rw [hb]
    exact ⟨hdb, hf db hdb⟩
  · rw [hrec cause] at he
    cases he
    exact .inl rfl

end

end Operation

section
variable {α : Type} {I : Database → Prop} {E : Failure → Prop} {op : Operation α}
  (hop : op.Safe I E) (hE : ∀ failure : Failure, failure.FromStatement → E failure)

include hop hE

theorem Connection.fails_of_join {c : Connection} (hc : c.Has I) {failure : Failure}
    (hf : (c.join op).result = .error failure) : E failure := by
  unfold Connection.join at hf
  cases hr : op.refusal with
  | some refusal =>
    rw [hr] at hf
    cases hf
    exact hop.refusal _ hr
  | none =>
    obtain ⟨hok, herr⟩ := (hop.body hr c.view hc.view).exec
    simp only [hr] at hf
    split at hf
    · rename_i last heq
      exact hok last heq failure hf
    · rename_i cause heq
      rcases hop.recover cause failure hf with rfl | he
      · exact (herr _ heq).elim (hE _) id
      · exact he

theorem Connection.fails_of_transact (hl : ∀ failure : Failure, E failure → E failure.leaving)
    {c : Connection} (hc : c.Has I) {failure : Failure}
    (hf : (c.transact op).result = .error failure) : E failure := by
  have hgive : ∀ (d : Connection) (notes : List Note) (cause : Failure), E cause →
      (d.giveUp notes op cause).result = .error failure → E failure := by
    intro d notes cause he hg
    rcases hop.recover cause.leaving failure hg with rfl | hfail
    · exact hl cause he
    · exact hfail
  unfold Connection.transact at hf
  cases hr : op.refusal with
  | some refusal =>
    rw [hr] at hf
    cases hf
    exact hop.refusal _ hr
  | none =>
    have ho := hc.open?
    simp only [hr] at hf
    split at hf
    · exact hgive _ _ (.engine _) (hE _ trivial) hf
    · rename_i d heq
      rw [heq] at ho
      obtain ⟨hok, herr⟩ := (hop.body hr d.view ho.view).exec
      split at hf
      · rename_i cause hx
        exact hgive _ _ cause ((herr _ hx).elim (hE _) id) hf
      · rename_i last hx
        split at hf
        · exact hgive _ _ (.engine _) (hE _ trivial) hf
        · exact hok last hx failure hf

theorem Handle.fails_of_perform (hl : ∀ failure : Failure, E failure → E failure.leaving)
    {h : Handle} (hh : h.connection.Has I) {failure : Failure}
    (hf : (h.perform op).result = .error failure) : E failure := by
  unfold Handle.perform at hf
  split at hf
  · exact Connection.fails_of_join hop hE hh hf
  · exact Connection.fails_of_transact hop hE hl hh hf

end

end PubSub
