import PubSub.Details
import PubSub.Event

/-!
# Scripts and operations

A `Script` is a program of statements: it looks at a table, issues a write, notes
something down, and ends with a value or a failure. Nothing in it says on which
connection or in which transaction it runs. An `Operation` is one call of the
registry: the body of its transaction, and what is concluded once that has ended.
-/

namespace PubSub

/-- What is noted down on the way: an event for the log, or one more for a counter. -/
inductive Note where
  | event (e : Event)
  | count (counter : String)

inductive Script (α : Type) where
  | done (value : α)
  | fail (failure : Failure)
  | look (table : Table) (next : Database → Script α)
  | write (w : Write) (next : Nat → Script α)
  | note (n : Note) (next : Script α)

namespace Script

def bind {α β : Type} : Script α → (α → Script β) → Script β
  | .done value, f => f value
  | .fail failure, _ => .fail failure
  | .look table next, f => .look table fun db => (next db).bind f
  | .write w next, f => .write w fun rows => (next rows).bind f
  | .note n next, f => .note n (next.bind f)

instance : Monad Script where
  pure := .done
  bind := Script.bind

def see {α : Type} (table : Table) (view : Database → α) : Script α :=
  .look table fun db => .done (view db)

def issue (w : Write) : Script Nat := .write w .done

def noteAll {α : Type} (notes : List Note) (next : Script α) : Script α :=
  notes.foldr .note next

def ofExcept {α : Type} : Except Failure α → Script α
  | .ok value => .done value
  | .error failure => .fail failure

/-- Goes on after a failure of some kinds. A fault of the engine is not a failure of the script and
cannot be caught. -/
def catching {α : Type} (caught : Failure → Bool) : Script α → Script (Except Failure α)
  | .done value => .done (.ok value)
  | .fail failure => if caught failure then .done (.error failure) else .fail failure
  | .look table next => .look table fun db => (next db).catching caught
  | .write w next => .write w fun rows => (next rows).catching caught
  | .note n next => .note n (next.catching caught)

/-! ## Laws -/

theorem bind_done {α : Type} (s : Script α) : s.bind .done = s := by
  induction s with
  | done | fail => rfl
  | look table next ih => simp only [bind, ih]
  | write w next ih => simp only [bind, ih]
  | note n next ih => simp only [bind, ih]

theorem bind_assoc {α β γ : Type} (s : Script α) (f : α → Script β) (g : β → Script γ) :
    (s.bind f).bind g = s.bind fun a => (f a).bind g := by
  induction s with
  | done | fail => rfl
  | look table next ih => simp only [bind, ih]
  | write w next ih => simp only [bind, ih]
  | note n next ih => simp only [bind, ih]

instance : LawfulMonad Script :=
  LawfulMonad.mk' Script (fun s => bind_done s) (fun _ _ => rfl) (fun s f g => bind_assoc s f g)

end Script

/-! ## Operations -/

structure Conclusion (α : Type) where
  notes : List Note := []
  result : Except Failure α

namespace Conclusion

def answer {α : Type} (value : α) (notes : List Note := []) : Conclusion α := ⟨notes, .ok value⟩

def refuse {α : Type} (failure : Failure) (notes : List Note := []) : Conclusion α :=
  ⟨notes, .error failure⟩

def map {α β : Type} (f : α → β) (c : Conclusion α) : Conclusion β := ⟨c.notes, c.result.map f⟩

end Conclusion

structure Operation (α : Type) where
  refusal : Option Failure := none
  body : Script (Conclusion α)
  recover : Failure → Conclusion α := fun failure => .refuse failure

namespace Operation

def map {α β : Type} (f : α → β) (op : Operation α) : Operation β where
  refusal := op.refusal
  body := op.body.bind fun c => .done (c.map f)
  recover failure := (op.recover failure).map f

/-- The operation as a part of a longer script, inside a transaction that is already open. -/
def inline {α : Type} (op : Operation α) : Script α :=
  match op.refusal with
  | some failure => .fail failure
  | none => op.body.bind fun c => .noteAll c.notes (.ofExcept c.result)

def concluding {α β : Type} (op : Operation α) (f : Except Failure α → Conclusion β) :
    Operation β where
  refusal := op.refusal
  body := op.body.bind fun c =>
    let last := f c.result
    .done ⟨c.notes ++ last.notes, last.result⟩
  recover failure :=
    let c := op.recover failure
    let last := f c.result
    ⟨c.notes ++ last.notes, last.result⟩

end Operation

def required (what value : String) : Option Failure :=
  if value.isEmpty then some (.empty what) else none

end PubSub
