import PubSub.Proofs.TaskSteps

/-!
# Connections next to each other

What happens on one connection reaches the others to the same database only through what is
committed, and through whether a transaction is open. A store whose neighbour is inside a
transaction that may write begins none of its own, and nobody else notices that it tried
(`Untouched`).
-/

namespace PubSub

/-! ## What neighbours notice of a connection -/

/-- What of a link matters to the other connections to its database. -/
def Link.stance (link : Link) : Bool × Bool × Bool :=
  (link.mayWrite, link.shares, link.working.isSome)

namespace World

variable {w w' : World} {i k l : Nat}

theorem any_of_stance {links links' : List Link} (h : links.map Link.stance = links'.map Link.stance)
    (p : Bool × Bool × Bool → Bool) :
    (links.any fun link => p link.stance) = links'.any fun link => p link.stance := by
  have := congrArg (List.any · p) h
  simpa [List.any_map, Function.comp_def] using this

theorem connection_of_stance {link : Link} (hd : w'.database link.home = w.database link.home)
    (hb : (w'.linksBeside k link.home).map Link.stance =
      (w.linksBeside k link.home).map Link.stance)
    (hl : w'.isLocked link.home = w.isLocked link.home) :
    w'.connection k link = w.connection k link := by
  have hwriting := any_of_stance hb fun s => s.1 && s.2.2
  have hshared := any_of_stance hb fun s => s.2.1 && (s.1 && s.2.2)
  have hreading := any_of_stance hb fun s => !s.1 && s.2.2
  unfold connection blockedFor isObserved Link.isWriting Link.isReading
  simp only [Link.stance] at hwriting hshared hreading
  simp only [hd, hl, hwriting, hshared, hreading]

section
variable {s : Store} {link : Link} {db : Database} {c : Connection}
  (hs : w.stores[i]? = some s) (hl : s.link = some link)

include hs hl

theorem stances_putBack (hw : c.working.isSome = link.working.isSome) (l : Nat) (home : Home) :
    ((w.putBack i s link c).linksBeside l home).map Link.stance =
      (w.linksBeside l home).map Link.stance := by
  have hst := (keep_stores w link.home c.committed).1
  have hm : ∀ other, (w.keep link.home c.committed).2.meets other = link.home.meets other := by
    intro other
    rw [Home.meets_comm, keep_meets, Home.meets_comm]
  unfold putBack
  simp only [linksBeside_eq, List.map_filterMap]
  rw [show (World.setStore (w.keep link.home c.committed).1 i _).stores =
    w.stores.set i _ from by rw [World.setStore, hst]]
  refine filterMap_zipIdx_set _ w.stores i 0 _ fun old hold => ?_
  obtain rfl : s = old := Option.some.inj (hs.symm.trans hold)
  by_cases hil : 0 + i = l
  · simp [hil]
  · simp only [hil, if_false, linkTo, hl, Option.filter, hm]
    by_cases hmeets : link.home.meets home = true
    · simp [hmeets, Link.stance, hw]
    · simp [hmeets]

end

theorem database_keep_same {home : Home} (hk : home.keeps = true) {db : Database}
    (h : w.database home = .ok db) (other : Home) :
    (w.keep home db).1.database other = w.database other := by
  cases hm : other.meets home with
  | false => exact database_keep_of_apart w hm db
  | true =>
    obtain rfl : other = home := Home.eq_of_meets hm
    have hd := database_keep w hk h db
    rcases keep_home w other db with he | ⟨old, rfl, -⟩
    · rw [he] at hd
      rw [hd, h]
    · rfl

section
variable {s : Store} {link : Link} {c : Connection} (hs : w.stores[i]? = some s)
  (hl : s.link = some link)

include hs

theorem alone_putBack (hk : k ≠ i) {h : Handle} (hh : w.handle? k = some h) :
    ∃ h', (w.putBack i s link c).handle? k = some h' ∧ h.Alike h' ∧
      h'.connection.alone = { h.connection.alone with committed := h'.connection.committed } := by
  obtain ⟨s', link', db, hs', hl', hd, hkeeps, rfl⟩ := handle?_eq_some.mp hh
  have hst := (keep_stores w link.home c.committed).1
  obtain ⟨db', hd'⟩ := database_keep_ok w link.home hkeeps hd c.committed
  have hs₀ : (w.keep link.home c.committed).1.stores[i]? = some s := by rw [hst, hs]
  refine ⟨_, handle?_eq_some.mpr ⟨s', link', db', ?_, hl', hd', hkeeps, rfl⟩, ⟨rfl, rfl, rfl, rfl⟩, rfl⟩
  unfold putBack
  rw [getElem?_setStore _ i hs₀, if_neg hk, hst, hs']

include hl

theorem handle_putBack_still {db : Database} (hd : w.database link.home = .ok db)
    (hkeeps : link.home.keeps = true) (hc : c.committed = db)
    (hw : c.working.isSome = link.working.isSome) (hk : k ≠ i) :
    (w.putBack i s link c).handle? k = w.handle? k := by
  obtain ⟨hst, hlocked⟩ := keep_stores w link.home c.committed
  have hs₀ : (w.keep link.home c.committed).1.stores[i]? = some s := by rw [hst, hs]
  subst hc
  refine handle?_congr ?_ fun link' _ => ?_
  · unfold putBack
    rw [getElem?_setStore _ i hs₀, if_neg hk, hst]
  · have hd' : (w.putBack i s link c).database link'.home = w.database link'.home :=
      database_keep_same hkeeps hd link'.home
    refine ⟨hd', connection_of_stance hd' (stances_putBack hs hl hw k link'.home) ?_⟩
    unfold isLocked putBack World.setStore
    simp only [hlocked]

end

/-! ## Stores that cannot begin -/

/-- Nothing happened to the database, and nothing to any other connection. -/
def Untouched (w w' : World) (k : Nat) : Prop :=
  w'.committed? k = w.committed? k ∧ ∀ l, l ≠ k → w'.handle? l = w.handle? l

/-- Inside no block, with no transaction left open, and with something in the way of the next. -/
def Barred (w : World) (k : Nat) : Prop :=
  ∃ h, w.handle? k = some h ∧ h.entered = false ∧ h.connection.working = none ∧
    h.connection.blocked ≠ none

end World

namespace Connection

variable {α : Type} {c : Connection}

theorem open?_of_blocked (hw : c.working = none) (hb : c.blocked ≠ none) :
    ∃ fault c', c.open? = (some fault, c') ∧ c.Unseen c' ∧ c'.working = none := by
  rcases c.open?_cases with ⟨fault, c', ho, hu, hn⟩ | ⟨c', ho, -⟩
  · exact ⟨fault, c', ho, hu, hn.trans hw⟩
  · exact absurd (blocked_of_open (by rw [ho])) hb

theorem rollback_of_idle (hw : c.working = none) : c.rollback = ([], c) := by
  unfold rollback
  rw [hw]

theorem transact_of_blocked (hw : c.working = none) (hb : c.blocked ≠ none) {op : Operation α}
    (hr : op.refusal = none) : ∃ fault, (c.transact op).result =
      (op.recover (.store (.transaction fault))).result ∧
        c.Unseen (c.transact op).connection ∧ (c.transact op).connection.working = none := by
  obtain ⟨fault, c', ho, hu, hn⟩ := open?_of_blocked hw hb
  refine ⟨fault, ?_⟩
  unfold transact giveUp
  simp only [hr, ho, rollback_of_idle hn]
  exact ⟨rfl, hu, hn⟩

end Connection

namespace World

variable {w : World} {k : Nat}

theorem committed?_still {h h' : Handle} {w' : World} (hh : w.handle? k = some h)
    (hh' : w'.handle? k = some h') (hu : h.connection.Unseen h'.connection) :
    w'.committed? k = w.committed? k := by
  rw [committed?_of_handle hh, committed?_of_handle hh', hu.committed]

theorem untouched_call {α : Type} {h : Handle} {op : Operation α} (hh : w.handle? k = some h)
    (hu : h.connection.Unseen (h.perform op).connection)
    (hw : (h.perform op).connection.working = h.connection.working) :
    w.Untouched (w.call k op).1 k := by
  refine ⟨committed?_still hh (handle_call hh op).2 hu, fun l hne => ?_⟩
  obtain ⟨s, link, db, hs, hl, hd, hkeeps, rfl⟩ := handle?_eq_some.mp hh
  have hcom : (w.connection k link).committed = db := by simp [connection, hd, Except.toOption]
  unfold call
  simp only [hs, hl]
  rw [handle_takeNotes]
  exact handle_putBack_still hs hl hd hkeeps (hu.committed.trans hcom) (congrArg _ hw) hne

theorem call_of_barred (h : w.Barred k) (call : Call) :
    w.Untouched (w.call k call.operation).1 k ∧
      (call.operation.refusal = none → ∃ fault : Fault,
        (w.call k call.operation).2 = .error (.store (.transaction fault))) := by
  obtain ⟨⟨opening, entered, c⟩, hh, rfl, hw, hb⟩ := h
  have hperform : Handle.perform ⟨opening, false, c⟩ call.operation = c.transact call.operation := rfl
  cases hr : call.operation.refusal with
  | some failure =>
    have ht : c.transact call.operation = ⟨c, [], .error failure⟩ := by
      unfold Connection.transact
      rw [hr]
    refine ⟨untouched_call hh ?_ ?_, fun hn => by cases hn⟩
    · rw [hperform, ht]
      exact .refl c
    · rw [hperform, ht]
  | none =>
    obtain ⟨fault, hres, hu, hn⟩ := Connection.transact_of_blocked hw hb hr
    refine ⟨untouched_call hh (hperform ▸ hu) ?_, fun _ => ⟨fault, ?_⟩⟩
    · rw [hperform, hn]
      exact hw.symm
    · have hstatement : (Failure.engine fault).FromStatement := trivial
      rw [(handle_call hh call.operation).1, hperform, hres]
      exact call.recover_fails (.inl hstatement)

theorem enter_of_barred (h : w.Barred k) :
    w.Untouched (w.enter k).1 k ∧
      ∃ fault : Fault, (w.enter k).2 = .error (.store (.transaction fault)) := by
  obtain ⟨⟨opening, entered, c⟩, hh, rfl, hw, hb⟩ := h
  obtain ⟨fault, c', ho, hu, hn⟩ := Connection.open?_of_blocked hw hb
  have henter : Handle.enter ⟨opening, false, c⟩ =
      (⟨opening, false, c'⟩, .error (.store (.transaction fault))) := by
    simp [Handle.enter, ho, Connection.rollback_of_idle hn]
  obtain ⟨hres, hafter⟩ := handle_enter hh
  rw [henter] at hres hafter
  refine ⟨⟨committed?_still hh hafter hu, fun l hne => ?_⟩, fault, hres⟩
  obtain ⟨s, link, db, hs, hl, hd, hkeeps, he⟩ := handle?_eq_some.mp hh
  obtain ⟨-, hentered, rfl⟩ := Handle.mk.inj he
  have hcom : (w.connection k link).committed = db := by simp [connection, hd, Except.toOption]
  unfold enter
  simp only [hs, hl, ← hentered, ho, Connection.rollback_of_idle hn, Bool.false_eq_true, if_false]
  rw [handle_takeNotes]
  refine handle_putBack_still hs hl hd hkeeps (hu.committed.trans hcom) ?_ hne
  rw [hn, show link.working = none from hw]

end World

end PubSub
