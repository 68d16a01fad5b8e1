import PubSub.Proofs.Storage
import PubSub.Proofs.Transaction

/-!
# Handles

A handle is what callers have of an open store: how often that was opened,
whether a block is running on it, and its connection. Calls and the beginnings
and ends of blocks do to the handle what they do to its connection
(`handle_call`, `handle_enter`, `handle_leave`), and a handle on another
database does not notice.
-/

namespace PubSub

structure Handle where
  opening : Nat
  entered : Bool
  connection : Connection

/-- What another connection cannot change about a handle. -/
structure Handle.Alike (h h' : Handle) : Prop where
  opening : h'.opening = h.opening
  entered : h'.entered = h.entered
  working : h'.connection.working = h.connection.working
  mayWrite : h'.connection.mayWrite = h.connection.mayWrite

theorem Handle.Alike.refl (h : Handle) : h.Alike h := ⟨rfl, rfl, rfl, rfl⟩

namespace World

/-- The handle on the `i`-th store, where that is open and a database is at its home. -/
def handle? (w : World) (i : Nat) : Option Handle :=
  match w.stores[i]? with
  | none => none
  | some s =>
    match s.link with
    | none => none
    | some link =>
      match w.database link.home with
      | .error _ => none
      | .ok _ =>
        if link.home.keeps then some ⟨s.openings, s.entered, w.connection i link⟩ else none

def committed? (w : World) (i : Nat) : Option Database :=
  (w.handle? i).map fun h => h.connection.committed

theorem handle?_eq_some {w : World} {i : Nat} {h : Handle} :
    w.handle? i = some h ↔ ∃ s link db, w.stores[i]? = some s ∧ s.link = some link ∧
      w.database link.home = .ok db ∧ link.home.keeps = true ∧
      h = ⟨s.openings, s.entered, w.connection i link⟩ := by
  unfold handle?
  constructor
  · intro hh
    split at hh
    · cases hh
    · rename_i s hs
      split at hh
      · cases hh
      · rename_i link hl
        split at hh
        · cases hh
        · rename_i db hd
          split at hh
          · rename_i hk
            exact ⟨s, link, db, hs, hl, hd, hk, (Option.some.inj hh).symm⟩
          · cases hh
  · rintro ⟨s, link, db, hs, hl, hd, hk, rfl⟩
    simp only [hs, hl, hd, hk, if_true]

/-! ## The connections beside a store -/

theorem filterMap_zipIdx_set {α β : Type} (g : α × Nat → Option β) :
    ∀ (l : List α) (k n : Nat) (a : α), (∀ old, l[k]? = some old → g (a, n + k) = g (old, n + k)) →
      ((l.set k a).zipIdx n).filterMap g = (l.zipIdx n).filterMap g
  | [], _, _, _, _ => rfl
  | b :: l, 0, n, a, h => by
    simp only [List.set_cons_zero, List.zipIdx_cons, List.filterMap_cons]
    rw [show g (a, n) = g (b, n) from h b rfl]
  | b :: l, k + 1, n, a, h => by
    simp only [List.set_cons_succ, List.zipIdx_cons, List.filterMap_cons]
    rw [filterMap_zipIdx_set g l k (n + 1) a fun old ho => by
      have := h old (by simpa using ho)
      rwa [show n + 1 + k = n + (k + 1) by omega]]

def linkTo (home : Home) (s : Store) : Option Link := s.link.filter fun link => link.home.meets home

theorem linksBeside_eq (w : World) (i : Nat) (home : Home) :
    w.linksBeside i home =
      w.stores.zipIdx.filterMap fun (s, j) => if j = i then none else linkTo home s := by
  unfold linksBeside linkTo
  rw [List.filter_filterMap]
  congr 1
  funext ⟨s, j⟩
  by_cases h : j = i
  · simp [h]
  · simp [h]

theorem linksBeside_setStore {w : World} {k : Nat} {s : Store} (hs : w.stores[k]? = some s)
    {i : Nat} {home : Home} {s' : Store} (h : k = i ∨ linkTo home s' = linkTo home s) :
    (w.setStore k s').linksBeside i home = w.linksBeside i home := by
  rw [linksBeside_eq, linksBeside_eq]
  refine filterMap_zipIdx_set _ w.stores k 0 s' fun old ho => ?_
  rw [hs, Option.some.injEq] at ho
  subst ho
  rcases h with h | h
  · simp [h]
  · simp [h]

theorem linksBeside_congr {w w' : World} (h : w'.stores = w.stores) (i : Nat) {home home' : Home}
    (hm : ∀ other : Home, other.meets home' = other.meets home) :
    w'.linksBeside i home' = w.linksBeside i home := by
  unfold linksBeside
  simp only [h, hm]

theorem connection_congr {w w' : World} {i : Nat} {link link' : Link} {db db' : Database}
    (hd : w.database link.home = .ok db) (hd' : w'.database link'.home = .ok db')
    (hb : w'.linksBeside i link'.home = w.linksBeside i link.home)
    (hl : w'.isLocked link'.home = w.isLocked link.home) (hm : link'.mayWrite = link.mayWrite)
    (hs : link'.shares = link.shares) :
    (w'.connection i link').around = (w.connection i link).around := by
  unfold Connection.around connection blockedFor isObserved
  simp only [hd, hd', hb, hl, hm, hs]

theorem connection_eq {w w' : World} {i : Nat} {link : Link}
    (hd : w'.database link.home = w.database link.home)
    (hb : w'.linksBeside i link.home = w.linksBeside i link.home)
    (hl : w'.isLocked link.home = w.isLocked link.home) :
    w'.connection i link = w.connection i link := by
  unfold connection blockedFor isObserved
  simp only [hd, hb, hl]

/-! ## Stores that keep their connection -/

theorem handle_setStore {w : World} {i : Nat} {s : Store} (hs : w.stores[i]? = some s) (s' : Store)
    (hl : s'.link = s.link) (ho : s'.openings = s.openings) (k : Nat) :
    (w.setStore i s').handle? k =
      if k = i then (w.handle? k).map fun h => { h with entered := s'.entered }
      else w.handle? k := by
  have hb : ∀ j home, (w.setStore i s').linksBeside j home = w.linksBeside j home := fun j home =>
    linksBeside_setStore hs (.inr (by simp [linkTo, hl]))
  have hc : ∀ j link, (w.setStore i s').connection j link = w.connection j link := fun j link =>
    connection_eq rfl (hb j link.home) rfl
  unfold handle?
  rw [getElem?_setStore w i hs]
  by_cases h : k = i
  · subst h
    simp only [if_true, hs, hl, ho, hc]
    cases s.link with
    | none => rfl
    | some link =>
      simp only [show (w.setStore k s').database link.home = w.database link.home from rfl]
      cases w.database link.home with
      | error fault => rfl
      | ok db => cases link.home.keeps <;> rfl
  · simp only [h, if_false, hc]
    rfl

theorem handle_takeNote (w : World) (i : Nat) (n : Note) (k : Nat) :
    (takeNote i w n).handle? k = w.handle? k := by
  cases n with
  | event e => rfl
  | count name =>
    simp only [takeNote]
    split
    · rename_i s hs
      rw [handle_setStore hs { s with metrics := s.metrics.add name 1 } rfl rfl]
      split
      · rename_i h
        subst h
        cases hh : w.handle? k with
        | none => rfl
        | some h =>
          obtain ⟨s₀, link, db, hs₀, -, -, -, rfl⟩ := handle?_eq_some.mp hh
          rw [hs, Option.some.injEq] at hs₀
          subst hs₀
          rfl
      · rfl
    · rfl

theorem handle_takeNotes (w : World) (i : Nat) (notes : List Note) (k : Nat) :
    (w.takeNotes i notes).handle? k = w.handle? k := by
  unfold takeNotes
  induction notes generalizing w with
  | nil => rfl
  | cons n notes ih => exact (ih (takeNote i w n)).trans (handle_takeNote w i n k)

theorem handle_setEntered (w : World) (i : Nat) (entered : Bool) (k : Nat) :
    (w.setEntered i entered).handle? k =
      if k = i then (w.handle? k).map fun h => { h with entered := entered } else w.handle? k := by
  unfold setEntered
  split
  · rename_i s hs
    exact handle_setStore hs { s with entered := entered } rfl rfl k
  · rename_i hs
    split
    · rename_i h
      subst h
      simp [handle?, hs]
    · rfl

/-! ## Connections that are put back -/

theorem handle_putBack {w : World} {i : Nat} {s : Store} {link : Link} {db : Database}
    (hs : w.stores[i]? = some s) (hd : w.database link.home = .ok db)
    (hk : link.home.keeps = true) {c : Connection} (hc : c.around = (w.connection i link).around) :
    (w.putBack i s link c).handle? i = some ⟨s.openings, s.entered, c⟩ := by
  have hst := (keep_stores w link.home c.committed).1
  have hd' := database_keep w hk hd c.committed
  have hm := keep_meets w link.home
  have hl := keep_isLocked w link.home c.committed
  have hk' := keep_keeps w link.home c.committed
  unfold putBack
  generalize hw : w.keep link.home c.committed = p at hst hd' hl hk'
  obtain ⟨w', home'⟩ := p
  simp only at hst hd' hl hk' ⊢
  generalize hlink : ({ link with
    home := home'
    working := c.working
    refusals := c.refusals
    lastFault := c.lastFault
    knowsSetting := c.knowsSetting } : Link) = link'
  have hs' : w'.stores[i]? = some s := by rw [hst, hs]
  have hhome : link'.home = home' := by rw [← hlink]
  refine handle?_eq_some.mpr ⟨{ s with link := some link' }, link', c.committed, ?_, rfl, ?_, ?_, ?_⟩
  · rw [getElem?_setStore w' i hs']
    simp
  · rw [hhome]
    exact hd'
  · rw [hhome, hk', hk]
  -- The links beside this one are as they were, so the connection has the same around it.
  · have ha : ((w'.setStore i { s with link := some link' }).connection i link').around =
        (w.connection i link).around := by
      have hd₂ : (w'.setStore i { s with link := some link' }).database link'.home =
          .ok c.committed := hhome ▸ hd'
      refine connection_congr hd hd₂ ?_ (hhome ▸ hl) ?_ ?_
      · rw [linksBeside_setStore hs' (.inl rfl), hhome]
        refine linksBeside_congr hst i fun other => ?_
        have := hm other c.committed
        rwa [hw] at this
      · rw [← hlink]
      · rw [← hlink]
    have hcom : ((w'.setStore i { s with link := some link' }).connection i link').committed =
        c.committed := by
      have : (w'.setStore i { s with link := some link' }).database link'.home = .ok c.committed :=
        hhome ▸ hd'
      simp [connection, this, Except.toOption]
    rw [Connection.eq_of_around hcom (ha.trans hc.symm) (by rw [← hlink]; rfl)]

theorem handle?_congr {w w' : World} {k : Nat} (hs : w'.stores[k]? = w.stores[k]?)
    (h : ∀ link, w.home? k = some link.home →
      w'.database link.home = w.database link.home ∧ w'.connection k link = w.connection k link) :
    w'.handle? k = w.handle? k := by
  unfold handle?
  rw [hs]
  cases hk : w.stores[k]? with
  | none => rfl
  | some s =>
    cases hl : s.link with
    | none => simp only [hl]
    | some link =>
      obtain ⟨hd, hc⟩ := h link (by simp [home?, hk, hl])
      simp only [hl, hd, hc]

theorem handle_putBack_of_apart {w : World} {i k : Nat} {s : Store} {link : Link}
    (hs : w.stores[i]? = some s) (hl : s.link = some link) (ha : w.Apart i k) (c : Connection) :
    (w.putBack i s link c).handle? k = w.handle? k := by
  obtain ⟨hst, hlock⟩ := keep_stores w link.home c.committed
  have hm := keep_meets w link.home
  have hi : w.home? i = some link.home := by simp [home?, hs, hl]
  have hs' : (w.keep link.home c.committed).1.stores[i]? = some s := by rw [hst, hs]
  unfold putBack
  refine handle?_congr ?_ fun l hk => ?_
  · rw [getElem?_setStore _ i hs', if_neg ha.1.symm, hst]
  · have hml : link.home.meets l.home = false := ha.2 _ hi _ hk
    have hd : (w.keep link.home c.committed).1.database l.home = w.database l.home :=
      database_keep_of_apart w (Home.meets_comm .. ▸ hml) c.committed
    -- Neither before nor after does the connection that is put back lead to the other database.
    have hb : ∀ link' : Link, link'.home = (w.keep link.home c.committed).2 →
        ((w.keep link.home c.committed).1.setStore i { s with link := some link' }).linksBeside k
          l.home = w.linksBeside k l.home := by
      intro link' hl'
      rw [linksBeside_setStore hs' (.inr ?_)]
      · exact linksBeside_congr hst k fun _ => rfl
      · have hml' : link'.home.meets l.home = false := by
          rw [hl', Home.meets_comm, hm, Home.meets_comm, hml]
        simp [linkTo, hl, Option.filter, hml, hml']
    have hlock' : (w.keep link.home c.committed).1.isLocked l.home = w.isLocked l.home := by
      unfold isLocked
      rw [hlock]
    exact ⟨hd, connection_eq hd (hb _ rfl) hlock'⟩

theorem alike_putBack {w : World} {i k : Nat} {s : Store} {link : Link}
    (hs : w.stores[i]? = some s) (hk : k ≠ i) {h : Handle} (hh : w.handle? k = some h)
    (c : Connection) : ∃ h', (w.putBack i s link c).handle? k = some h' ∧ h.Alike h' := by
  obtain ⟨s', l, db, hs', hl, hd, hkeeps, rfl⟩ := handle?_eq_some.mp hh
  have hst := (keep_stores w link.home c.committed).1
  obtain ⟨db', hd'⟩ := database_keep_ok w link.home hkeeps hd c.committed
  have hs₀ : (w.keep link.home c.committed).1.stores[i]? = some s := by rw [hst, hs]
  refine ⟨_, handle?_eq_some.mpr ⟨s', l, db', ?_, hl, hd', hkeeps, rfl⟩, rfl, rfl, rfl, rfl⟩
  unfold putBack
  rw [getElem?_setStore _ i hs₀, if_neg hk, hst, hs']

/-! ## Calls and blocks on a handle -/

end World

/-- A call inside a block joins its transaction; every other call has one of its own. -/
def Handle.perform {α : Type} (h : Handle) (op : Operation α) : Run α :=
  if h.entered then h.connection.join op else h.connection.transact op

def Handle.enter (h : Handle) : Handle × Except Failure World.Entry :=
  if h.entered then (h, .ok .joined)
  else
    match h.connection.open? with
    | (none, c) => (⟨h.opening, true, c⟩, .ok (.outermost h.opening))
    | (some fault, c) =>
      (⟨h.opening, false, c.rollback.2⟩, .error (.store (.transaction fault)))

def Handle.leave (h : Handle) : World.Entry → Option Failure → Handle × Option Failure
  | .joined, outcome => (h, outcome)
  | .outermost opening, outcome =>
    if h.opening ≠ opening then (⟨h.opening, false, h.connection⟩, some .disconnected)
    else
      let (c, _, outcome) := World.settle h.connection outcome
      (⟨h.opening, false, c⟩, outcome)

theorem Handle.perform_around {α : Type} (h : Handle) (op : Operation α) :
    (h.perform op).connection.around = h.connection.around := by
  unfold perform
  split
  · exact h.connection.join_around op
  · exact h.connection.transact_around op

theorem World.settle_around (c : Connection) (outcome : Option Failure) :
    (settle c outcome).1.around = c.around := by
  cases outcome with
  | some failure => exact (Connection.rollback_unseen c).around
  | none =>
    unfold settle
    rcases Connection.commit_cases c with ⟨fault, c', h, hu, -⟩ | ⟨db, c', h, -, -, -, ha⟩
    · simp only [h]
      exact (hu.trans (Connection.rollback_unseen c')).around
    · simp only [h]
      exact ha

namespace World

section
variable {w : World} {i : Nat} {h : Handle} (hh : w.handle? i = some h)

include hh

theorem handle_call {α : Type} (op : Operation α) :
    (w.call i op).2 = (h.perform op).result ∧
      (w.call i op).1.handle? i = some ⟨h.opening, h.entered, (h.perform op).connection⟩ := by
  obtain ⟨s, link, db, hs, hl, hd, hk, rfl⟩ := handle?_eq_some.mp hh
  unfold call
  simp only [hs, hl]
  refine ⟨rfl, ?_⟩
  rw [handle_takeNotes]
  exact handle_putBack hs hd hk (Handle.perform_around ⟨s.openings, s.entered, _⟩ op)

theorem handle_enter :
    (w.enter i).2 = h.enter.2 ∧ (w.enter i).1.handle? i = some h.enter.1 := by
  obtain ⟨s, link, db, hs, hl, hd, hk, rfl⟩ := handle?_eq_some.mp hh
  unfold enter Handle.enter
  simp only [hs, hl]
  cases he : s.entered with
  | true =>
    rw [he] at hh
    exact ⟨rfl, hh⟩
  | false =>
    simp only [Bool.false_eq_true, if_false]
    rcases Connection.open?_cases (w.connection i link) with
      ⟨fault, c, ho, hu, -⟩ | ⟨c, ho, hu, -, -⟩
    · simp only [ho, handle_takeNotes, true_and]
      rw [handle_putBack hs hd hk (hu.trans (Connection.rollback_unseen c)).around, he]
    · simp only [ho, handle_setEntered, if_true, true_and]
      rw [handle_putBack hs hd hk hu.around]
      rfl

theorem handle_leave (entry : Entry) (outcome : Option Failure) :
    (w.leave i entry outcome).2 = (h.leave entry outcome).2 ∧
      (w.leave i entry outcome).1.handle? i = some (h.leave entry outcome).1 := by
  cases entry with
  | joined => exact ⟨rfl, hh⟩
  | outermost opening =>
    have hh' : (w.setEntered i false).handle? i = some ⟨h.opening, false, h.connection⟩ := by
      rw [handle_setEntered, if_pos rfl, hh]
      rfl
    unfold leave Handle.leave
    generalize w.setEntered i false = w' at hh'
    obtain ⟨s, link, db, hs, hl, hd, hk, he⟩ := handle?_eq_some.mp hh'
    simp only [Handle.mk.injEq] at he
    simp only [hs, hl, he.1, he.2.2]
    split
    · refine ⟨rfl, ?_⟩
      rw [hh', he.1, he.2.2]
    · refine ⟨rfl, ?_⟩
      rw [handle_takeNotes, handle_putBack hs hd hk (settle_around _ _), ← he.2.1]

end

/-- What another handle can notice of what happens on a store: nothing, or that its connection is
put back. -/
inductive Touched (w w' : World) (i k : Nat) : Prop where
  | not (h : w'.handle? k = w.handle? k)
  | back {w₀ : World} {s : Store} {link : Link} (c : Connection) (hset : w.Settled w₀)
      (hh : w₀.handle? k = w.handle? k) (hs : w₀.stores[i]? = some s) (hl : s.link = some link)
      (h : w'.handle? k = (w₀.putBack i s link c).handle? k)

section
variable {w w' : World} {i k : Nat}

theorem touched_call {α : Type} (op : Operation α) : Touched w (w.call i op).1 i k := by
  have hn : ∀ failure, (w.callUnlinked i op failure).1.handle? k = w.handle? k := by
    intro failure
    unfold callUnlinked
    split
    · rfl
    · exact handle_takeNotes w i _ k
  unfold call
  split
  · exact .not (hn _)
  · rename_i s hs
    split
    · exact .not (hn _)
    · rename_i link hl
      exact .back _ (.refl w) rfl hs hl (handle_takeNotes _ i _ k)

theorem touched_enter (hk : k ≠ i) : Touched w (w.enter i).1 i k := by
  unfold enter
  split
  · exact .not rfl
  · rename_i s hs
    split
    · exact .not rfl
    · split
      · exact .not rfl
      · rename_i link hl
        split
        · rename_i c _
          refine .back c (.refl w) rfl hs hl ?_
          rw [handle_setEntered, if_neg hk]
        · exact .back _ (.refl w) rfl hs hl (handle_takeNotes _ i _ k)

theorem touched_leave (hk : k ≠ i) (entry : Entry) (outcome : Option Failure) :
    Touched w (w.leave i entry outcome).1 i k := by
  unfold leave
  split
  · exact .not rfl
  · have hh : (w.setEntered i false).handle? k = w.handle? k := by
      rw [handle_setEntered, if_neg hk]
    have hset := settled_setEntered w i false
    generalize w.setEntered i false = w₀ at hh hset
    simp only
    split
    · exact .not hh
    · rename_i s hs
      split
      · exact .not hh
      · rename_i link hl
        split
        · exact .not hh
        · exact .back _ hset hh hs hl (handle_takeNotes _ i _ k)

theorem Touched.of_apart (h : Touched w w' i k) (ha : w.Apart i k) : w'.handle? k = w.handle? k := by
  cases h with
  | not h => exact h
  | back c hset hh hs hl h => rw [h, handle_putBack_of_apart hs hl (hset.apart ha), hh]

theorem Touched.alike (h : Touched w w' i k) (hk : k ≠ i) {d : Handle} (hd : w.handle? k = some d) :
    ∃ d', w'.handle? k = some d' ∧ d.Alike d' := by
  cases h with
  | not h => exact ⟨d, h.trans hd, .refl d⟩
  | back c hset hh hs hl h =>
    obtain ⟨d', hd', ha⟩ := alike_putBack hs hk (hh.trans hd) c
    exact ⟨d', h.trans hd', ha⟩

end

end World

end PubSub
