import PubSub.Proofs.Openings
import PubSub.Proofs.IdleStores

/-!
# Stores that lead elsewhere

A store leads to a file if it is open on that or if its path names it. What
happens on a store that does not lead to a file spares that file and all other
stores (`Spares`), and no store comes to lead to a file by being opened, closed
or called.
-/

namespace PubSub

namespace World

/-- The file at a place is where a store is open, or where it would be opened. -/
def Leads (w : World) (place : Path) (k : Nat) : Prop :=
  w.place? k = some place ∨ w.home? k = some (.file place)

structure Spares (w w' : World) (i : Nat) (place : Path) : Prop where
  store : w'.stores[i]? = w.stores[i]?
  file : w'.files.database place = w.files.database place

section
variable {w w' w'' : World} {i on : Nat} {place : Path}

theorem Spares.refl (w : World) (i : Nat) (place : Path) : w.Spares w i place := ⟨rfl, rfl⟩

theorem Spares.trans (h : w.Spares w' i place) (h' : w'.Spares w'' i place) :
    w.Spares w'' i place :=
  ⟨h'.store.trans h.store, h'.file.trans h.file⟩

/-! ## The parts of a call -/

theorem spares_setStore {s : Store} (hs : w.stores[on]? = some s) (hne : i ≠ on) (s' : Store)
    (place : Path) : w.Spares (w.setStore on s') i place :=
  ⟨(getElem?_setStore w on hs s' i).trans (if_neg hne), rfl⟩

theorem spares_takeNotes (w : World) (hne : i ≠ on) (notes : List Note) (place : Path) :
    w.Spares (w.takeNotes on notes) i place := by
  unfold takeNotes
  induction notes generalizing w with
  | nil => exact .refl ..
  | cons n notes ih =>
    refine Spares.trans ?_ (ih (takeNote on w n))
    cases n with
    | event e => exact ⟨rfl, rfl⟩
    | count name =>
      simp only [takeNote]
      split
      · rename_i s hs
        exact spares_setStore hs hne _ place
      · exact .refl ..

theorem spares_setEntered (w : World) (hne : i ≠ on) (entered : Bool) (place : Path) :
    w.Spares (w.setEntered on entered) i place := by
  unfold setEntered
  split
  · rename_i s hs
    exact spares_setStore hs hne _ place
  · exact .refl ..

theorem meets_of_not_leads {home : Home} (hh : w.home? on = some home) (hl : ¬w.Leads place on) :
    (Home.file place).meets home = false := by
  cases hm : (Home.file place).meets home with
  | false => rfl
  | true =>
    rw [← Home.eq_of_meets hm] at hh
    exact absurd (.inr hh) hl

theorem home?_of_link {s : Store} {link : Link} (hs : w.stores[on]? = some s)
    (hl : s.link = some link) : w.home? on = some link.home := by
  simp [home?, hs, hl]

theorem spares_putBack {s : Store} {link : Link} (hs : w.stores[on]? = some s)
    (hl : s.link = some link) (hne : i ≠ on) (hout : ¬w.Leads place on) (c : Connection) :
    w.Spares (w.putBack on s link c) i place := by
  have hst := (keep_stores w link.home c.committed).1
  have hfile := database_keep_of_apart w (meets_of_not_leads (home?_of_link hs hl) hout) c.committed
  have hkeep : w.Spares (w.keep link.home c.committed).1 i place := ⟨by rw [hst], hfile⟩
  exact hkeep.trans (spares_setStore (by rw [hst, hs]) hne _ place)

/-! ## What callers do -/

variable (hne : i ≠ on) (hout : ¬w.Leads place on)

include hne hout

theorem spares_call {α : Type} (op : Operation α) : w.Spares (w.call on op).1 i place := by
  have hn : ∀ failure, w.Spares (w.callUnlinked on op failure).1 i place := by
    intro failure
    unfold callUnlinked
    split
    · exact .refl ..
    · exact spares_takeNotes w hne _ place
  unfold call
  split
  · exact hn _
  · rename_i s hs
    split
    · exact hn _
    · rename_i link hl
      exact (spares_putBack hs hl hne hout _).trans (spares_takeNotes _ hne _ place)

theorem spares_enter : w.Spares (w.enter on).1 i place := by
  unfold enter
  split
  · exact .refl ..
  · rename_i s hs
    split
    · exact .refl ..
    · split
      · exact .refl ..
      · rename_i link hl
        split
        · exact (spares_putBack hs hl hne hout _).trans (spares_setEntered _ hne _ place)
        · exact (spares_putBack hs hl hne hout _).trans (spares_takeNotes _ hne _ place)

theorem spares_leave (entry : Entry) (outcome : Option Failure) :
    w.Spares (w.leave on entry outcome).1 i place := by
  unfold leave
  split
  · exact .refl ..
  · have hset := spares_setEntered w hne false place
    have hout' : ¬(w.setEntered on false).Leads place on := by
      rintro (h | h)
      · rw [place?, face?_setEntered, if_pos rfl] at h
        refine hout (.inl ?_)
        rw [place?]
        cases hf : w.face? on with
        | none => simp [hf] at h
        | some face => simpa [hf] using h
      · obtain ⟨a, ha, hm⟩ := (settled_setEntered w on false).mark_eq h
        refine hout (.inr (ha.trans ?_))
        cases a <;> simp_all [Home.mark]
    refine hset.trans ?_
    generalize w.setEntered on false = w at hout'
    simp only
    split
    · exact .refl ..
    · rename_i s hs
      split
      · exact .refl ..
      · rename_i link hl
        split
        · exact .refl ..
        · exact (spares_putBack hs hl hne hout' _).trans (spares_takeNotes _ hne _ place)

omit hout in
theorem spares_closeStore (place : Path) : w.Spares (w.closeStore on) i place := by
  unfold closeStore
  split
  · exact .refl ..
  · rename_i s hs
    split
    · exact ⟨(spares_setStore hs hne { s with link := none } place).store, rfl⟩
    · exact .refl ..

omit hout in
theorem spares_refusing (refusals : List Refusal) (place : Path) :
    w.Spares (w.refusing on refusals) i place := by
  unfold refusing
  split
  · exact .refl ..
  · rename_i s hs
    exact spares_setStore hs hne _ place

end

/-! ## Openings -/

/-- An opening that came to its end: one store has a connection to the database that its path names,
and a database whose schema is current is the one it was. -/
structure Reopened (w w' : World) (on : Nat) (s : Store) (a : Address) (home : Home) : Prop where
  found : w.stores[on]? = some s
  closed : s.link = none
  stores : w'.stores = w.stores.set on (linked s home a)
  leads : ∀ place, home = .file place ↔ Path.ofText? s.path = some place
  beside : ∀ place, home ≠ .file place → w'.files.database place = w.files.database place
  current : ∀ place db, w.files.database place = .ok db → db.version = schemaVersion →
    w'.files.database place = .ok db

section
variable {w w' w'' : World} {i on k : Nat} {place : Path} {s : Store} {a : Address} {home : Home}

theorem home_of_approach (h : w.approach s = (w', .ok (a, home))) :
    home = .file place ↔ Path.ofText? s.path = some place := by
  obtain ⟨bytes, address, v, hb, ha, hh, -⟩ := approach_ok h
  unfold Path.ofText?
  simp only [hb, ha]
  cases hk : address.keeping with
  | file name =>
    rw [home_of_homeOf hk hh]
    simp
  | alone =>
    simp only [homeOf, hk] at hh
    cases hh
    simp
  | common name =>
    simp only [homeOf, hk] at hh
    split at hh <;> cases hh <;> simp

theorem reopened_of_ok (hs : w.stores[on]? = some s) (hl : s.link = none)
    (h : (w.openStore on).2 = .ok ()) : ∃ a home, w.Reopened (w.openStore on).1 on s a home := by
  obtain ⟨v, a, home, db, events, log, happ, hk, hprep, he⟩ := openStore_ok hs hl h
  have happr := approached w s
  rw [happ] at happr
  obtain ⟨hj, found, hd, -⟩ := prepare_ok hprep
  refine ⟨a, (v.keep home db).2, hs, hl, ?_, fun place => ?_, fun place hne => ?_,
    fun place old hold hv => ?_⟩
  · rw [he]
    change (v.keep home db).1.stores.set on _ = _
    rw [(keep_stores v home db).1, happr.stores]
  · rw [← home_of_approach happ]
    rcases keep_home v home db with hsame | ⟨old, rfl, hown⟩
    · rw [hsame]
    · rw [hown]
      simp
  · rw [he]
    have hm : (Home.file place).meets home = false := by
      cases hm : (Home.file place).meets home with
      | false => rfl
      | true =>
        rw [← Home.eq_of_meets hm] at hne
        exact absurd ((keep_home v (.file place) db).resolve_right (by simp)) hne
    exact (database_keep_of_apart v hm db).trans (happr.files.database place)
  · rw [he]
    have hold' : v.files.database place = .ok old := (happr.files.database place).trans hold
    cases hm : (Home.file place).meets home with
    | false => exact (database_keep_of_apart v hm db).trans hold'
    | true =>
      obtain rfl := Home.eq_of_meets hm
      obtain rfl : found = old := Except.ok.inj (hd.symm.trans hold')
      rw [prepare_current on s.path a hd hv hj] at hprep
      cases hprep
      have hput := database_keep v hk hd db
      rwa [(keep_home v (.file place) db).resolve_right (by simp)] at hput

theorem openStore_cases (w : World) (on : Nat) :
    ((w.openStore on).1.stores = w.stores ∧
      ∀ place, (w.openStore on).1.files.database place = w.files.database place) ∨
    ∃ s a home, w.Reopened (w.openStore on).1 on s a home := by
  cases hs : w.stores[on]? with
  | none => exact .inl (by simp [openStore, hs])
  | some s =>
    cases hl : s.link with
    | some link => exact .inl (by simp [openStore, hs, Store.isOpen, hl])
    | none =>
      cases hr : (w.openStore on).2 with
      | error failure => exact .inl (openStore_error hs hl hr)
      | ok value =>
        obtain ⟨a, home, h⟩ := reopened_of_ok hs hl hr
        exact .inr ⟨s, a, home, h⟩

theorem Reopened.store (h : w.Reopened w' on s a home) :
    w'.stores[on]? = some (linked s home a) := by
  rw [h.stores, List.getElem?_set_self (List.getElem?_eq_some_iff.mp h.found).1]

theorem Reopened.others (h : w.Reopened w' on s a home) (hne : k ≠ on) :
    w'.stores[k]? = w.stores[k]? := by
  rw [h.stores, List.getElem?_set_ne (Ne.symm hne)]

theorem spares_openStore (hne : i ≠ on) (hout : ¬w.Leads place on) :
    w.Spares (w.openStore on).1 i place := by
  rcases openStore_cases w on with ⟨hst, hfile⟩ | ⟨s, a, home, h⟩
  · exact ⟨by rw [hst], hfile place⟩
  · refine ⟨h.others hne, h.beside place fun he => hout (.inl ?_)⟩
    simpa [place?, face?, h.found] using (h.leads place).mp he

/-! ## Who leads where -/

theorem leads_congr (hp : w'.place? k = w.place? k)
    (hh : w'.home? k = some (.file place) → w.Leads place k) (h : w'.Leads place k) :
    w.Leads place k :=
  h.elim (fun hn => .inl (hp ▸ hn)) hh

theorem Settled.leads (hset : w.Settled w') (hp : w'.place? k = w.place? k)
    (h : w'.Leads place k) : w.Leads place k := by
  refine leads_congr hp (fun hh => ?_) h
  obtain ⟨a, ha, hm⟩ := hset.mark_eq hh
  refine .inr (ha.trans ?_)
  cases a <;> simp_all [Home.mark]

theorem place?_of_stores (h : w'.stores[k]? = w.stores[k]?) : w'.place? k = w.place? k := by
  rw [place?, face?, h, ← face?, ← place?]

theorem place?_of_face (h : (w'.face? k).map (·.1) = (w.face? k).map (·.1)) :
    w'.place? k = w.place? k := by
  unfold place?
  cases hf : w.face? k <;> cases hf' : w'.face? k <;> simp_all

def Narrows (w w' : World) (place : Path) : Prop := ∀ k, w'.Leads place k → w.Leads place k

theorem Narrows.trans (h : w.Narrows w' place) (h' : w'.Narrows w'' place) : w.Narrows w'' place :=
  fun k hk => h k (h' k hk)

theorem narrows_call {α : Type} (w : World) (on : Nat) (op : Operation α) (place : Path) :
    w.Narrows (w.call on op).1 place := fun k h =>
  (settled_call w on op).leads (place?_of_face (by rw [face?_call])) h

theorem narrows_enter (w : World) (on : Nat) (place : Path) : w.Narrows (w.enter on).1 place := by
  intro k h
  refine (settled_enter w on).leads (place?_of_face ?_) h
  rcases he : w.enter on with ⟨w', result⟩
  rw [face?_enter he k]
  cases result with
  | error failure => rfl
  | ok entry =>
    cases entry with
    | joined => rfl
    | outermost opening =>
      simp only
      split
      · simp [Function.comp_def]
      · rfl

theorem narrows_leave (w : World) (on : Nat) (entry : Entry) (outcome : Option Failure)
    (place : Path) : w.Narrows (w.leave on entry outcome).1 place := by
  intro k h
  refine (settled_leave w on entry outcome).leads (place?_of_face ?_) h
  rw [face?_leave]
  cases entry with
  | joined => rfl
  | outermost opening =>
    simp only
    split
    · simp [Function.comp_def]
    · rfl

theorem narrows_refusing (w : World) (on : Nat) (refusals : List Refusal) (place : Path) :
    w.Narrows (w.refusing on refusals) place := fun k h =>
  (settled_refusing w on refusals).leads (place?_of_face (by rw [face?_refusing])) h

theorem narrows_closeStore (w : World) (on : Nat) (place : Path) :
    w.Narrows (w.closeStore on) place := by
  intro k h
  by_cases hk : k = on
  · subst hk
    unfold closeStore at h
    split at h
    · exact h
    · rename_i s hs
      split at h
      · have hat := getElem?_setStore w k hs { s with link := none } k
        rw [if_pos rfl] at hat
        have hface : (w.setStore k { s with link := none }).face? k = w.face? k :=
          face?_setStore_same hs { s with link := none } rfl rfl k
        refine leads_congr (place?_of_face (congrArg _ hface)) (fun hh => ?_) h
        have hn : (w.setStore k { s with link := none }).home? k = none := by simp [home?, hat]
        cases hn.symm.trans hh
      · exact h
  · have hst : (w.closeStore on).stores[k]? = w.stores[k]? := (spares_closeStore hk place).store
    exact leads_congr (place?_of_stores hst) (fun hh => .inr (by rwa [home?, hst] at hh)) h

theorem narrows_openStore (w : World) (on : Nat) (place : Path) :
    w.Narrows (w.openStore on).1 place := by
  intro k h
  rcases openStore_cases w on with ⟨hst, -⟩ | ⟨s, a, home, hr⟩
  · refine leads_congr (place?_of_stores (by rw [hst])) (fun hh => .inr ?_) h
    rwa [home?, hst] at hh
  · by_cases hk : k = on
    · subst hk
      have hp : (w.openStore k).1.place? k = w.place? k := by
        simp [place?, face?, hr.store, hr.found, linked]
      refine leads_congr hp (fun hh => .inl ?_) h
      have hhome : home = .file place := by
        simpa [home?, hr.store, linked, Link.new] using hh
      simpa [place?, face?, hr.found] using (hr.leads place).mp hhome
    · have hst := hr.others hk
      exact leads_congr (place?_of_stores hst) (fun hh => .inr (by rwa [home?, hst] at hh)) h

end

end World

end PubSub
