import PubSub.Proofs.UnrelatedStores
import PubSub.Proofs.Recovery

/-!
# Blocks across openings

A block ends its transaction on the connection on which that began. Inside the
block its store may be closed, which gives the transaction up, and opened again,
which gives the store another connection with no transaction on it. A call that
joins the block runs on the connection that the store has by then, so what it
writes after that is in the file at once and no end of the block takes it back
(`block_keeps_loose`). Those writes are the loose ones.
-/

namespace PubSub

/-- The rest of a block in which stores may be closed and opened. -/
inductive Conduct where
  | done
  | abort (failure : Failure)
  | call (on : Nat) (call : Call) (next : Except Failure Reply → Conduct)
  | block (on : Nat) (inner : Conduct) (next : Option Failure → Conduct)
  | refuse (on : Nat) (refusals : List Refusal) (next : Conduct)
  | close (on : Nat) (next : Conduct)
  | reopen (on : Nat) (next : Except Failure Unit → Conduct)

def Conduct.Within (P : Nat → Prop) : Conduct → Prop
  | .done | .abort _ => True
  | .call on _ next => P on ∧ ∀ result, (next result).Within P
  | .block on inner next => P on ∧ inner.Within P ∧ ∀ outcome, (next outcome).Within P
  | .refuse on _ next | .close on next => P on ∧ next.Within P
  | .reopen on next => P on ∧ ∀ result, (next result).Within P

theorem Conduct.Within.mono {P Q : Nat → Prop} (h : ∀ k, P k → Q k) :
    ∀ {conduct : Conduct}, conduct.Within P → conduct.Within Q
  | .done, _ | .abort _, _ => trivial
  | .call on _ _, hb | .reopen on _, hb => ⟨h on hb.1, fun result => (hb.2 result).mono h⟩
  | .block on _ _, hb => ⟨h on hb.1, hb.2.1.mono h, fun outcome => (hb.2.2 outcome).mono h⟩
  | .refuse on _ _, hb | .close on _, hb => ⟨h on hb.1, hb.2.mono h⟩

/-- A write that was executed on the connection that an opening of a store gave. -/
structure Stroke where
  store : Nat
  opening : Nat
  effect : Effect

namespace Stroke

def writes (strokes : List Stroke) : List Write := strokes.map (·.effect.write)

def ofStore (i : Nat) (strokes : List Stroke) : List Stroke := strokes.filter (·.store = i)

/-- Those that no transaction held. -/
def loose (strokes : List Stroke) : List Stroke :=
  strokes.filter (·.effect.before.working.isNone)

end Stroke

/-- How something went: where it led, how it ended, and the writes that were executed. -/
structure Passage where
  world : World
  outcome : Option Failure
  strokes : List Stroke

def Passage.behind (strokes : List Stroke) (p : Passage) : Passage :=
  { p with strokes := strokes ++ p.strokes }

namespace World

def strokes (w : World) (on : Nat) (call : Call) : List Stroke :=
  (w.handle? on).elim [] fun h => (h.effects call.operation).map (⟨on, h.opening, ·⟩)

def around (w : World) (on : Nat) (body : World → Passage) : Passage :=
  match w.enter on with
  | (w, .error failure) => ⟨w, some failure, []⟩
  | (w, .ok entry) =>
    let p := body w
    ⟨(p.world.leave on entry p.outcome).1, (p.world.leave on entry p.outcome).2, p.strokes⟩

def pursue : World → Conduct → Passage
  | w, .done => ⟨w, none, []⟩
  | w, .abort failure => ⟨w, some failure, []⟩
  | w, .call on call next =>
    let (world, result) := w.call on call.operation
    (world.pursue (next result)).behind (w.strokes on call)
  | w, .block on inner next =>
    let p := w.around on fun w => w.pursue inner
    (p.world.pursue (next p.outcome)).behind p.strokes
  | w, .refuse on refusals next => (w.refusing on refusals).pursue next
  | w, .close on next => (w.closeStore on).pursue next
  | w, .reopen on next =>
    let (world, result) := w.openStore on
    world.pursue (next result)

end World

/-! ## One call on a connection -/

theorem Database.writeAll_version {db db' : Database} {writes : List Write}
    (h : db.writeAll writes = .ok db') : db'.version = db.version := by
  induction writes generalizing db with
  | nil =>
    cases h
    rfl
  | cons w writes ih =>
    simp only [writeAll] at h
    split at h
    · rename_i rows d hrun
      exact (ih h).trans (Database.run_members hrun).1
    · cases h

namespace Connection

theorem working_of_effects {α : Type} (c : Connection) (s : Script α) :
    ∀ e ∈ c.effects s, e.before.working.isSome = c.working.isSome := by
  induction s generalizing c with
  | done | fail => exact fun e he => by cases he
  | look table next ih =>
    unfold effects
    split
    · exact ih _ c.succeeded
    · exact fun e he => by cases he
  | write w next ih =>
    unfold effects
    rcases write_cases c w with ⟨failure, d, hw, -⟩ | ⟨rows, d, hw, -, -, -, db, -, hk, -⟩
    · simp [hw]
    · simp only [hw, List.mem_cons]
      rintro e (rfl | he)
      · rfl
      · rw [ih rows d e he, hk, Option.isSome_map]
  | note n next ih => exact ih c

theorem writeAll_of_idle {α : Type} {c : Connection} (hw : c.working = none) (s : Script α) :
    c.committed.writeAll (writesOf (c.effects s)) = .ok (c.exec s).connection.committed := by
  induction s generalizing c with
  | done | fail => rfl
  | look table next ih =>
    unfold effects exec
    split
    · exact ih _ (c := c.succeeded) hw
    · rfl
  | write w next ih =>
    unfold effects exec
    rcases write_cases c w with
      ⟨failure, d, hwrite, -, hu, -⟩ | ⟨rows, d, hwrite, -, -, -, db, hrun, hk, hc⟩
    · simp only [hwrite]
      exact congrArg Except.ok hu.committed.symm
    · rw [hw] at hk hc
      rw [view_of_idle hw] at hrun
      obtain rfl : d.committed = db := hc
      simp only [hwrite, writesOf, List.map_cons, Database.writeAll, hrun]
      exact ih rows hk
  | note n next ih => exact ih hw

end Connection

namespace Stroke

variable {i number : Nat} {mine more : List Stroke}

theorem writes_append (mine more : List Stroke) :
    writes (mine ++ more) = writes mine ++ writes more :=
  List.map_append

theorem loose_append (mine more : List Stroke) : loose (mine ++ more) = loose mine ++ loose more :=
  List.filter_append ..

theorem ofStore_append (i : Nat) (mine more : List Stroke) :
    ofStore i (mine ++ more) = ofStore i mine ++ ofStore i more :=
  List.filter_append ..

def all (i number : Nat) (es : List Effect) : List Stroke := es.map (⟨i, number, ·⟩)

theorem writes_all (i number : Nat) (es : List Effect) :
    writes (all i number es) = writesOf es := by
  simp [writes, all, writesOf, Function.comp_def]

theorem ofStore_all (i number : Nat) (es : List Effect) :
    ofStore i (all i number es) = all i number es := by
  simp [ofStore, all]

theorem ofStore_all_of_ne {k : Nat} (h : i ≠ k) (number : Nat) (es : List Effect) :
    ofStore i (all k number es) = [] := by
  simp [ofStore, all, Ne.symm h]

theorem loose_all_of_idle {es : List Effect} (h : ∀ e ∈ es, e.before.working = none) :
    loose (all i number es) = all i number es := by
  simp only [loose, all, List.filter_eq_self, List.mem_map]
  rintro _ ⟨e, he, rfl⟩
  simp [h e he]

theorem loose_all_of_working {es : List Effect} (h : ∀ e ∈ es, e.before.working ≠ none) :
    loose (all i number es) = [] := by
  simp only [loose, all, List.filter_eq_nil_iff, List.mem_map]
  rintro _ ⟨e, he, rfl⟩
  simpa using h e he

end Stroke

/-! ## While a block is running -/

namespace World

open Stroke (writes loose ofStore all)

/-- What the open transaction of the store's connection is for a block that began on an opening: all
that was written in the block. Without one the store has been opened since, or its numbers are
used up. -/
def Ties (opening : Nat) (start : Database) (mine : List Stroke) (number : Nat) :
    Option Database → Prop
  | some db => number = opening ∧ loose mine = [] ∧ start.writeAll (writes mine) = .ok db
  | none => number = opening → Database.lastId ≤ start.lastMember + mine.length

/-- A block is running on a store. The file has the loose writes of the block and no others. -/
structure Under (w : World) (i : Nat) (place : Path) (opening : Nat) (start : Database)
    (mine : List Stroke) (db : Database) : Prop where
  store : ∃ s, w.stores[i]? = some s ∧ s.entered = true ∧ Path.ofText? s.path = some place ∧
    opening ≤ s.openings ∧ ∀ link, s.link = some link → link.home = .file place ∧
      Ties opening start mine s.openings link.working
  keeps : (Home.file place).keeps = true
  file : w.files.database place = .ok db
  version : start.version = schemaVersion
  reached : start.writeAll (writes (loose mine)) = .ok db
  late : ∀ t ∈ mine, t.opening ≠ opening → t.effect.before.working = none
  lost : ∀ t ∈ mine, t.opening = opening → t.effect.before.working = none →
    Database.lastId ≤ start.lastMember + mine.length

section
variable {w w' : World} {i on : Nat} {place : Path} {opening : Nat} {start db : Database}
  {mine : List Stroke}

theorem Under.spared (h : w.Under i place opening start mine db) (hs : w.Spares w' i place) :
    w'.Under i place opening start mine db where
  store := hs.store ▸ h.store
  keeps := h.keeps
  file := hs.file.trans h.file
  version := h.version
  reached := h.reached
  late := h.late
  lost := h.lost

theorem Under.current (h : w.Under i place opening start mine db) : db.version = schemaVersion :=
  (Database.writeAll_version h.reached).trans h.version

theorem Under.handle (h : w.Under i place opening start mine db) : w.home? i = none ∨
    ∃ number c, w.handle? i = some ⟨number, true, c⟩ ∧ w.home? i = some (.file place) ∧
      opening ≤ number ∧ c.committed = db ∧ Ties opening start mine number c.working := by
  obtain ⟨s, hs, he, -, ho, hlink⟩ := h.store
  cases hl : s.link with
  | none => exact .inl (by simp [home?, hs, hl])
  | some link =>
    obtain ⟨hhome, hties⟩ := hlink link hl
    have hd : w.database link.home = .ok db := by
      rw [hhome]
      exact h.file
    refine .inr ⟨s.openings, w.connection i link, ?_, by simp [home?, hs, hl, hhome], ho, ?_, hties⟩
    · exact handle?_eq_some.mpr ⟨s, link, db, hs, hl, hd, hhome ▸ h.keeps, by rw [he]⟩
    · simp [connection, hd, Except.toOption]

theorem Under.place? (h : w.Under i place opening start mine db) : w.place? i = some place := by
  obtain ⟨s, hs, -, hp, -⟩ := h.store
  simpa [World.place?, face?, hs] using hp

theorem length_all (i number : Nat) (es : List Effect) : (all i number es).length = es.length :=
  List.length_map ..

theorem Ties.goes {number : Nat} {c c' : Connection} {es : List Effect}
    (h : Ties opening start mine number c.working) (hg : c.Goes c' es)
    (hin : ∀ e ∈ es, e.before.working.isSome = c.working.isSome) :
    Ties opening start (mine ++ all i number es) number c'.working := by
  cases hw : c.working with
  | none =>
    rw [hw] at h
    have hw' : c'.working = none := by
      cases hw' : c'.working with
      | none => rfl
      | some db =>
        obtain ⟨-, old, hold, -⟩ := hg.whole db hw'
        rw [hw] at hold
        cases hold
    rw [hw']
    intro he
    have hfull := h he
    rw [List.length_append]
    omega
  | some old =>
    rw [hw] at h
    obtain ⟨he, hloose, hall⟩ := h
    have hheld : ∀ e ∈ es, e.before.working ≠ none := fun e hmem hn => by
      have := hin e hmem
      simp [hn, hw] at this
    cases hw' : c'.working with
    | none =>
      intro _
      have hmost := Database.writeAll_lastMember hall
      rw [show (writes mine).length = mine.length from List.length_map ..] at hmost
      rw [List.length_append, length_all]
      by_contra hroom
      exact hg.room old hw (by omega) hw'
    | some db =>
      obtain ⟨-, old', hold, hes⟩ := hg.whole db hw'
      obtain rfl : old = old' := Option.some.inj (hw.symm.trans hold)
      refine ⟨he, ?_, ?_⟩
      · rw [Stroke.loose_append, hloose, Stroke.loose_all_of_working hheld, List.nil_append]
      · rw [Stroke.writes_append, Stroke.writes_all, Database.writeAll_append hall, hes]

theorem under_of_handle {number : Nat} {c : Connection}
    (hh : w.handle? i = some ⟨number, true, c⟩) (hf : w.Filed i place) (hfrom : opening ≤ number)
    (hties : Ties opening start mine number c.working) (hv : start.version = schemaVersion)
    (hreached : start.writeAll (writes (loose mine)) = .ok c.committed)
    (hlate : ∀ t ∈ mine, t.opening ≠ opening → t.effect.before.working = none)
    (hlost : ∀ t ∈ mine, t.opening = opening → t.effect.before.working = none →
      Database.lastId ≤ start.lastMember + mine.length) :
    w.Under i place opening start mine c.committed := by
  obtain ⟨hfile, hkeeps⟩ := database_of_filed hf hh
  obtain ⟨s, link, db, hs, hl, hd, hk, he⟩ := handle?_eq_some.mp hh
  simp only [Handle.mk.injEq] at he
  obtain ⟨rfl, hentered, rfl⟩ := he
  refine ⟨⟨s, hs, hentered.symm, ?_, hfrom, fun link' hl' => ?_⟩, hkeeps, hfile, hv, hreached,
    hlate, hlost⟩
  · simpa [World.place?, face?, hs] using hf.named
  · cases hl.symm.trans hl'
    exact ⟨by simpa [home?, hs, hl] using hf.home, hties⟩

theorem Settled.filed (hset : w.Settled w') (hplace : w'.place? i = w.place? i)
    (hf : w.Filed i place) : w'.Filed i place := by
  refine ⟨hplace.trans hf.named, ?_⟩
  have hm := hset i
  rw [hf.home] at hm
  obtain ⟨a, ha, he⟩ := Option.map_eq_some_iff.mp hm
  rw [ha]
  cases a <;> simp_all [Home.mark]

theorem Under.went (h : w.Under i place opening start mine db) {number : Nat} {c c' : Connection}
    (hh : w.handle? i = some ⟨number, true, c⟩) (hh' : w'.handle? i = some ⟨number, true, c'⟩)
    (hset : w.Settled w') (hplace : w'.place? i = w.place? i) {es : List Effect}
    (hg : c.Goes c' es) (hin : ∀ e ∈ es, e.before.working.isSome = c.working.isSome)
    (hidle : c.working = none → c.committed.writeAll (writesOf es) = .ok c'.committed) :
    w'.Under i place opening start (mine ++ all i number es) c'.committed := by
  obtain ⟨_, _, hsame, hhome, hfrom, rfl, hties⟩ :=
    h.handle.resolve_left (home?_of_handle hh)
  cases hh.symm.trans hsame
  -- All of the writes were executed in the transaction, or all of them without one.
  have hidles : c.working = none → ∀ e ∈ es, e.before.working = none := fun hw e he => by
    simpa [hw] using hin e he
  have hholds : c.working ≠ none → ∀ e ∈ es, e.before.working ≠ none := fun hw e he hn =>
    hw (by simpa [hn] using (hin e he).symm)
  refine under_of_handle hh' (hset.filed hplace ⟨h.place?, hhome⟩) hfrom (hties.goes hg hin)
    h.version ?_ ?_ ?_
  · rw [Stroke.loose_append, Stroke.writes_append, Database.writeAll_append h.reached]
    by_cases hw : c.working = none
    · rw [Stroke.loose_all_of_idle (hidles hw), Stroke.writes_all]
      exact hidle hw
    · rw [Stroke.loose_all_of_working (hholds hw)]
      exact congrArg Except.ok (hg.committed fun e he hs => hholds hw e he hs.1).symm
  · intro t ht hne
    rcases List.mem_append.mp ht with ht | ht
    · exact h.late t ht hne
    · obtain ⟨e, he, rfl⟩ := List.mem_map.mp ht
      refine hidles ?_ e he
      cases hw : c.working with
      | none => rfl
      | some db =>
        rw [hw] at hties
        exact absurd hties.1 hne
  · intro t ht hat hn
    rw [List.length_append]
    rcases List.mem_append.mp ht with ht | ht
    · have := h.lost t ht hat hn
      omega
    · obtain ⟨e, he, rfl⟩ := List.mem_map.mp ht
      have hw : c.working = none := by
        by_contra hw
        exact hholds hw e he hn
      rw [hw] at hties
      have := hties hat
      omega

/-! ## What callers do inside the block -/

theorem stores_takeNotes {s : Store} (hs : w.stores[i]? = some s) (notes : List Note) :
    ∃ metrics, (w.takeNotes i notes).stores[i]? = some { s with metrics := metrics } := by
  unfold takeNotes
  induction notes generalizing w s with
  | nil => exact ⟨s.metrics, hs⟩
  | cons n notes ih =>
    cases n with
    | event e => exact ih (w := takeNote i w (.event e)) hs
    | count name =>
      have hat : (takeNote i w (.count name)).stores[i]? =
          some { s with metrics := s.metrics.add name 1 } := by
        simp only [takeNote, hs]
        rw [getElem?_setStore w i hs, if_pos rfl]
      obtain ⟨metrics, hm⟩ := ih hat
      exact ⟨metrics, hm⟩

theorem Under.noted (h : w.Under i place opening start mine db) (notes : List Note) :
    (w.takeNotes i notes).Under i place opening start mine db := by
  obtain ⟨s, hs, hstore⟩ := h.store
  obtain ⟨metrics, hs'⟩ := stores_takeNotes hs notes
  refine ⟨⟨_, hs', hstore⟩, h.keeps, ?_, h.version, h.reached, h.late, h.lost⟩
  rw [files_takeNotes]
  exact h.file

theorem Under.call (h : w.Under i place opening start mine db) (call : Call) :
    ∃ db', (w.call i call.operation).1.Under i place opening start
      (mine ++ ofStore i (w.strokes i call)) db' := by
  rcases h.handle with hn | ⟨number, c, hh, -⟩
  · obtain ⟨notes, hw⟩ := call_closed hn call.operation
    rw [hw, strokes, handle?_of_closed hn]
    exact ⟨db, by simpa [ofStore] using h.noted notes⟩
  · obtain ⟨-, hh'⟩ := handle_call hh call.operation
    have hg := Handle.goes_perform (h := ⟨number, true, c⟩) rfl call.operation
    have hstrokes : w.strokes i call =
        all i number (Handle.effects ⟨number, true, c⟩ call.operation) := by
      simp [strokes, hh, all]
    have hrun : (Handle.effects ⟨number, true, c⟩ call.operation = [] ∧
        (Handle.perform ⟨number, true, c⟩ call.operation).connection = c) ∨
        Handle.effects ⟨number, true, c⟩ call.operation = c.effects call.operation.body ∧
        (Handle.perform ⟨number, true, c⟩ call.operation).connection =
          (c.exec call.operation.body).connection := by
      unfold Handle.effects Handle.perform
      cases hr : call.operation.refusal with
      | some failure => exact .inl ⟨rfl, by simp [Connection.join, hr]⟩
      | none => exact .inr ⟨rfl, by simp [Connection.join_connection _ hr]⟩
    rw [hstrokes, Stroke.ofStore_all]
    refine ⟨_, h.went hh hh' (settled_call w i _) (place?_of_face (by rw [face?_call])) hg ?_ ?_⟩
    · rcases hrun with ⟨hes, -⟩ | ⟨hes, -⟩
      · simp [hes]
      · rw [hes]
        exact c.working_of_effects call.operation.body
    · intro hw
      rcases hrun with ⟨hes, hc⟩ | ⟨hes, hc⟩
      · rw [hes, hc]
        rfl
      · rw [hes, hc]
        exact Connection.writeAll_of_idle hw call.operation.body

theorem Under.refuse (h : w.Under i place opening start mine db) (refusals : List Refusal) :
    (w.refusing i refusals).Under i place opening start mine db := by
  obtain ⟨s, hs, hstore⟩ := h.store
  have hat : (w.refusing i refusals).stores[i]? =
      some { s with link := s.link.map fun link => { link with refusals := refusals } } := by
    simp only [refusing, hs]
    rw [getElem?_setStore w i hs, if_pos rfl]
  have hfiles : (w.refusing i refusals).files = w.files := by
    unfold refusing
    split <;> rfl
  obtain ⟨he, hp, ho, hlink⟩ := hstore
  refine ⟨⟨_, hat, he, hp, ho, fun link hl => ?_⟩, h.keeps, hfiles ▸ h.file, h.version, h.reached,
    h.late, h.lost⟩
  obtain ⟨old, hold, rfl⟩ := Option.map_eq_some_iff.mp hl
  exact hlink old hold

theorem Under.close (h : w.Under i place opening start mine db) :
    (w.closeStore i).Under i place opening start mine db := by
  obtain ⟨s, hs, he, hp, ho, hlink⟩ := h.store
  cases hopen : s.isOpen with
  | false =>
    have hsame : w.closeStore i = w := by simp [closeStore, hs, hopen]
    rwa [hsame]
  | true =>
    have hgone : w.closeStore i =
        ((w.setStore i { s with link := none }).report (.storeClosed s.path)).tidy := by
      simp [closeStore, hs, hopen]
    have hat := getElem?_setStore w i hs { s with link := none } i
    rw [if_pos rfl] at hat
    rw [hgone]
    exact ⟨⟨{ s with link := none }, hat, he, hp, ho, fun _ hl => by cases hl⟩, h.keeps, h.file,
      h.version, h.reached, h.late, h.lost⟩

theorem Under.reopen (h : w.Under i place opening start mine db) :
    (w.openStore i).1.Under i place opening start mine db := by
  rcases openStore_cases w i with ⟨hst, hfile⟩ | ⟨s, a, home, hr⟩
  · exact h.spared ⟨by rw [hst], hfile place⟩
  · obtain ⟨s', hs', he, hp, ho, -⟩ := h.store
    obtain rfl : s = s' := Option.some.inj (hr.found.symm.trans hs')
    refine ⟨⟨_, hr.store, he, hp, ?_, fun link hl => ?_⟩, h.keeps,
      hr.current place db h.file h.current, h.version, h.reached, h.late, h.lost⟩
    · exact Nat.le_succ_of_le ho
    · cases hl
      refine ⟨(hr.leads place).mpr hp, fun he => ?_⟩
      simp only [linked] at he
      omega

theorem Under.joined (h : w.Under i place opening start mine db) (body : World → Passage) :
    w.around i body = body w := by
  obtain ⟨s, hs, he, -⟩ := h.store
  have hent : w.enter i = (w, .ok .joined) := by simp [enter, hs, he]
  simp [around, hent, leave]

/-! ## Whole bodies -/

/-- Where something led while a block was running on a store, and what came of the block by then. -/
structure Runs (i : Nat) (place : Path) (opening : Nat) (start : Database) (mine : List Stroke)
    (w : World) (p : Passage) : Prop where
  under : ∃ db, p.world.Under i place opening start (mine ++ ofStore i p.strokes) db
  narrows : w.Narrows p.world place

theorem Runs.behind {strokes : List Stroke} {p : Passage} (hleads : w.Narrows w' place)
    (h : Runs i place opening start (mine ++ ofStore i strokes) w' p) :
    Runs i place opening start mine w (p.behind strokes) where
  under := by
    obtain ⟨db, hu⟩ := h.under
    refine ⟨db, ?_⟩
    rwa [List.append_assoc, ← Stroke.ofStore_append] at hu
  narrows := hleads.trans h.narrows

theorem Runs.after {p : Passage} (hleads : w.Narrows w' place)
    (h : Runs i place opening start mine w' p) : Runs i place opening start mine w p where
  under := h.under
  narrows := hleads.trans h.narrows

theorem ofStore_strokes (hne : i ≠ on) (call : Call) : ofStore i (w.strokes on call) = [] := by
  unfold strokes
  cases w.handle? on with
  | none => rfl
  | some d => exact Stroke.ofStore_all_of_ne hne d.opening _

theorem runs_around (h : w.Under i place opening start mine db)
    (hon : on = i ∨ i ≠ on ∧ ¬w.Leads place on) {body : World → Passage}
    (hbody : ∀ w₁ db₁, w₁.Under i place opening start mine db₁ →
      w.Narrows w₁ place → Runs i place opening start mine w₁ (body w₁)) :
    Runs i place opening start mine w (w.around on body) := by
  rcases hon with rfl | ⟨hne, hout⟩
  · rw [h.joined body]
    exact hbody w db h fun k => id
  · have hin := spares_enter hne hout
    have hleads := narrows_enter w on place
    unfold around
    generalize w.enter on = p at hin hleads
    obtain ⟨w₁, result⟩ := p
    simp only at hin hleads
    cases result with
    | error failure => exact ⟨⟨db, by simpa [ofStore] using h.spared hin⟩, hleads⟩
    | ok entry =>
      obtain ⟨⟨db', hu⟩, hl⟩ := hbody w₁ db (h.spared hin) hleads
      have hout' : ¬(body w₁).world.Leads place on := fun hb => hout (hleads on (hl on hb))
      exact ⟨⟨db', hu.spared (spares_leave hne hout' entry _)⟩,
        hleads.trans (Narrows.trans hl (narrows_leave _ on entry _ place))⟩

/-- The rest of a block names the store of the block and stores that lead elsewhere. -/
def Minds (w : World) (i : Nat) (place : Path) (conduct : Conduct) : Prop :=
  conduct.Within fun k => k = i ∨ i ≠ k ∧ ¬w.Leads place k

theorem Minds.later {conduct : Conduct} (h : w.Minds i place conduct)
    (hleads : w.Narrows w' place) : w'.Minds i place conduct :=
  h.mono fun k hk => hk.imp_right fun ho => ⟨ho.1, fun hk' => ho.2 (hleads k hk')⟩

theorem runs_pursue {conduct : Conduct} (h : w.Under i place opening start mine db)
    (hb : w.Minds i place conduct) : Runs i place opening start mine w (w.pursue conduct) := by
  -- What a step does on another store spares the file, since that store does not come to lead to it.
  induction conduct generalizing w mine db with
  | done => exact ⟨⟨db, by simpa [ofStore, pursue] using h⟩, fun k => id⟩
  | abort failure => exact ⟨⟨db, by simpa [ofStore, pursue] using h⟩, fun k => id⟩
  | call on call next ih =>
    have hl := narrows_call w on call.operation place
    obtain ⟨db', hu⟩ : ∃ db', (w.call on call.operation).1.Under i place opening start
        (mine ++ ofStore i (w.strokes on call)) db' := by
      rcases hb.1 with rfl | ⟨hne, hout⟩
      · exact h.call call
      · rw [ofStore_strokes hne call, List.append_nil]
        exact ⟨db, h.spared (spares_call hne hout _)⟩
    exact (ih _ hu (Minds.later (hb.2 _) hl)).behind hl
  | block on inner next ihInner ihNext =>
    have hr : Runs i place opening start mine w (w.around on fun w => w.pursue inner) :=
      runs_around h hb.1 fun w₁ db₁ h₁ hl => ihInner h₁ (Minds.later hb.2.1 hl)
    obtain ⟨db', hu⟩ := hr.under
    exact (ihNext _ hu (Minds.later (hb.2.2 _) hr.narrows)).behind hr.narrows
  | refuse on refusals next ih =>
    have hl := narrows_refusing w on refusals place
    have hu : (w.refusing on refusals).Under i place opening start mine db := by
      rcases hb.1 with rfl | ⟨hne, -⟩
      · exact h.refuse refusals
      · exact h.spared (spares_refusing hne refusals place)
    exact (ih hu (Minds.later hb.2 hl)).after hl
  | close on next ih =>
    have hl := narrows_closeStore w on place
    have hu : (w.closeStore on).Under i place opening start mine db := by
      rcases hb.1 with rfl | ⟨hne, -⟩
      · exact h.close
      · exact h.spared (spares_closeStore hne place)
    exact (ih hu (Minds.later hb.2 hl)).after hl
  | reopen on next ih =>
    have hl := narrows_openStore w on place
    have hu : (w.openStore on).1.Under i place opening start mine db := by
      rcases hb.1 with rfl | ⟨hne, hout⟩
      · exact h.reopen
      · exact h.spared (spares_openStore hne hout)
    exact (ih (w.openStore on).2 hu (Minds.later (hb.2 _) hl)).after hl

/-! ## The block as a whole -/

theorem place?_leave (entry : Entry) (outcome : Option Failure) :
    (w.leave i entry outcome).1.place? i = w.place? i := by
  refine place?_of_face ?_
  rw [face?_leave]
  cases entry <;> simp [Function.comp_def]

theorem leave_closed {s : Store} (hs : w.stores[i]? = some s) (hl : s.link = none)
    (opening : Nat) (outcome : Option Failure) :
    w.leave i (.outermost opening) outcome = (w.setEntered i false, some .disconnected) := by
  have hat := getElem?_setStore w i hs { s with entered := false } i
  rw [if_pos rfl] at hat
  simp only [leave, setEntered, hs, hat]
  simp only [hl]

theorem Under.ends (h : w.Under i place opening start mine db) (outcome : Option Failure) :
    ∃ final, (w.leave i (.outermost opening) outcome).1.files.database place = .ok final ∧
      ((w.leave i (.outermost opening) outcome).2 ≠ none ∧ final = db ∨
        (w.leave i (.outermost opening) outcome).2 = none ∧ loose mine = [] ∧
          start.writeAll (writes mine) = .ok final) := by
  rcases h.handle with hn | ⟨number, c, hh, hhome, -, rfl, hties⟩
  · obtain ⟨s, hs, -⟩ := h.store
    rw [leave_closed hs (link_of_closed hs hn)]
    refine ⟨db, ?_, .inl ⟨by simp, rfl⟩⟩
    simp only [setEntered, hs]
    exact h.file
  · obtain ⟨hout, hh'⟩ := handle_leave hh (.outermost opening) outcome
    have hfiled : (w.leave i (.outermost opening) outcome).1.Filed i place :=
      (settled_leave w i _ outcome).filed (place?_leave _ outcome) ⟨h.place?, hhome⟩
    refine ⟨_, (database_of_filed hfiled hh').1, ?_⟩
    rw [hout]
    unfold Handle.leave
    by_cases hnumber : number = opening
    · simp only [hnumber, ne_eq, not_true_eq_false, if_false]
      rcases c.settle_cases outcome with ⟨hnone, -, hw⟩ | ⟨⟨failure, hf⟩, hcom⟩
      · rw [hw] at hties
        exact .inr ⟨hnone, hties.2⟩
      · exact .inl ⟨by simp [hf], hcom⟩
    · simp [hnumber]

theorem under_begun {h : Handle} (hh : w.handle? i = some h) (hf : w.Filed i place)
    (hv : h.connection.committed.version = schemaVersion) {opening : Nat}
    (he : w.enter i = (w', .ok (.outermost opening))) :
    h.opening = opening ∧ w'.Under i place opening h.connection.committed []
      h.connection.committed := by
  obtain ⟨hr, hin⟩ := handle_enter hh
  have hset := settled_enter w i
  have hplace : w'.place? i = w.place? i := by
    refine place?_of_face ?_
    rw [face?_enter he]
    simp [Function.comp_def]
  rw [he] at hr hin hset
  unfold Handle.enter at hr hin
  split at hr
  · cases hr
  · rename_i hout
    simp only [hout, Bool.false_eq_true, if_false] at hr hin
    split at hr
    · rename_i c ho
      cases hr
      obtain ⟨hu, hw⟩ := Connection.unseen_open ho
      simp only [ho] at hin
      rw [← hu.committed] at hv hw ⊢
      exact ⟨rfl, under_of_handle hin (hset.filed hplace hf) (Nat.le_refl _)
        (hw ▸ ⟨rfl, rfl, rfl⟩) hv rfl (fun _ ht => by cases ht) fun _ ht => by cases ht⟩
    · cases hr

def Ended (place : Path) (opening : Nat) (start : Database) (p : Passage) (mine : List Stroke) :
    Prop :=
  ∃ final, p.world.files.database place = .ok final ∧
    (p.outcome ≠ none → start.writeAll (writes (loose mine)) = .ok final) ∧
    (p.outcome = none → loose mine = [] ∧ start.writeAll (writes mine) = .ok final) ∧
    (∀ t ∈ mine, t.opening ≠ opening → t.effect.before.working = none) ∧
    ∀ t ∈ mine, t.opening = opening → t.effect.before.working = none →
      Database.lastId ≤ start.lastMember + mine.length

theorem ended_refused (h : w'.files.database place = .ok start) {failure : Failure} :
    Ended place opening start ⟨w', some failure, []⟩ [] := by
  refine ⟨start, h, fun _ => rfl, fun hn => ?_, fun t ht => ?_, fun t ht => ?_⟩
  · cases hn
  · cases ht
  · cases ht

theorem Runs.ended {p : Passage} (h : Runs i place opening start [] w p) :
    Ended place opening start ⟨(p.world.leave i (.outermost opening) p.outcome).1,
      (p.world.leave i (.outermost opening) p.outcome).2, p.strokes⟩ (ofStore i p.strokes) := by
  obtain ⟨db, hu⟩ := h.under
  rw [List.nil_append] at hu
  obtain ⟨final, hfile, hend⟩ := hu.ends p.outcome
  refine ⟨final, hfile, fun hn => ?_, fun hn => ?_, hu.late, hu.lost⟩
  · rcases hend with ⟨-, rfl⟩ | ⟨hnone, -⟩
    · exact hu.reached
    · exact absurd hnone hn
  · rcases hend with ⟨hsome, -⟩ | ⟨-, hall⟩
    · exact absurd hn hsome
    · exact hall

theorem around_of_error {failure : Failure} (he : w.enter on = (w', .error failure))
    (body : World → Passage) : w.around on body = ⟨w', some failure, []⟩ := by
  simp only [around, he]

theorem around_of_ok {entry : Entry} (he : w.enter on = (w', .ok entry)) (body : World → Passage) :
    w.around on body = ⟨((body w').world.leave on entry (body w').outcome).1,
      ((body w').world.leave on entry (body w').outcome).2, (body w').strokes⟩ := by
  simp only [around, he]

theorem file_of_refused {h : Handle} (hh : w.handle? i = some h) (hout : h.entered = false)
    (hf : w.Filed i place) {failure : Failure} (he : w.enter i = (w', .error failure)) :
    w'.files.database place = .ok h.connection.committed := by
  obtain ⟨hr, hin⟩ := handle_enter hh
  have hset := settled_enter w i
  have hplace : w'.place? i = w.place? i := place?_of_face (by rw [face?_enter he])
  rw [he] at hr hin hset
  have hcom : h.enter.1.connection.committed = h.connection.committed := by
    unfold Handle.enter at hr ⊢
    simp only [hout, Bool.false_eq_true, if_false] at hr ⊢
    rcases h.connection.open?_cases with ⟨fault, c, ho, hu, -⟩ | ⟨c, ho, -⟩
    · simp only [ho]
      exact (Connection.rollback_unseen c).committed.trans hu.committed
    · simp only [ho] at hr
      cases hr
  rw [← hcom]
  exact (database_of_filed (hset.filed hplace hf) hin).1

theorem not_joined {h : Handle} (hh : w.handle? i = some h) (hout : h.entered = false) :
    w.enter i ≠ (w', .ok .joined) := fun he => by
  have hr := (handle_enter hh).1
  rw [he] at hr
  unfold Handle.enter at hr
  simp only [hout, Bool.false_eq_true, if_false] at hr
  split at hr <;> cases hr

/-- A block on a store that is open on a file, in which that store and others that lead elsewhere
may be called, closed and opened. If it ends with an error, the file has the loose writes of the
block and no others; if it ends well there are none of them and the file has all of its writes. On
the connection on which the block began no write is loose while there are numbers left for
memberships, and on any other connection every write is. -/
theorem block_keeps_loose {h : Handle} (hh : w.handle? i = some h) (hout : h.entered = false)
    (hf : w.Filed i place) (hv : h.connection.committed.version = schemaVersion)
    {conduct : Conduct} (hb : w.Minds i place conduct) :
    let p := w.around i fun w => w.pursue conduct
    let start := h.connection.committed
    let mine := ofStore i p.strokes
    ∃ final, p.world.files.database place = .ok final ∧
      (p.outcome ≠ none → start.writeAll (writes (loose mine)) = .ok final) ∧
      (p.outcome = none → loose mine = [] ∧ start.writeAll (writes mine) = .ok final) ∧
      (∀ t ∈ mine, t.opening ≠ h.opening → t ∈ loose mine) ∧
      (start.lastMember + mine.length < Database.lastId →
        ∀ t ∈ loose mine, t.opening ≠ h.opening) ∧
      (start.lastMember + mine.length < Database.lastId → (∀ t ∈ mine, t.opening = h.opening) →
        p.outcome ≠ none → final = start) := by
  intro p start mine
  obtain ⟨final, hfile, hfails, hgoes, hlate, hlost⟩ : Ended place h.opening start p mine := by
    rcases he : w.enter i with ⟨w', failure | entry⟩
    · have hp : p = ⟨w', some failure, []⟩ := around_of_error he _
      simp only [mine, hp]
      exact ended_refused (file_of_refused hh hout hf he)
    · cases entry with
      | joined => exact absurd he (not_joined hh hout)
      | outermost opening =>
        obtain ⟨rfl, hu⟩ := under_begun hh hf hv he
        have hleads := narrows_enter w i place
        rw [he] at hleads
        have hp := around_of_ok he fun w => w.pursue conduct
        simp only [p, mine, hp]
        exact (runs_pursue hu (Minds.later hb hleads)).ended
  -- On the connection of the BEGIN a write is loose only once the transaction was lost.
  have hroom : start.lastMember + mine.length < Database.lastId →
      ∀ t ∈ loose mine, t.opening ≠ h.opening := by
    intro hroom t ht hat
    obtain ⟨hmem, hidle⟩ := List.mem_filter.mp ht
    have := hlost t hmem hat (Option.isNone_iff_eq_none.mp hidle)
    omega
  refine ⟨final, hfile, hfails, hgoes, fun t ht hne => ?_, hroom, fun hlow hall hn => ?_⟩
  · exact List.mem_filter.mpr ⟨ht, Option.isNone_iff_eq_none.mpr (hlate t ht hne)⟩
  · have hnone : loose mine = [] := List.eq_nil_iff_forall_not_mem.mpr fun t ht =>
      hroom hlow t ht (hall t (List.mem_filter.mp ht).1)
    have hreached := hfails hn
    rw [hnone] at hreached
    exact (Except.ok.inj hreached).symm

end

def givesUp : Conduct := .call 0 register fun _ => .abort .aborted

/-- The connection of the block is the only one, and nothing is left of the registration. -/
theorem block_keeps_loose_given_up :
    let p := openedStore.around 0 fun w => w.pursue givesUp
    p.outcome ≠ none ∧ p.world.files.database [Text.toBytes "r.db"] = .ok .fresh := by
  intro p
  have hseen : (openedStore.handle? 0).map
      (fun h => (h.opening, h.entered, h.connection.committed)) = some (1, false, .fresh) := by
    decide +kernel
  obtain ⟨h, hh, heq⟩ := Option.map_eq_some_iff.mp hseen
  obtain ⟨ho, he, hc⟩ : h.opening = 1 ∧ h.entered = false ∧ h.connection.committed = .fresh := by
    simpa using heq
  have hf : openedStore.Filed 0 [Text.toBytes "r.db"] := ⟨by decide +kernel, rfl⟩
  have hb : openedStore.Minds 0 [Text.toBytes "r.db"] givesUp := ⟨.inl rfl, fun _ => trivial⟩
  have hmine : (ofStore 0 p.strokes).map (·.opening) = [1] := by decide +kernel
  have hends : p.outcome ≠ none := Option.isSome_iff_ne_none.mp (by decide +kernel)
  obtain ⟨final, hfile, -, -, -, -, hnone⟩ := block_keeps_loose hh he hf (hc ▸ rfl) hb
  have hlength : (ofStore 0 p.strokes).length = 1 := by
    rw [← List.length_map (fun t : Stroke => t.opening), hmine]
    rfl
  have hroom : h.connection.committed.lastMember + (ofStore 0 p.strokes).length <
      Database.lastId := by
    rw [hc, hlength]
    decide
  have hall : ∀ t ∈ ofStore 0 p.strokes, t.opening = h.opening := fun t ht => by
    have hmem : t.opening ∈ (ofStore 0 p.strokes).map (·.opening) := List.mem_map_of_mem ht
    rw [hmine] at hmem
    exact (List.mem_singleton.mp hmem).trans ho.symm
  exact ⟨hends, hc ▸ hnone hroom hall hends ▸ hfile⟩

/-- A registration after the store was closed and opened again inside its block. -/
def comesLate : Conduct := .close 0 (.reopen 0 fun _ => .call 0 register fun _ => .done)

/-- The block fails as its connection is gone, and the registration is in the file. -/
theorem reopened_block_keeps_topic :
    let p := openedStore.around 0 fun w => w.pursue comesLate
    p.outcome = some .disconnected ∧ ∃ db,
      p.world.files.database [Text.toBytes "r.db"] = .ok db ∧ (db.topic? "t").isSome := by
  intro p
  refine ⟨rfl, ?_⟩
  have hkept : (p.world.files.database [Text.toBytes "r.db"]).toOption.map
      (fun db => (db.topic? "t").isSome) = some true := by decide +kernel
  cases hd : p.world.files.database [Text.toBytes "r.db"] with
  | error fault => simp [hd, Except.toOption] at hkept
  | ok db => exact ⟨db, rfl, by simpa [hd, Except.toOption] using hkept⟩

end World

end PubSub
