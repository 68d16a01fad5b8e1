import PubSub.Proofs.Blocks
import PubSub.Proofs.Exhaustion
import PubSub.Proofs.NumbersGivenBack
import PubSub.Proofs.IdleStores

/-!
# Numbers over the life of a database

From a new database on, calls and blocks follow one another on the stores that are for it,
statements are refused, and stores on a file are closed and opened again. All that is
committed in that time is one history: no number of a membership is ever given out twice
(`numbers_never_return`). What fails gives its numbers back, except that a block whose
transaction was lost keeps those of the inserts after that (`failed_block_keeps_number`).
-/

namespace PubSub

/-! ## Errands -/

/-- What callers do with a store. -/
inductive Errand where
  | refuse (on : Nat) (refusals : List Refusal)
  | call (on : Nat) (call : Call)
  | block (on : Nat) (body : Body)
  | close (on : Nat)
  | reopen (on : Nat)

def Errand.on : Errand → Nat
  | .refuse on _ | .call on _ | .block on _ | .close on | .reopen on => on

def failureOf {α : Type} : Except Failure α → Option Failure
  | .ok _ => none
  | .error failure => some failure

def World.errand (w : World) : Errand → Trace
  | .refuse on refusals => .still (w.refusing on refusals) none
  | .call on call => { w.called on call with outcome := failureOf (w.call on call.operation).2 }
  | .block on body => w.block on fun w => w.follow body
  | .close on => .still (w.closeStore on) none
  | .reopen on => .still (w.openStore on).1 (failureOf (w.openStore on).2)

/-- An errand, and the world in which it began. -/
structure Episode where
  start : World
  errand : Errand

def Episode.trace (e : Episode) : Trace := e.start.errand e.errand

def World.episodes (w : World) : List Errand → List Episode
  | [] => []
  | errand :: errands => ⟨w, errand⟩ :: (w.errand errand).world.episodes errands

def Episode.Keeps (e : Episode) : Prop :=
  match e.errand with
  | .refuse on _ => e.trace.world.committed? on = e.start.committed? on
  | .call on call => ∀ before, e.start.committed? on = some before →
    ∃ after, e.trace.world.committed? on = some after ∧
      (e.trace.outcome ≠ none → after = before) ∧
      ∀ new, before.lastMember = Database.lastId → call.insert? before = some new →
        (Write.addMember new).storable = true →
        ∃ fault, e.trace.outcome = some (.store (.transaction fault))
  | .block on body => ∀ before, e.start.committed? on = some before → e.trace.outcome ≠ none →
    let writes := onStore on e.trace.executed
    ∃ after, e.trace.world.committed? on = some after ∧
      (before.lastMember + writes.length < Database.lastId → after = before) ∧
      ((body.Within fun k => k = on ∨ e.start.Apart k on) →
        after.lastMember = before.lastMember + spent writes ∧
          ((∀ e' ∈ writes, ¬e'.Strays) → after = before))
  | .close on => ∀ before, e.start.committed? on = some before →
    ∃ place, e.start.place? on = some place ∧ e.trace.world.files.database place = .ok before
  | .reopen on => e.start.committed? on = none → ∀ place before, e.start.place? on = some place →
    e.start.files.database place = .ok before → e.trace.outcome = none →
    e.trace.world.committed? on = some before

namespace World

/-! ## Episodes -/

section
variable {w : World} {G : List Nat} {on? : Option Path} {db : Database} {on : Nat}

theorem Stands.errand (hs : w.Stands G on? db) {errand : Errand} (hon : errand.on ∈ G)
    (hfile : ∀ on, errand = .close on → on?.isSome) :
    ∃ db', (w.errand errand).world.Stands G on? db' ∧
      db.Ascends (shownIn G (w.errand errand)) db' := by
  cases errand with
  | refuse on refusals =>
    have hs' := hs.refuse hon refusals
    exact ⟨db, hs', ascends_shownIn (.nil (.refl db)) hs'.kin⟩
  | call on call =>
    obtain ⟨db', hs', hl⟩ := hs.call hon call.operation
    exact ⟨db', hs', ascends_shownIn (.nil hl) hs'.kin⟩
  | block on body => exact hs.block hon body
  | close on =>
    have hs' := hs.close hon (hfile on rfl)
    exact ⟨db, hs', ascends_shownIn (.nil (.refl db)) hs'.kin⟩
  | reopen on =>
    have hs' := hs.reopen hon
    exact ⟨db, hs', ascends_shownIn (.nil (.refl db)) hs'.kin⟩

theorem keeps_call {h : Handle} (hh : w.handle? on = some h) (he : h.entered = false)
    (ho : h.connection.Orderly) (call : Call) : Episode.Keeps ⟨w, .call on call⟩ := by
  intro before hbefore
  obtain rfl : h.connection.committed = before :=
    Option.some.inj ((committed?_of_handle hh).symm.trans hbefore)
  obtain ⟨hr, hafter⟩ := handle_call hh call.operation
  simp only [Handle.perform, he, Bool.false_eq_true, if_false] at hr hafter
  refine ⟨_, committed?_of_handle hafter, fun hf => ?_, fun new hfull hnew hst => ?_⟩
  · rcases h.connection.transact_call call with ⟨_, -, hc⟩ | ⟨reply, hok, -⟩
    · exact hc
    · exact absurd (congrArg failureOf (hr.trans hok)) hf
  · obtain ⟨-, fault, hfail⟩ :=
      h.connection.transact_full ho.committed.wellFormed (Nat.le_of_eq hfull.symm) hnew hst
    exact ⟨fault, congrArg failureOf (hr.trans hfail)⟩

theorem keeps_block (hk : w.Kin G db) (hon : on ∈ G) {h : Handle} (hh : w.handle? on = some h)
    (he : h.entered = false) (body : Body) : Episode.Keeps ⟨w, .block on body⟩ := by
  intro before hbefore hf
  obtain ⟨opening, entered, c⟩ := h
  obtain rfl : entered = false := he
  obtain rfl : c.committed = before :=
    Option.some.inj ((committed?_of_handle hh).symm.trans hbefore)
  obtain rfl : c.committed = db := (hk.eq_of_handle hon hh).1
  have hset : w.Settled (w.block on fun w => w.follow body).world :=
    settled_block fun w₁ => settled_follow w₁ body
  obtain ⟨_, -, hk'⟩ := hk.block on fun w₁ d hk₁ => hk₁.follow body
  obtain ⟨h', hh', -⟩ := hk'.handle on hon fun hn =>
    home?_of_handle hh ((hset.home?_none on).mp hn)
  refine ⟨h'.connection.committed, committed?_of_handle hh', fun hroom => ?_,
    fun hb => ⟨?_, fun hs => ?_⟩⟩
  · exact Option.some.inj ((committed?_of_handle hh').symm.trans (hk.kept_block hon hh hf hroom))
  · obtain ⟨after, hafter, hspent⟩ := spent_block hb hh hf
    obtain rfl := Option.some.inj ((committed?_of_handle hh').symm.trans hafter)
    exact hspent
  · have ht : Concluded on c.committed (w.block on fun w => w.follow body) :=
      concluded_block hh fun w₁ d hw₁ hd =>
        held_follow hd (hb.mono fun k hk => hk.imp_right hw₁.apart)
    obtain ⟨after, hafter, -, hkept⟩ := ht.final
    obtain rfl := Option.some.inj ((committed?_of_handle hh').symm.trans hafter)
    exact hkept hs hf

theorem Stands.keeps_refuse (hs : w.Stands G on? db) (hon : on ∈ G) (refusals : List Refusal) :
    Episode.Keeps ⟨w, .refuse on refusals⟩ := by
  change (w.refusing on refusals).committed? on = w.committed? on
  cases hh : w.handle? on with
  | none =>
    have hn : w.home? on = none := by
      by_contra hopen
      obtain ⟨h, hh', -⟩ := hs.handle hon hopen
      cases hh.symm.trans hh'
    have hn' := ((settled_refusing w on refusals).home?_none on).mpr hn
    rw [committed?, committed?, handle?_of_closed hn, handle?_of_closed hn']
  | some h => rw [committed?_of_handle hh, committed?_of_handle (handle_refusing hh refusals)]

theorem Stands.keeps_close (hs : w.Stands G on? db) (hon : on ∈ G) (hfile : on?.isSome) :
    Episode.Keeps ⟨w, .close on⟩ := by
  intro before hbefore
  obtain ⟨place, rfl⟩ := Option.isSome_iff_exists.mp hfile
  obtain ⟨h, hh, rfl⟩ := Option.map_eq_some_iff.mp hbefore
  rw [(hs.kin.eq_of_handle hon hh).1]
  exact ⟨place, (hs.filed place rfl).named on hon,
    files_database ((hs.close hon rfl).filed place rfl).file⟩

theorem Stands.keeps_reopen (hs : w.Stands G on? db) (hon : on ∈ G) :
    Episode.Keeps ⟨w, .reopen on⟩ := by
  intro hclosed place before hplace hbefore hok
  have hopen : w.home? on = none := by
    by_contra hopen
    obtain ⟨h, hh, -⟩ := hs.handle hon hopen
    cases hclosed.symm.trans (committed?_of_handle hh)
  obtain ⟨place', rfl⟩ := Option.ne_none_iff_exists'.mp fun hn => hs.opened hn on hon hopen
  have hf := hs.filed place' rfl
  obtain rfl : place' = place := Option.some.inj ((hf.named on hon).symm.trans hplace)
  obtain rfl : db = before := Except.ok.inj ((files_database hf.file).symm.trans hbefore)
  have ho := openStore_opened hplace hopen hf.file hs.kin.numbered.version hf.keeps
  cases hr : (w.openStore on).2 with
  | error failure =>
    have hbad : failureOf (w.openStore on).2 = none := hok
    rw [hr] at hbad
    cases hbad
  | ok value =>
    rw [hr] at ho
    obtain ⟨-, h, hh, rfl, -⟩ := handle_of_opened ho hf.keeps
    exact committed?_of_handle hh

theorem Stands.keeps (hs : w.Stands G on? db) {errand : Errand} (hon : errand.on ∈ G)
    (hfile : ∀ on, errand = .close on → on?.isSome) : Episode.Keeps ⟨w, errand⟩ := by
  have hopened : ∀ {on before}, w.committed? on = some before → w.home? on ≠ none := by
    intro on before hc
    obtain ⟨h, hh, -⟩ := Option.map_eq_some_iff.mp hc
    exact home?_of_handle hh
  cases errand with
  | refuse on refusals => exact hs.keeps_refuse hon refusals
  | call on call =>
    intro before hbefore
    obtain ⟨h, hh, he, -, ho⟩ := hs.handle hon (hopened hbefore)
    exact keeps_call hh he ho call before hbefore
  | block on body =>
    intro before hbefore
    obtain ⟨h, hh, he, -⟩ := hs.handle hon (hopened hbefore)
    exact keeps_block hs.kin hon hh he body before hbefore
  | close on => exact hs.keeps_close hon (hfile on rfl)
  | reopen on => exact hs.keeps_reopen hon

/-- What is committed in a run is one history. -/
theorem Stands.episodes (hs : w.Stands G on? db) {errands : List Errand}
    (hon : ∀ e ∈ errands, e.on ∈ G) (hfile : ∀ on, .close on ∈ errands → on?.isSome) :
    (∃ db', db.Ascends ((w.episodes errands).flatMap fun e => shownIn G e.trace) db') ∧
      ∀ e ∈ w.episodes errands, e.Keeps := by
  induction errands generalizing w db with
  | nil => exact ⟨⟨db, .nil (.refl db)⟩, fun e he => by cases he⟩
  | cons errand errands ih =>
    have hon₀ := hon errand List.mem_cons_self
    have hfile₀ : ∀ on, errand = .close on → on?.isSome := by
      rintro on rfl
      exact hfile on List.mem_cons_self
    obtain ⟨db₁, hs₁, hasc⟩ := hs.errand hon₀ hfile₀
    obtain ⟨⟨db', hasc'⟩, hkeeps⟩ := ih hs₁ (fun e he => hon e (List.mem_cons_of_mem _ he))
      fun on he => hfile on (List.mem_cons_of_mem _ he)
    refine ⟨⟨db', hasc.append hasc'⟩, fun e he => ?_⟩
    rcases List.mem_cons.mp he with rfl | he
    · exact hs.keeps hon₀ hfile₀
    · exact hkeeps e he

end

/-! ## Runs -/

section
variable {w : World} {G : List Nat} (hsecluded : w.Secluded (· ∈ G))
  (hmeets : ∀ j ∈ G, ∀ k ∈ G, ¬w.Apart j k)
  (hnew : ∀ k ∈ G, ∃ h, w.handle? k = some h ∧ h.entered = false ∧
    h.connection.committed = .fresh ∧ h.connection.working = none)

include hsecluded hmeets hnew

theorem stands_new {on? : Option Path}
    (hfile : ∀ place, on? = some place → G ≠ [] ∧ ∀ k ∈ G, w.Filed k place) :
    w.Stands G on? .fresh where
  kin := by
    refine ⟨Database.numbered_fresh, fun k hk _ => ?_, fun j hj k hk _ _ => hmeets j hj k hk,
      hsecluded, fun j hj k _ _ h _ hh _ hw _ => ?_⟩
    · obtain ⟨h, hh, -, hc, hw⟩ := hnew k hk
      exact ⟨h, hh, hc, Connection.orderly_of_idle (hc ▸ Database.numbered_fresh) hw⟩
    · obtain ⟨h', hh', -, -, hw'⟩ := hnew j hj
      obtain rfl : h = h' := Option.some.inj (hh.symm.trans hh')
      exact absurd hw' hw
  idle k hk := by
    obtain ⟨h, hh, he, -⟩ := hnew k hk
    obtain ⟨s, link, db, hs, -, -, -, rfl⟩ := handle?_eq_some.mp hh
    have he' : s.entered = false := he
    exact ⟨s.path, by simp [face?, hs, he']⟩
  opened _ k hk := by
    obtain ⟨h, hh, -⟩ := hnew k hk
    exact home?_of_handle hh
  filed place hp := by
    obtain ⟨hne, hfiled⟩ := hfile place hp
    obtain ⟨i, hi⟩ := List.exists_mem_of_ne_nil G hne
    obtain ⟨h, hh, -, hc, -⟩ := hnew i hi
    obtain ⟨hd, hkeeps⟩ := database_of_filed (hfiled i hi) hh
    rw [hc] at hd
    refine ⟨fun k hk => (hfiled k hk).named, fun k hk a ha => ?_, fun k hk a ha => ?_,
      Files.node?_of_database hd (blank_of_numbered Database.numbered_fresh), hkeeps⟩
    · exact Option.some.inj (ha.symm.trans (hfiled k hk).home)
    · exact (hsecluded k i hk hi).2 a ha _ (hfiled i hi).home

theorem numbers_never_return {errands : List Errand} (hon : ∀ e ∈ errands, e.on ∈ G)
    (hfile : (∃ on, .close on ∈ errands) → ∃ place, ∀ k ∈ G, w.Filed k place) :
    let run := w.episodes errands
    let states := run.flatMap fun e => shownIn G e.trace
    let inserted := Database.insertions .fresh states
    (∀ db ∈ states, (db.members.map (·.id)).Pairwise (· < ·) ∧
        ∀ row ∈ db.members, 0 < row.id ∧ row.id ≤ Database.lastId ∧ row ∈ inserted) ∧
      (inserted.map (·.id)).Pairwise (· < ·) ∧ ∀ e ∈ run, e.Keeps := by
  intro run states inserted
  obtain ⟨on?, hs, hclose⟩ : ∃ on?, w.Stands G on? .fresh ∧
      ∀ on, .close on ∈ errands → on?.isSome := by
    by_cases hc : ∃ on, .close on ∈ errands
    · obtain ⟨place, hfiled⟩ := hfile hc
      obtain ⟨on, hmem⟩ := hc
      refine ⟨some place, stands_new hsecluded hmeets hnew fun place' hp => ?_, fun _ _ => rfl⟩
      cases hp
      exact ⟨List.ne_nil_of_mem (hon _ hmem), hfiled⟩
    · refine ⟨none, stands_new hsecluded hmeets hnew fun place hp => (by cases hp),
        fun on hmem => ?_⟩
      exact absurd ⟨on, hmem⟩ hc
  obtain ⟨⟨db', hasc⟩, hkeeps⟩ := hs.episodes hon hclose
  refine ⟨fun db hdb => ?_, (Database.insertions_ascending hasc).2, hkeeps⟩
  have hn := hasc.numbered db hdb
  refine ⟨hn.ascending, fun row hrow => ?_⟩
  obtain ⟨hpos, hle⟩ := hn.within row hrow
  have hroom := hn.room
  exact ⟨hpos, by omega, Database.mem_insertions (fun hm => by cases hm) hdb hrow⟩

end

/-- Two stores that are open on one file. -/
def shared : World :=
  let w := (World.empty.addStore (Text.points "r.db")).1
  let w := (w.addStore (Text.points "r.db")).1
  ((w.openStore 0).1.openStore 1).1

def subscribing (subscriber : String) : Call := .addSubscriber "t" subscriber .empty (some 0) none

/-- A removal, a store that is opened again, a duplicate, a block that is aborted and a commit that
is refused. -/
def visits : List Errand :=
  [.call 0 (subscribing "a"), .call 1 (subscribing "b"), .call 0 (.removeSubscriber "t" "b"),
    .close 0, .reopen 0, .call 0 (subscribing "a"),
    .block 1 (.call 1 (subscribing "b") fun _ => .abort .aborted),
    .refuse 1 [⟨.commit, 0, 1⟩], .call 1 (subscribing "b"), .call 1 (subscribing "b")]

theorem numbers_never_return_twoStores :
    let run := shared.episodes visits
    let inserted := Database.insertions .fresh (run.flatMap fun e => shownIn [0, 1] e.trace)
    inserted.map (·.id) = [1, 2, 4] ∧ (inserted.map (·.id)).Pairwise (· < ·) ∧
      ∀ e ∈ run, e.Keeps := by
  intro run inserted
  have hplace : (shared.place? 0).isSome = true := by decide +kernel
  obtain ⟨place, hplace⟩ := Option.isSome_iff_exists.mp hplace
  have hfiled : ∀ k ∈ [0, 1], shared.Filed k place := by
    have hnamed : ∀ k ∈ [0, 1], shared.place? k = shared.place? 0 := by decide +kernel
    have hmeets : ∀ k ∈ [0, 1], (shared.home? k).any (fun home =>
        (shared.place? 0).any fun place => home.meets (.file place)) = true := by decide +kernel
    intro k hk
    refine ⟨(hnamed k hk).trans hplace, ?_⟩
    obtain ⟨home, hhome, hm⟩ := (Option.any_eq_true _ _).mp (hmeets k hk)
    rw [hplace, Option.any_some] at hm
    rw [hhome, Home.eq_of_meets hm]
  have hnew : ∀ k ∈ [0, 1], ∃ h, shared.handle? k = some h ∧ h.entered = false ∧
      h.connection.committed = .fresh ∧ h.connection.working = none := by
    have hhandle : ∀ k ∈ [0, 1], (shared.handle? k).map (fun h =>
        (h.entered, h.connection.committed, h.connection.working)) = some (false, .fresh, none) := by
      decide +kernel
    intro k hk
    obtain ⟨h, hh, he⟩ := Option.map_eq_some_iff.mp (hhandle k hk)
    simp only [Prod.mk.injEq] at he
    exact ⟨h, hh, he⟩
  have hsecluded : shared.Secluded (· ∈ [0, 1]) := by
    intro j k hj hk
    have hnone : shared.home? j = none := by
      have hlen : shared.stores.length = 2 := by decide +kernel
      have hout : shared.stores[j]? = none := List.getElem?_eq_none (by simp at hj; omega)
      simp [home?, hout]
    exact apart_of_closed hnone fun he => hj (he ▸ hk)
  have hmeets : ∀ j ∈ [0, 1], ∀ k ∈ [0, 1], ¬shared.Apart j k := by
    intro j hj k hk ha
    have := ha.2 _ (hfiled j hj).home _ (hfiled k hk).home
    simp [Home.meets] at this
  have hon : ∀ e ∈ visits, e.on ∈ [0, 1] := by decide
  obtain ⟨-, hasc, hkeeps⟩ :=
    numbers_never_return hsecluded hmeets hnew hon fun _ => ⟨place, hfiled⟩
  exact ⟨by decide +kernel, hasc, hkeeps⟩

/-! ## Numbers that are kept -/

def worn (n : Nat) : Database :=
  { Database.fresh with members := [⟨1, "t", "a", "[]", 0, none⟩], lastMember := n }

def resting (db : Database) (working : Option Database) : Connection :=
  ⟨db, none, false, true, working, [], none, false⟩

theorem run_worn {n : Nat} (h : n < Database.lastId) :
    (Write.addMember ⟨"t", "a", "[]", some 0, none⟩).run (worn n) = .ok (0, worn (n + 1)) := by
  simp [Write.run, Database.addMember, worn, Nat.not_le.mpr h, Database.member?]

theorem write_worn {n : Nat} (h : n < Database.lastId) :
    (resting (worn n) (some (worn n))).write (.addMember ⟨"t", "a", "[]", some 0, none⟩) =
      (.ok 0, resting (worn n) (some (worn (n + 1)))) := by
  have hhas : (worn n).has .subscribers = true := rfl
  have hst : (Write.addMember ⟨"t", "a", "[]", some 0, none⟩).storable = true := rfl
  simp [Connection.write, resting, Connection.ask, Connection.view, Write.table, hhas,
    Connection.preparing, Write.setsNotification, hst, Connection.obstacle?, run_worn h,
    Connection.succeeded, Connection.store]

theorem transact_worn {n : Nat} (h : n < Database.lastId) :
    ((resting (worn n) none).transact (subscribing "a").operation).connection =
      resting (worn (n + 1)) none := by
  have hr : (subscribing "a").operation.refusal = none := rfl
  have ho : (resting (worn n) none).open? = (none, resting (worn n) (some (worn n))) := rfl
  obtain ⟨next, last, hb, hnext⟩ : ∃ next last, (subscribing "a").operation.body =
      .write (.addMember ⟨"t", "a", "[]", some 0, none⟩) next ∧ next 0 = .done last :=
    ⟨_, _, rfl, rfl⟩
  have hx : (resting (worn n) (some (worn n))).exec (subscribing "a").operation.body =
      ⟨resting (worn n) (some (worn (n + 1))), [], .ok last⟩ := by
    rw [hb, Connection.exec, write_worn h]
    simp only [hnext]
    rfl
  unfold Connection.transact
  simp only [hr, ho, hx]
  rfl

/-- The numbers of a database are used up by inserts that come to nothing. -/
theorem episodes_worn {w : World} {n : Nat}
    (hh : w.handle? 0 = some ⟨1, false, resting (worn n) none⟩)
    {times : Nat} (ht : n + times ≤ Database.lastId) (errands : List Errand) :
    ∃ w' : World, w'.handle? 0 = some ⟨1, false, resting (worn (n + times)) none⟩ ∧
      ∀ e ∈ w'.episodes errands,
        e ∈ w.episodes (List.replicate times (.call 0 (subscribing "a")) ++ errands) := by
  induction times generalizing w n with
  | zero => exact ⟨w, hh, fun e he => he⟩
  | succ times ih =>
    obtain ⟨-, hafter⟩ := handle_call hh (subscribing "a").operation
    simp only [Handle.perform, Bool.false_eq_true, if_false, transact_worn (show n < _ by omega)]
      at hafter
    obtain ⟨w', hh', hmem⟩ := ih hafter (by omega)
    refine ⟨w', by rw [hh', Nat.add_right_comm, Nat.add_assoc], fun e he => ?_⟩
    exact List.mem_cons_of_mem _ (hmem e he)

/-- Goes on after a membership that finds no number left, and adds another one. -/
def reckless : Body :=
  .call 0 (subscribing "b") fun _ =>
    .call 0 (subscribing "c") fun _ => .call 0 (subscribing "d") fun _ => .done

/-- Where only one number is left, the block fails and takes it. -/
theorem failed_block_keeps_number :
    ∃ e ∈ (lone .fresh []).episodes
        (List.replicate (Database.lastId - 1) (.call 0 (subscribing "a")) ++ [.block 0 reckless]),
      e.errand = .block 0 reckless ∧ e.trace.outcome ≠ none ∧
        ∃ before after, e.start.committed? 0 = some before ∧
          e.trace.world.committed? 0 = some after ∧ before.lastMember < after.lastMember := by
  have hfirst : ((lone .fresh []).call 0 (subscribing "a").operation).1.handle? 0 =
      some ⟨1, false, resting (worn 1) none⟩ := rfl
  have hsucc : Database.lastId - 1 = Database.lastId - 2 + 1 := by decide
  obtain ⟨w, hh, hmem⟩ := episodes_worn hfirst
    (show 1 + (Database.lastId - 2) ≤ Database.lastId by decide) [.block 0 reckless]
  rw [Nat.add_comm, ← hsucc] at hh
  -- The block goes as it does in a world with no past.
  let t := (lone (worn (Database.lastId - 1)) []).block 0 fun w => w.follow reckless
  have hfails : t.outcome.isSome = true := by decide +kernel
  have htaken : (t.world.committed? 0).map (·.lastMember) = some Database.lastId := by decide +kernel
  obtain ⟨hout, h, hend, hend'⟩ : GoesBy 0 t (w.block 0 fun w => w.follow reckless) :=
    block_goesBy (lone_handle _ []) hh fun w₁ w₁' h₁ hh₁ hh₁' =>
      follow_goesBy ⟨rfl, fun _ => ⟨rfl, fun _ => ⟨rfl, fun _ => trivial⟩⟩⟩ hh₁ hh₁'
  rw [committed?_of_handle hend, Option.map_some, Option.some.injEq] at htaken
  rw [hsucc, List.replicate_succ]
  refine ⟨⟨w, .block 0 reckless⟩, List.mem_cons_of_mem _ (hmem _ List.mem_cons_self), rfl, ?_, _, _,
    committed?_of_handle hh, committed?_of_handle hend', ?_⟩
  · exact hout ▸ Option.isSome_iff_ne_none.mp hfails
  · rw [htaken]
    decide

end World

end PubSub
