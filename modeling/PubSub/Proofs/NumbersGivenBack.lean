import PubSub.Proofs.SharedNumbers

/-!
# Numbers that are given back

A block that fails gives back the numbers that its inserts have used up. Whatever its body
does on whatever stores, the database is as it was, as long as the transaction is not lost
on the way (`Kin.kept_block`). A database that has no number left takes the transaction
away, and then the inserts after that use numbers up for good (`spent_block`).
-/

namespace PubSub

/-! ## Transactions that are held -/

/-- A connection with a transaction has gone on by some writes, while others worked on its database.
As long as the transaction is not lost nothing has been committed. -/
structure Guard (c c' : Connection) (es : List Effect) : Prop where
  kept : c'.working ≠ none → c'.committed = c.committed
  whole : ∀ db', c'.working = some db' →
    ∃ db, c.working = some db ∧ db'.lastMember ≤ db.lastMember + es.length
  room : ∀ db, c.working = some db → db.lastMember + es.length < Database.lastId → c'.working ≠ none

section
variable {c c' c'' : Connection} {es es' : List Effect}

theorem Guard.of_goes (hg : c.Goes c' es) : Guard c c' es where
  kept hw := by
    obtain ⟨db', hdb'⟩ := Option.ne_none_iff_exists'.mp hw
    exact hg.committed (hg.whole db' hdb').1
  whole db' hdb' := by
    obtain ⟨-, db, hdb, hall⟩ := hg.whole db' hdb'
    have hle := Database.writeAll_lastMember hall
    rw [writesOf, List.length_map] at hle
    exact ⟨db, hdb, hle⟩
  room := hg.room

theorem Guard.of_same (hw : c'.working = c.working)
    (hc : c.working ≠ none → c'.committed = c.committed) : Guard c c' [] where
  kept hn := hc (hw ▸ hn)
  whole db' hdb' := ⟨db', hw ▸ hdb', Nat.le_refl _⟩
  room db hdb _ := by rw [hw, hdb]; simp

theorem Guard.trans (hg : Guard c c' es) (hg' : Guard c' c'' es') : Guard c c'' (es ++ es') where
  kept hw := by
    obtain ⟨db'', hdb''⟩ := Option.ne_none_iff_exists'.mp hw
    obtain ⟨db', hdb', -⟩ := hg'.whole db'' hdb''
    exact (hg'.kept hw).trans (hg.kept (by simp [hdb']))
  whole db'' hdb'' := by
    obtain ⟨db', hdb', hle'⟩ := hg'.whole db'' hdb''
    obtain ⟨db, hdb, hle⟩ := hg.whole db' hdb'
    refine ⟨db, hdb, ?_⟩
    rw [List.length_append]
    omega
  room db hdb hr := by
    rw [List.length_append] at hr
    obtain ⟨db', hdb'⟩ := Option.ne_none_iff_exists'.mp (hg.room db hdb (by omega))
    obtain ⟨db₀, hdb₀, hle⟩ := hg.whole db' hdb'
    obtain rfl : db = db₀ := Option.some.inj (hdb.symm.trans hdb₀)
    exact hg'.room db' hdb' (by omega)

end

namespace World

/-- What a trace comes to for a store inside a block, whatever other stores do on its database. -/
def Guarded (on opening : Nat) (c : Connection) (t : Trace) : Prop :=
  ∃ c', t.world.handle? on = some ⟨opening, true, c'⟩ ∧ Guard c c' (onStore on t.executed)

section
variable {w w' : World} {G : List Nat} {db : Database} {j on opening : Nat} {c : Connection}

theorem guarded_still (hh : w.handle? on = some ⟨opening, true, c⟩) (outcome : Option Failure) :
    Guarded on opening c (.still w outcome) :=
  ⟨c, hh, .of_same rfl fun _ => rfl⟩

theorem Guarded.followedBy {t t' : Trace} (h : Guarded on opening c t)
    (h' : ∀ c', t.world.handle? on = some ⟨opening, true, c'⟩ → Guarded on opening c' t') :
    Guarded on opening c (t.followedBy t') := by
  obtain ⟨c', hc', hg⟩ := h
  obtain ⟨c'', hc'', hg'⟩ := h' c' hc'
  have hes : onStore on (t.followedBy t').executed =
      onStore on t.executed ++ onStore on t'.executed :=
    onStores_append _ _ _
  exact ⟨c'', hc'', hes ▸ hg.trans hg'⟩

theorem Kin.beside (hk : w.Kin G db) (hset : w.Settled w')
    (hgo : ∀ h, w.handle? j = some h →
      ∃ h', w'.handle? j = some h' ∧ h.connection.Onward h'.connection)
    (ht : Touched w w' j on) (hin : on ∈ G) (hne : on ≠ j)
    (hh : w.handle? on = some ⟨opening, true, c⟩) :
    ∃ c', w'.handle? on = some ⟨opening, true, c'⟩ ∧ Guard c c' [] := by
  by_cases ha : w.Apart j on
  · exact ⟨c, (ht.of_apart ha).trans hh, .of_same rfl fun _ => rfl⟩
  · have hj : j ∈ G := by
      by_contra hj
      exact ha (hk.secluded j on hj hin)
    have hopen : w.home? j ≠ none := fun hn => ha (apart_of_closed hn hne.symm)
    obtain ⟨h, hh₀, hc, ho⟩ := hk.handle j hj hopen
    obtain ⟨h', hh', hgo⟩ := hgo h hh₀
    obtain ⟨⟨opening', entered', c'⟩, hd', halike⟩ := ht.alike hne hh
    obtain rfl : opening' = opening := halike.opening
    obtain rfl : entered' = true := halike.entered
    refine ⟨c', hd', .of_same halike.working fun hw => ?_⟩
    have hmeets := hk.meets_settled hset j hj on hin (home?_of_handle hh') (home?_of_handle hd')
    have hstay := hgo.stalled ho (hk.stalled hj hin hne hh₀ hh hw)
    have hsame : h'.connection.committed = c'.committed := committed_eq_of_meets hmeets hh' hd'
    rw [← hsame, hstay, hc, ← (hk.eq_of_handle hin hh).1]

theorem Kin.guarded_called (hk : w.Kin G db) (hin : on ∈ G)
    (hh : w.handle? on = some ⟨opening, true, c⟩) (j : Nat) (call : Call) :
    Guarded on opening c (w.called j call) := by
  by_cases hne : on = j
  · subst hne
    refine ⟨_, (handle_call hh call.operation).2, ?_⟩
    have hg := Handle.goes_perform (h := ⟨opening, true, c⟩) rfl call.operation
    simpa [called, onStore, onStores_tagged, hh] using Guard.of_goes hg
  · obtain ⟨c', hc', hg⟩ := hk.beside (settled_call w j call.operation)
      (fun h hh => ⟨_, (handle_call hh _).2, h.onward_perform _⟩) (touched_call _) hin hne hh
    refine ⟨c', hc', ?_⟩
    simpa [called, onStore, onStores_tagged, beq_false_of_ne (Ne.symm hne)] using hg

theorem Kin.guarded_block (hk : w.Kin G db) (hin : on ∈ G)
    (hh : w.handle? on = some ⟨opening, true, c⟩) (j : Nat) {body : World → Trace}
    (hkin : ∀ w₁ d, w₁.Kin G d → ∃ d', (body w₁).world.Kin G d')
    (hbody : ∀ w₁ d c₁, w₁.Kin G d → w₁.handle? on = some ⟨opening, true, c₁⟩ →
      Guarded on opening c₁ (body w₁)) : Guarded on opening c (w.block j body) := by
  have hset := settled_enter w j
  obtain ⟨d, hk₁, -⟩ := hk.enter j
  by_cases hne : on = j
  · subst hne
    obtain ⟨hr, hh₁⟩ := handle_enter hh
    unfold World.block
    generalize w.enter on = p at hr hh₁ hk₁
    obtain ⟨w₁, result⟩ := p
    simp only [Handle.enter, if_true] at hr hh₁ hk₁
    subst hr
    exact hbody w₁ d c hk₁ hh₁
  · obtain ⟨c₁, hh₁, hg₁⟩ := hk.beside hset
      (fun h hh => ⟨_, (handle_enter hh).2, h.onward_enter⟩) (touched_enter hne) hin hne hh
    unfold World.block
    generalize w.enter j = p at hh₁ hk₁
    obtain ⟨w₁, result⟩ := p
    simp only at hh₁ hk₁
    cases result with
    | error failure => exact ⟨c₁, hh₁, hg₁⟩
    | ok entry =>
      obtain ⟨d', hk₂⟩ := hkin w₁ d hk₁
      obtain ⟨c₂, hh₂, hg₂⟩ := hbody w₁ d c₁ hk₁ hh₁
      obtain ⟨c₃, hh₃, hg₃⟩ := hk₂.beside (settled_leave _ j entry _)
        (fun h hh => ⟨_, (handle_leave hh entry _).2, h.onward_leave entry _⟩)
        (touched_leave hne entry _) hin hne hh₂
      refine ⟨c₃, hh₃, ?_⟩
      have hall := hg₁.trans (hg₂.trans hg₃)
      rwa [List.append_nil, List.nil_append] at hall

theorem Kin.guarded_follow (hk : w.Kin G db) (hin : on ∈ G)
    (hh : w.handle? on = some ⟨opening, true, c⟩) (body : Body) :
    Guarded on opening c (w.follow body) := by
  induction body generalizing w db c with
  | done => exact guarded_still hh none
  | abort failure => exact guarded_still hh _
  | call j call next ih =>
    obtain ⟨d, hk₁, -⟩ := hk.call j call.operation
    exact (hk.guarded_called hin hh j call).followedBy fun c' hc' => ih _ hk₁ hc'
  | block j inner next ihInner ihNext =>
    have hkin : ∀ w₁ d, Kin w₁ G d → ∃ d', (w₁.follow inner).world.Kin G d' := fun w₁ d hk₁ => by
      obtain ⟨d', -, hk₂⟩ := hk₁.follow inner
      exact ⟨d', hk₂⟩
    have hblock : ∃ d,
        db.Ascends ((w.block j fun w => w.follow inner).worlds.filterMap (·.shown G)) d ∧
          (w.block j fun w => w.follow inner).world.Kin G d :=
      hk.block j fun w₁ d hk₁ => hk₁.follow inner
    obtain ⟨d, -, hk₁⟩ := hblock
    have ht : Guarded on opening c (w.block j fun w => w.follow inner) :=
      hk.guarded_block hin hh j hkin fun w₁ d c₁ hk₁ hh₁ => ihInner hk₁ hh₁
    exact ht.followedBy fun c' hc' => ihNext _ hk₁ hc'

theorem block_fails {body : World → Trace} (hh : w.handle? on = some ⟨opening, false, c⟩)
    (hf : (w.block on body).outcome ≠ none) :
    ((w.block on body).executed = [] ∧ (w.block on body).world.committed? on = some c.committed) ∨
      ∃ d, (w.enter on).1.handle? on = some ⟨opening, true, d⟩ ∧ d.committed = c.committed ∧
        d.working = some c.committed ∧
        (w.block on body).executed = (body (w.enter on).1).executed ∧
        ∀ d', (body (w.enter on).1).world.handle? on = some ⟨opening, true, d'⟩ →
          (w.block on body).world.committed? on = some d'.committed := by
  obtain ⟨hr, hh₁⟩ := handle_enter hh
  unfold World.block at hf ⊢
  generalize w.enter on = p at hr hh₁ hf
  obtain ⟨w₁, result⟩ := p
  simp only [Handle.enter, Bool.false_eq_true, if_false] at hr hh₁
  rcases c.open?_cases with ⟨fault, d, hopen, hu, -⟩ | ⟨d, hopen, hu, -, hw⟩
  · rw [hopen] at hr hh₁
    subst hr
    refine .inl ⟨rfl, (committed?_of_handle hh₁).trans (congrArg some ?_)⟩
    exact (hu.trans (Connection.rollback_unseen d)).committed
  · rw [hopen] at hr hh₁
    subst hr
    refine .inr ⟨d, hh₁, hu.committed, hw, rfl, fun d' hd' => ?_⟩
    obtain ⟨hout, hleave⟩ := handle_leave hd' (.outermost opening) (body w₁).outcome
    simp only [Handle.leave, ne_eq, not_true_eq_false, if_false] at hout hleave
    refine (committed?_of_handle hleave).trans (congrArg some ?_)
    rcases d'.settle_cases (body w₁).outcome with ⟨hn, -⟩ | ⟨-, hc⟩
    · exact absurd (hout.trans hn) hf
    · exact hc

/-- A block that fails leaves the database as it was, whatever its body does on whatever stores, as
long as the numbers do not run out inside. -/
theorem Kin.kept_block (hk : w.Kin G db) (hin : on ∈ G)
    (hh : w.handle? on = some ⟨opening, false, c⟩) {body : Body}
    (hf : (w.block on fun w => w.follow body).outcome ≠ none)
    (hroom : db.lastMember + (onStore on (w.block on fun w => w.follow body).executed).length <
      Database.lastId) :
    (w.block on fun w => w.follow body).world.committed? on = some db := by
  obtain ⟨rfl, -⟩ := hk.eq_of_handle hin hh
  rcases block_fails hh hf with ⟨-, hsame⟩ | ⟨d, hh₁, hc, hw, hes, hend⟩
  · exact hsame
  · obtain ⟨_, hk₁, -⟩ := hk.enter on
    obtain ⟨d', hd', hg⟩ := hk₁.guarded_follow hin hh₁ body
    rw [hes] at hroom
    rw [hend d' hd', hg.kept (hg.room _ hw hroom), hc]

end

end World

/-! ## Inserts outside every transaction -/

/-- The numbers that writes have used up while no transaction was open. -/
def spent : List Effect → Nat
  | [] => 0
  | e :: es => (if e.before.working.isNone then e.write.uses else 0) + spent es

theorem spent_append (es es' : List Effect) : spent (es ++ es') = spent es + spent es' := by
  induction es with
  | nil => exact (Nat.zero_add _).symm
  | cons e es ih => rw [List.cons_append, spent, spent, ih, Nat.add_assoc]

theorem Connection.spent_exec {α : Type} (c : Connection) (s : Script α) :
    (c.exec s).connection.committed.lastMember = c.committed.lastMember + spent (c.effects s) := by
  induction s generalizing c with
  | done value => rfl
  | fail failure => rfl
  | look table next ih =>
    unfold exec effects
    split
    · exact ih _ c.succeeded
    · rfl
  | write w next ih =>
    unfold exec effects
    rcases write_cases c w with
      ⟨failure, d, hw, -, hu, -⟩ | ⟨rows, d, hw, -, -, -, db, hrun, -, hc⟩
    · simp only [hw]
      exact congrArg Database.lastMember hu.committed
    · have hd : d.committed.lastMember =
          c.committed.lastMember + if c.working.isNone then w.uses else 0 := by
        cases hopen : c.working with
        | none =>
          simp only [view, hopen, Option.getD_none] at hrun
          simp only [hopen, Option.isSome_none, Bool.false_eq_true, if_false] at hc
          rw [hc]
          exact Database.run_uses hrun
        | some old =>
          simp only [hopen, Option.isSome_some, if_true] at hc
          rw [hc]
          rfl
      simp only [hw]
      rw [ih rows d, hd, spent, Nat.add_assoc]
  | note n next ih => exact ih c

theorem Handle.spent_perform {α : Type} {h : Handle} (he : h.entered = true) (op : Operation α) :
    (h.perform op).connection.committed.lastMember =
      h.connection.committed.lastMember + spent (h.effects op) := by
  unfold perform effects
  cases hr : op.refusal with
  | some failure =>
    rw [he, if_pos rfl, Connection.join, hr]
    rfl
  | none =>
    simp only [he, if_true, Connection.join_connection _ hr]
    exact h.connection.spent_exec op.body

namespace World

/-- For a store inside a block, the counter moves only by inserts outside every transaction. -/
def Spends (j opening : Nat) (c : Connection) (t : Trace) : Prop :=
  ∃ c', t.world.handle? j = some ⟨opening, true, c'⟩ ∧
    c'.committed.lastMember = c.committed.lastMember + spent (onStore j t.executed)

section
variable {w : World} {j opening : Nat} {c : Connection}

theorem spends_still (hh : w.handle? j = some ⟨opening, true, c⟩) (outcome : Option Failure) :
    Spends j opening c (.still w outcome) :=
  ⟨c, hh, rfl⟩

theorem Spends.followedBy {t t' : Trace} (h : Spends j opening c t)
    (h' : ∀ c', t.world.handle? j = some ⟨opening, true, c'⟩ → Spends j opening c' t') :
    Spends j opening c (t.followedBy t') := by
  obtain ⟨c', hc', hs⟩ := h
  obtain ⟨c'', hc'', hs'⟩ := h' c' hc'
  refine ⟨c'', hc'', ?_⟩
  rw [hs', hs, Nat.add_assoc, ← spent_append]
  exact congrArg (fun es => _ + spent es) (onStores_append _ _ _).symm

theorem spends_called {on : Nat} (hon : on = j ∨ w.Apart on j)
    (hh : w.handle? j = some ⟨opening, true, c⟩) (call : Call) :
    Spends j opening c (w.called on call) := by
  rcases hon with rfl | ha
  · refine ⟨_, (handle_call hh call.operation).2, ?_⟩
    have hs := Handle.spent_perform (h := ⟨opening, true, c⟩) rfl call.operation
    simpa [called, onStore, onStores_tagged, hh] using hs
  · refine ⟨c, ((touched_call call.operation).of_apart ha).trans hh, ?_⟩
    simp [called, onStore, onStores_tagged, ha.1, spent]

theorem spends_block {on : Nat} {body : World → Trace} (hon : on = j ∨ w.Apart on j)
    (hh : w.handle? j = some ⟨opening, true, c⟩)
    (hset : ∀ w₁ : World, w₁.Settled (body w₁).world)
    (hbody : ∀ w₁, w.Settled w₁ → w₁.handle? j = some ⟨opening, true, c⟩ →
      Spends j opening c (body w₁)) :
    Spends j opening c (w.block on body) := by
  have hw₁ := settled_enter w on
  have hh₁ : (w.enter on).1.handle? j = some ⟨opening, true, c⟩ := by
    rcases hon with rfl | ha
    · exact (handle_enter hh).2
    · exact ((touched_enter ha.1.symm).of_apart ha).trans hh
  have hjoin : on = j → (w.enter on).2 = .ok .joined := by
    rintro rfl
    exact (handle_enter hh).1
  unfold block
  generalize w.enter on = p at hw₁ hh₁ hjoin
  obtain ⟨w₁, result⟩ := p
  simp only at hw₁ hh₁ hjoin
  cases result with
  | error failure => exact spends_still hh₁ _
  | ok entry =>
    obtain ⟨c', hc', hs⟩ := hbody w₁ hw₁ hh₁
    refine ⟨c', ?_, hs⟩
    rcases hon with rfl | ha
    · cases hjoin rfl
      exact hc'
    · have ha' := (hw₁.trans (hset w₁)).apart ha
      exact ((touched_leave ha.1.symm entry _).of_apart ha').trans hc'

theorem spends_follow {body : Body} (hh : w.handle? j = some ⟨opening, true, c⟩)
    (hb : body.Within fun k => k = j ∨ w.Apart k j) : Spends j opening c (w.follow body) := by
  induction body generalizing w c with
  | done => exact spends_still hh none
  | abort failure => exact spends_still hh _
  | call on call next ih =>
    have hw := settled_call w on call.operation
    exact (spends_called hb.1 hh call).followedBy fun c' hc' =>
      ih _ hc' ((hb.2 _).mono fun k hk => hk.imp_right hw.apart)
  | block on inner next ihInner ihNext =>
    have hw : w.Settled (w.block on fun w => w.follow inner).world :=
      settled_block fun w₁ => settled_follow w₁ inner
    have ht : Spends j opening c (w.block on fun w => w.follow inner) :=
      spends_block hb.1 hh (fun w₁ => settled_follow w₁ inner) fun w₁ hw₁ hh₁ =>
        ihInner hh₁ (hb.2.1.mono fun k hk => hk.imp_right hw₁.apart)
    exact ht.followedBy fun c' hc' =>
      ihNext _ hc' ((hb.2.2 _).mono fun k hk => hk.imp_right hw.apart)

theorem spent_block {body : Body} (hb : body.Within fun k => k = j ∨ w.Apart k j)
    (hh : w.handle? j = some ⟨opening, false, c⟩)
    (hf : (w.block j fun w => w.follow body).outcome ≠ none) :
    ∃ db, (w.block j fun w => w.follow body).world.committed? j = some db ∧
      db.lastMember = c.committed.lastMember +
        spent (onStore j (w.block j fun w => w.follow body).executed) := by
  rcases block_fails hh hf with ⟨hes, hsame⟩ | ⟨d, hh₁, hc, -, hes, hend⟩
  · refine ⟨_, hsame, ?_⟩
    rw [hes]
    rfl
  · have hset := settled_enter w j
    obtain ⟨d', hd', hs⟩ := spends_follow hh₁ (hb.mono fun k hk => hk.imp_right hset.apart)
    refine ⟨_, hend d' hd', ?_⟩
    rw [hs, hc, hes]

end

end World

end PubSub
