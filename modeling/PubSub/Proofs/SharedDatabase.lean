import PubSub.Proofs.Bodies
import PubSub.Proofs.Locks

/-!
# Stores on one database

Stores that are open on one database work on it in turns. `together_follow` says
for any body what is committed after it: what the writes of the stores outside
every block have made of it, as far as their own calls and blocks have not taken
them back. The writes of a store inside a block wait in its transaction, and
while that is open nothing else is committed (`Together.held`).
-/

namespace PubSub

namespace World

/-- Some stores that are open on one database, on which no others are, and which of them are inside
a block. -/
structure Company (w : World) (G E : Nat → Bool) : Prop where
  handle : ∀ k, G k = true → ∃ h, w.handle? k = some h ∧ h.entered = E k
  meets : ∀ k l, G k = true → G l = true → ¬w.Apart k l
  apart : ∀ k l, G k = false → G l = true → w.Apart k l

def outside (G E : Nat → Bool) (k : Nat) : Bool := G k && !E k

/-- What a handle has become, with the writes that were executed on it. -/
structure Grown (h h' : Handle) (es : List Effect) : Prop where
  opening : h'.opening = h.opening
  entered : h'.entered = h.entered
  mayWrite : h'.connection.mayWrite = h.connection.mayWrite
  reads : h.connection.mayWrite = false → es = []
  whole : ∀ db', h'.entered = true → h'.connection.working = some db' →
    ∃ db, h.connection.working = some db ∧ db.writeAll (writesOf es) = .ok db'

theorem Grown.trans {h h' h'' : Handle} {es es' : List Effect} (hg : Grown h h' es)
    (hg' : Grown h' h'' es') : Grown h h'' (es ++ es') where
  opening := hg'.opening.trans hg.opening
  entered := hg'.entered.trans hg.entered
  mayWrite := hg'.mayWrite.trans hg.mayWrite
  reads hr := by rw [hg.reads hr, hg'.reads (hg.mayWrite.trans hr), List.append_nil]
  whole db'' he hdb := by
    obtain ⟨db', hdb', hw'⟩ := hg'.whole db'' he hdb
    obtain ⟨db, hdb, hw⟩ := hg.whole db' (hg'.entered.symm.trans he) hdb'
    exact ⟨db, hdb, by rw [writesOf_append, Database.writeAll_append hw, hw']⟩

theorem Grown.pending {h h' : Handle} {es : List Effect} (hg : Grown h h' es)
    (he : h'.entered = true) (hw : h'.connection.working ≠ none) : h.connection.working ≠ none := by
  obtain ⟨db', hdb'⟩ := Option.ne_none_iff_exists'.mp hw
  obtain ⟨db, hdb, -⟩ := hg.whole db' he hdb'
  simp [hdb]

theorem alike_grown {h h' : Handle} (ha : h.Alike h') : Grown h h' [] :=
  ⟨ha.opening, ha.entered, ha.mayWrite, fun _ => rfl, fun db' _ hdb =>
    ⟨db', ha.working.symm.trans hdb, rfl⟩⟩

structure Together (w : World) (G E : Nat → Bool) (t : Trace) : Prop where
  settled : w.Settled t.world
  grown : ∀ k, G k = true → ∀ h, w.handle? k = some h →
    ∃ h', t.world.handle? k = some h' ∧ Grown h h' (onStore k t.executed)
  lasting : ∀ k, G k = true → E k = true → onStore k t.lasting = onStore k t.executed
  committed : ∀ k, G k = true → ∀ db db', w.committed? k = some db →
    t.world.committed? k = some db' → (∀ e ∈ onStores G t.executed, ¬e.Strays) →
    db.writeAll (writesOf (onStores (outside G E) t.lasting)) = .ok db'
  held : ∀ k, G k = true → E k = true → ∀ h', t.world.handle? k = some h' →
    h'.connection.working ≠ none → onStores (outside G E) t.lasting = []

section
variable {w : World} {G E : Nat → Bool}

theorem Company.committed?_eq (hc : Company w G E) {k l : Nat} (hk : G k = true) (hl : G l = true) :
    w.committed? k = w.committed? l := by
  obtain ⟨h, hh, -⟩ := hc.handle k hk
  obtain ⟨h', hh', -⟩ := hc.handle l hl
  rw [committed?_of_handle hh, committed?_of_handle hh',
    committed_eq_of_meets (hc.meets k l hk hl) hh hh']

theorem Company.entered (hc : Company w G E) {k : Nat} (hk : G k = true) {h : Handle}
    (hh : w.handle? k = some h) : h.entered = E k := by
  obtain ⟨h', hh', he⟩ := hc.handle k hk
  rw [hh, Option.some.injEq] at hh'
  exact hh' ▸ he

theorem Company.after (hc : Company w G E) {w' : World} (hset : w.Settled w') (E' : Nat → Bool)
    (hh : ∀ k, G k = true → ∀ h, w.handle? k = some h →
      ∃ h', w'.handle? k = some h' ∧ h'.entered = E' k) : Company w' G E' where
  handle k hk := by
    obtain ⟨h, hh', -⟩ := hc.handle k hk
    exact hh k hk h hh'
  meets k l hk hl := fun ha => hc.meets k l hk hl (hset.symm.apart ha)
  apart k l hk hl := hset.apart (hc.apart k l hk hl)

theorem Company.of_grown (hc : Company w G E) {w' : World} (hset : w.Settled w')
    {es : Nat → List Effect} (hg : ∀ k, G k = true → ∀ h, w.handle? k = some h →
      ∃ h', w'.handle? k = some h' ∧ Grown h h' (es k)) : Company w' G E := by
  refine hc.after hset E fun k hk h hh => ?_
  obtain ⟨h', hh', hg⟩ := hg k hk h hh
  exact ⟨h', hh', hg.entered.trans (hc.entered hk hh)⟩

theorem Together.company {t : Trace} (ht : Together w G E t) (hc : Company w G E) :
    Company t.world G E :=
  hc.of_grown ht.settled ht.grown

theorem together_of_same {t : Trace} (hset : w.Settled t.world)
    (hh : ∀ k, G k = true → t.world.handle? k = w.handle? k)
    (he : onStores G t.executed = []) (hl : onStores G t.lasting = []) : Together w G E t := by
  have hone : ∀ k, G k = true → ∀ es, onStores G es = [] → onStore k es = [] := fun k hk es hn =>
    onStores_of_subset (fun l hl => by rwa [eq_of_beq hl]) hn
  have hout : onStores (outside G E) t.lasting = [] :=
    onStores_of_subset (fun k hk => (Bool.and_eq_true_iff.mp hk).1) hl
  refine ⟨hset, fun k hk h hk' => ⟨h, (hh k hk).trans hk', ?_⟩, fun k hk _ => ?_,
    fun k hk db db' hdb hdb' _ => ?_, fun _ _ _ _ _ _ => hout⟩
  · rw [hone k hk _ he]
    exact alike_grown (.refl h)
  · rw [hone k hk _ he, hone k hk _ hl]
  · rw [committed?, hh k hk, ← committed?, hdb, Option.some.injEq] at hdb'
    rw [hout, hdb']
    rfl

theorem Together.followedBy {t t' : Trace} (hc : Company w G E) (ht : Together w G E t)
    (ht' : Together t.world G E t') : Together w G E (t.followedBy t') := by
  have hc₁ := ht.company hc
  have happ : ∀ P : Nat → Bool, onStores P (t.followedBy t').lasting =
      onStores P t.lasting ++ onStores P t'.lasting := fun P => onStores_append P _ _
  have happ' : ∀ P : Nat → Bool, onStores P (t.followedBy t').executed =
      onStores P t.executed ++ onStores P t'.executed := fun P => onStores_append P _ _
  refine ⟨ht.settled.trans ht'.settled, fun k hk h hh => ?_, fun k hk he => ?_,
    fun k hk db db'' hdb hdb'' hs => ?_, fun k hk he h'' hh'' hw => ?_⟩
  · obtain ⟨h', hh', hg⟩ := ht.grown k hk h hh
    obtain ⟨h'', hh'', hg'⟩ := ht'.grown k hk h' hh'
    refine ⟨h'', hh'', ?_⟩
    rw [onStore, happ']
    exact hg.trans hg'
  · rw [onStore, onStore, happ, happ']
    exact congr (congrArg _ (ht.lasting k hk he)) (ht'.lasting k hk he)
  · obtain ⟨h', hh', -⟩ := hc₁.handle k hk
    rw [happ'] at hs
    have h₁ := ht.committed k hk db _ hdb (committed?_of_handle hh')
      fun e he => hs e (List.mem_append_left _ he)
    have h₂ := ht'.committed k hk _ db'' (committed?_of_handle hh') hdb''
      fun e he => hs e (List.mem_append_right _ he)
    rw [happ, writesOf_append, Database.writeAll_append h₁, h₂]
  · obtain ⟨h', hh', he'⟩ := hc₁.handle k hk
    obtain ⟨h₂, hh₂, hg⟩ := ht'.grown k hk h' hh'
    obtain rfl : h₂ = h'' := Option.some.inj (hh₂.symm.trans hh'')
    have hw' := hg.pending (hg.entered.trans (he'.trans he)) hw
    rw [happ, ht.held k hk he h' hh' hw', ht'.held k hk he _ hh₂ hw]
    rfl

/-! ## Calls -/

/-- While one store of a company is inside a transaction, the others cannot commit a write. -/
theorem Company.held (hc : Company w G E) {k l : Nat} (hk : G k = true) (hl : G l = true)
    (hne : k ≠ l) {h h' : Handle} (hh : w.handle? k = some h) (hh' : w.handle? l = some h')
    (ho : h'.connection.working ≠ none) (hw : h.connection.mayWrite = true) :
    h.connection.blocked ≠ none ∨ h.connection.observed = true := by
  cases hw' : h'.connection.mayWrite with
  | true => exact .inl (blocked_of_writing (hc.meets k l hk hl) hh hh' hne hw hw' ho)
  | false => exact .inr (observed_of_reading (hc.meets k l hk hl) hh hh' hne hw' ho)

theorem grown_perform (h : Handle) (op : Operation Reply) :
    Grown h ⟨h.opening, h.entered, (h.perform op).connection⟩ (h.effects op) where
  opening := rfl
  entered := rfl
  mayWrite := congrArg (·.2.2) (h.perform_around op)
  reads hr := Handle.effects_of_reader hr op
  whole db' he hdb := ((Handle.goes_perform (h := h) he op).whole db' hdb).2

theorem onStores_called {on : Nat} {h : Handle} (hh : w.handle? on = some h) (call : Call)
    (P : Nat → Bool) :
    onStores P (w.called on call).executed = (if P on then h.effects call.operation else []) ∧
      onStores P (w.called on call).lasting = if P on then h.lasting call.operation else [] := by
  simp [called, hh, onStores_tagged]

theorem called_grown {on k : Nat} {h d : Handle} (hh : w.handle? on = some h) (call : Call)
    (hd : w.handle? k = some d) : ∃ d', (w.called on call).world.handle? k = some d' ∧
      Grown d d' (onStore k (w.called on call).executed) := by
  rw [onStore, (onStores_called hh call _).1]
  by_cases hne : k = on
  · subst hne
    obtain rfl : h = d := Option.some.inj (hh.symm.trans hd)
    rw [beq_self_eq_true, if_pos rfl]
    exact ⟨_, (handle_call hh call.operation).2, grown_perform h call.operation⟩
  · obtain ⟨d', hd', ha⟩ := (touched_call (i := on) call.operation).alike hne hd
    rw [beq_false_of_ne (Ne.symm hne), if_neg (by simp)]
    exact ⟨d', hd', alike_grown ha⟩

theorem together_called (hc : Company w G E) (on : Nat) (call : Call) :
    Together w G E (w.called on call) := by
  have hset := settled_call w on call.operation
  cases hon : G on with
  | false =>
    refine together_of_same hset
      (fun k hk => (touched_call call.operation).of_apart (hc.apart on k hon hk)) ?_ ?_
    · simp [called, onStores_tagged, hon]
    · simp [called, onStores_tagged, hon]
  | true =>
    obtain ⟨h, hh, he⟩ := hc.handle on hon
    have hes := onStores_called hh call
    refine ⟨hset, fun k _ d hd => called_grown hh call hd, fun k hk hk' => ?_,
      fun k hk db db' hdb hdb' hs => ?_, fun k hk hk' d' hd' hw => ?_⟩
    · rw [onStore, onStore, (hes _).1, (hes _).2]
      by_cases hne : k = on
      · subst hne
        simp [Handle.lasting, he, hk']
      · simp [beq_false_of_ne (Ne.symm hne)]
    · have hc' : Company (w.called on call).world G E :=
        hc.of_grown hset fun k _ d hd => called_grown hh call hd
      rw [hc.committed?_eq hk hon, committed?_of_handle hh, Option.some.injEq] at hdb
      rw [hc'.committed?_eq hk hon, show (w.called on call).world.committed? on = _ from
        committed?_of_handle (handle_call hh call.operation).2, Option.some.injEq] at hdb'
      subst hdb hdb'
      rw [(hes _).2, outside, hon, Bool.true_and]
      cases hE : E on with
      | false => exact Handle.writeAll_perform (he.trans hE) call
      | true =>
        rw [(hes _).1, if_pos hon] at hs
        rw [(Handle.goes_perform (he.trans hE) call.operation).committed hs]
        rfl
    -- While another store is inside a transaction, nothing lasts of what is written outside blocks.
    · rw [(hes _).2, outside, hon, Bool.true_and]
      cases hE : E on with
      | true => rfl
      | false =>
        have hne : on ≠ k := fun heq => by
          rw [← heq, hE] at hk'
          cases hk'
        obtain ⟨d, hd, hed⟩ := hc.handle k hk
        obtain ⟨d'', hd'', hg⟩ := called_grown hh call hd
        obtain rfl : d'' = d' := Option.some.inj (hd''.symm.trans hd')
        have hw' := hg.pending (hg.entered.trans (hed.trans hk')) hw
        exact Handle.lasting_of_held (he.trans hE) (hc.held hon hk hne hh hd hw') call

/-! ## Blocks -/

theorem enter_of_entered {i : Nat} {h : Handle} (hh : w.handle? i = some h)
    (he : h.entered = true) : w.enter i = (w, .ok .joined) := by
  obtain ⟨s, link, db, hs, -, -, -, rfl⟩ := handle?_eq_some.mp hh
  unfold enter
  simp only [hs]
  rw [show s.entered = true from he]
  rfl

theorem together_joined {on : Nat} {h : Handle} (hh : w.handle? on = some h)
    (he : h.entered = true) {body : World → Trace} (ht : Together w G E (body w)) :
    Together w G E (w.block on body) := by
  unfold block
  rw [enter_of_entered hh he]
  exact ⟨ht.settled, ht.grown, ht.lasting, ht.committed, ht.held⟩

theorem together_elsewhere (hc : Company w G E) {on : Nat} (hon : G on = false)
    {body : World → Trace} (hset : ∀ w₁ : World, w₁.Settled (body w₁).world)
    (hbody : ∀ w₁ : World, w₁.Company G E → Together w₁ G E (body w₁)) :
    Together w G E (w.block on body) := by
  have hw₁ := settled_enter w on
  have hh₁ : ∀ k, G k = true → (w.enter on).1.handle? k = w.handle? k := fun k hk => by
    have ha := hc.apart on k hon hk
    exact (touched_enter ha.1.symm).of_apart ha
  unfold block
  generalize w.enter on = p at hw₁ hh₁
  obtain ⟨w₁, result⟩ := p
  simp only at hw₁ hh₁
  cases result with
  | error failure => exact together_of_same hw₁ hh₁ rfl rfl
  | ok entry =>
    have hc₁ : Company w₁ G E := hc.after hw₁ E fun k hk h hh =>
      ⟨h, (hh₁ k hk).trans hh, hc.entered hk hh⟩
    have ht := hbody w₁ hc₁
    have hh₂ : ∀ k, G k = true →
        (left on entry w₁ (body w₁)).world.handle? k = (body w₁).world.handle? k := fun k hk => by
      have ha := (hw₁.trans (hset w₁)).apart (hc.apart on k hon hk)
      exact (touched_leave ha.1.symm entry _).of_apart ha
    have hout : outside G E on = false := by simp [outside, hon]
    refine ⟨hw₁.trans ((hset w₁).trans (settled_leave _ on entry _)), fun k hk h hh => ?_,
      fun k hk he => ?_, fun k hk db db' hdb hdb' hs => ?_, fun k hk he h' hh' hw => ?_⟩
    · obtain ⟨h', hh', hg⟩ := ht.grown k hk h ((hh₁ k hk).trans hh)
      exact ⟨h', (hh₂ k hk).trans hh', hg⟩
    · have hne : (on == k) = false := beq_false_of_ne fun heq => by
        rw [heq, hk] at hon
        cases hon
      exact (onStores_left (P := (· == k)) hne entry w₁ _).trans (ht.lasting k hk he)
    · rw [onStores_left hout]
      refine ht.committed k hk db db' ?_ ?_ hs
      · rw [committed?, hh₁ k hk]
        exact hdb
      · rw [committed?, ← hh₂ k hk]
        exact hdb'
    · rw [onStores_left hout]
      exact ht.held k hk he h' ((hh₂ k hk).symm.trans hh') hw

/-! ## Blocks that join none -/

/-- Who is inside a block once one more store is. -/
def entering (on : Nat) (E : Nat → Bool) (k : Nat) : Bool := k == on || E k

theorem outside_eq {on : Nat} (hon : G on = true) (he : E on = false) :
    outside G E = fun k => k == on || outside G (entering on E) k := by
  funext k
  by_cases hk : k = on
  · simp [outside, hk, hon, he]
  · simp [outside, entering, beq_false_of_ne hk]

theorem outside_entering (on : Nat) :
    (fun k => outside G E k && k != on) = outside G (entering on E) := by
  funext k
  by_cases hk : k = on
  · simp [outside, entering, hk]
  · simp [outside, entering, beq_false_of_ne hk, bne]

theorem Company.reads_only (hc : Company w G E) {w' : World} {E' : Nat → Bool}
    (hc' : Company w' G E') {k l : Nat} (hk : G k = true) (hl : G l = true) (hne : k ≠ l)
    {h h' d d' : Handle} (hh : w.handle? k = some h) (hh' : w'.handle? k = some h')
    (hd : w.handle? l = some d) (hd' : w'.handle? l = some d') (hb : h.connection.blocked = none)
    (hcommit : h'.connection.commit.1 = none)
    (hm : h'.connection.mayWrite = h.connection.mayWrite)
    (hm' : d'.connection.mayWrite = d.connection.mayWrite) (hw : d.connection.working ≠ none)
    (hw' : d'.connection.working ≠ none) : h.connection.mayWrite = false := by
  cases hwrite : h.connection.mayWrite with
  | false => rfl
  | true =>
    cases hd₀ : d.connection.mayWrite with
    | true => exact absurd hb (blocked_of_writing (hc.meets k l hk hl) hh hd hne hwrite hd₀ hw)
    | false =>
      have ho := observed_of_reading (hc'.meets k l hk hl) hh' hd' hne (hm'.trans hd₀) hw'
      rw [Connection.observed_of_commit hcommit (hm.trans hwrite)] at ho
      cases ho

structure Begun (w w₁ : World) (on opening : Nat) (c d : Connection) : Prop where
  settled : w.Settled w₁
  before : w.handle? on = some ⟨opening, false, c⟩
  opens : c.open? = (none, d)
  now : w₁.handle? on = some ⟨opening, true, d⟩
  others : ∀ k, k ≠ on → ∀ h, w.handle? k = some h → ∃ h', w₁.handle? k = some h' ∧ h.Alike h'

section
variable {on opening : Nat} {w₁ : World} {c d : Connection} {t : Trace}
  (hb : Begun w w₁ on opening c d) (ht : Together w₁ G (entering on E) t)

include hb ht

theorem left_own (hon : G on = true) : ∃ d', t.world.handle? on = some ⟨opening, true, d'⟩ ∧
    Grown ⟨opening, true, d⟩ ⟨opening, true, d'⟩ (onStore on t.executed) ∧
    (left on (.outermost opening) w₁ t).world.handle? on =
      some ⟨opening, false, (settle d' t.outcome).1⟩ ∧
    (t.world.leave on (.outermost opening) t.outcome).2 = (settle d' t.outcome).2.2 := by
  obtain ⟨⟨opening', entered', d'⟩, hh, hg⟩ := ht.grown on hon _ hb.now
  obtain rfl : opening' = opening := hg.opening
  obtain rfl : entered' = true := hg.entered
  obtain ⟨hout, hleft⟩ := handle_leave hh (.outermost opening') t.outcome
  simp only [Handle.leave, ne_eq, not_true_eq_false, if_false] at hout hleft
  exact ⟨d', hh, hg, hleft, hout⟩

theorem left_other {k : Nat} (hk : G k = true) (hne : k ≠ on) {h : Handle}
    (hh : w.handle? k = some h) : ∃ h₂ h', t.world.handle? k = some h₂ ∧
      (left on (.outermost opening) w₁ t).world.handle? k = some h' ∧
      Grown h h₂ (onStore k t.executed) ∧ h₂.Alike h' := by
  obtain ⟨h₁, hh₁, ha₁⟩ := hb.others k hne h hh
  obtain ⟨h₂, hh₂, hg⟩ := ht.grown k hk h₁ hh₁
  obtain ⟨h', hh', ha₂⟩ := (touched_leave hne (.outermost opening) t.outcome).alike hne hh₂
  exact ⟨h₂, h', hh₂, hh', (alike_grown ha₁).trans hg, ha₂⟩

theorem left_grown (hon : G on = true) {k : Nat} (hk : G k = true) {h : Handle}
    (hh : w.handle? k = some h) : ∃ h', (left on (.outermost opening) w₁ t).world.handle? k = some h' ∧
      Grown h h' (onStore k t.executed) := by
  by_cases hne : k = on
  · subst hne
    obtain ⟨d', -, hg, hleft, -⟩ := left_own hb ht hon
    obtain rfl : Handle.mk opening false c = h := Option.some.inj (hb.before.symm.trans hh)
    have hmay : d.mayWrite = c.mayWrite :=
      congrArg (·.2.2) (Connection.unseen_open hb.opens).1.around
    refine ⟨_, hleft, rfl, rfl, ?_, fun hr => hg.reads (hmay.trans hr), fun _ hE _ => by cases hE⟩
    exact (congrArg (·.2.2) (settle_around d' t.outcome)).trans (hg.mayWrite.trans hmay)
  · obtain ⟨h₂, h', -, hh', hg, ha⟩ := left_other hb ht hk hne hh
    have hall := hg.trans (alike_grown ha)
    rw [List.append_nil] at hall
    exact ⟨h', hh', hall⟩

omit hb in
/-- The writes of the store have waited for the end of the block. They are all that lasts, or they
are taken back. -/
theorem left_lasting (hon : G on = true) (he : E on = false) {d' : Connection}
    (hh : t.world.handle? on = some ⟨opening, true, d'⟩)
    (hout : (t.world.leave on (.outermost opening) t.outcome).2 = (settle d' t.outcome).2.2) :
    (onStores (outside G E) (left on (.outermost opening) w₁ t).lasting = onStore on t.executed ∧
      d'.commit.1 = none ∧ d'.working = some (settle d' t.outcome).1.committed) ∨
    (onStores (outside G E) (left on (.outermost opening) w₁ t).lasting =
        onStores (outside G (entering on E)) t.lasting ∧
      (settle d' t.outcome).1.committed = d'.committed) := by
  have hin : entering on E on = true := by simp [entering]
  rcases Connection.settle_cases d' t.outcome with ⟨hn, hcommit, hk⟩ | ⟨⟨failure, hf⟩, hcom⟩
  · have hwait := ht.held on hon hin _ hh (by simp [hk])
    have hlast : (left on (.outermost opening) w₁ t).lasting = t.lasting := by
      simp only [left, hout, hn]
    refine .inl ⟨?_, hcommit, hk⟩
    rw [hlast, outside_eq hon he, onStores_or_of_nil hwait]
    exact ht.lasting on hon hin
  · refine .inr ⟨?_, hcom⟩
    simp only [left, hout, hf]
    rw [onStores_drop, outside_entering]

theorem together_left (hc : Company w G E) (hc₁ : Company w₁ G (entering on E))
    (hon : G on = true) (he : E on = false) :
    Together w G E (left on (.outermost opening) w₁ t) := by
  obtain ⟨d', hh₂, hg, hleft, hout⟩ := left_own hb ht hon
  have hlasting := left_lasting ht hon he hh₂ hout
  have hset : w.Settled (left on (.outermost opening) w₁ t).world :=
    hb.settled.trans (ht.settled.trans (settled_leave _ on _ _))
  have hother : ∀ k, E k = true → k ≠ on ∧ entering on E k = true := by
    intro k hE
    refine ⟨fun heq => ?_, by simp [entering, hE]⟩
    rw [heq, he] at hE
    cases hE
  refine ⟨hset, fun k hk h hh => left_grown hb ht hon hk hh, fun k hk hE => ?_,
    fun k hk db db' hdb hdb' hs => ?_, fun k hk hE h' hh' hw => ?_⟩
  · obtain ⟨hne, hin⟩ := hother k hE
    have hl := onStores_left (P := (· == k)) (beq_false_of_ne hne.symm) (.outermost opening) w₁ t
    exact hl.trans (ht.lasting k hk hin)
  · have hc' : Company (left on (.outermost opening) w₁ t).world G E :=
      hc.of_grown hset fun k hk h hh => left_grown hb ht hon hk hh
    obtain ⟨hu, hworking⟩ := Connection.unseen_open hb.opens
    rw [hc.committed?_eq hk hon, committed?_of_handle hb.before, Option.some.injEq] at hdb
    rw [hc'.committed?_eq hk hon, committed?_of_handle hleft, Option.some.injEq] at hdb'
    subst hdb hdb'
    rcases hlasting with ⟨hl, -, hk'⟩ | ⟨hl, hcom⟩
    · obtain ⟨db, hdb, hall⟩ := hg.whole _ rfl hk'
      rw [show d.working = some c.committed from hworking, Option.some.injEq] at hdb
      rw [hl, hdb, hall]
    · rw [hl, hcom]
      refine ht.committed on hon _ _ ?_ (committed?_of_handle hh₂) hs
      rw [committed?_of_handle hb.now, hu.committed]
  · obtain ⟨hne, hin⟩ := hother k hE
    obtain ⟨h, hh, he₀⟩ := hc.handle k hk
    obtain ⟨h₂, h'', hh₂', hh'', hg', ha⟩ := left_other hb ht hk hne hh
    obtain rfl : h'' = h' := Option.some.inj (hh''.symm.trans hh')
    have hw₂ : h₂.connection.working ≠ none := ha.working ▸ hw
    rcases hlasting with ⟨hl, hcommit, -⟩ | ⟨hl, -⟩
    · -- The other one was inside its transaction all along, so this one can only have read.
      have hmay : d.mayWrite = c.mayWrite :=
        congrArg (·.2.2) (Connection.unseen_open hb.opens).1.around
      have hw₀ := hg'.pending (hg'.entered.trans (he₀.trans hE)) hw₂
      have hreads := hc.reads_only (ht.company hc₁) hon hk hne.symm hb.before hh₂ hh hh₂'
        (Connection.blocked_of_open (by rw [hb.opens])) hcommit (hg.mayWrite.trans hmay)
        hg'.mayWrite hw₀ hw₂
      rw [hl]
      exact hg.reads (hmay.trans hreads)
    · rw [hl]
      exact ht.held k hk hin h₂ hh₂' hw₂

end

theorem Company.after_one (hc : Company w G E) {on : Nat} {w₁ : World} {E' : Nat → Bool}
    (hset : w.Settled w₁)
    (hothers : ∀ k, k ≠ on → ∀ h, w.handle? k = some h → ∃ h', w₁.handle? k = some h' ∧ h.Alike h')
    (hE : ∀ k, k ≠ on → E' k = E k) (hon : ∃ h, w₁.handle? on = some h ∧ h.entered = E' on) :
    Company w₁ G E' := by
  refine hc.after hset E' fun k hk h hh => ?_
  by_cases hne : k = on
  · rw [hne]
    exact hon
  · obtain ⟨h', hh', ha⟩ := hothers k hne h hh
    exact ⟨h', hh', by rw [ha.entered, hc.entered hk hh, hE k hne]⟩

theorem together_unbegun (hc : Company w G E) {on opening : Nat} {w₁ : World} {c d : Connection}
    (hon : G on = true) (hset : w.Settled w₁) (hh : w.handle? on = some ⟨opening, false, c⟩)
    (hu : c.Unseen d) (hh₁ : w₁.handle? on = some ⟨opening, false, d⟩)
    (hothers : ∀ k, k ≠ on → ∀ h, w.handle? k = some h → ∃ h', w₁.handle? k = some h' ∧ h.Alike h')
    (failure : Failure) : Together w G E (.still w₁ (some failure)) := by
  have he : false = E on := hc.entered hon hh
  have hc₁ : Company w₁ G E := hc.after_one hset hothers (fun _ _ => rfl) ⟨_, hh₁, he⟩
  refine ⟨hset, fun k hk h hh' => ?_, fun _ _ _ => rfl, fun k hk db db' hdb hdb' _ => ?_,
    fun _ _ _ _ _ _ => rfl⟩
  · by_cases hne : k = on
    · subst hne
      obtain rfl : Handle.mk opening false c = h := Option.some.inj (hh.symm.trans hh')
      exact ⟨_, hh₁, rfl, rfl, congrArg (·.2.2) hu.around, fun _ => rfl, fun _ hE _ => by cases hE⟩
    · obtain ⟨h', hh'', ha⟩ := hothers k hne h hh'
      exact ⟨h', hh'', alike_grown ha⟩
  · rw [hc.committed?_eq hk hon, committed?_of_handle hh, Option.some.injEq] at hdb
    rw [show (Trace.still w₁ _).world.committed? k = w₁.committed? on from
      hc₁.committed?_eq hk hon, committed?_of_handle hh₁, Option.some.injEq] at hdb'
    rw [← hdb, ← hdb', hu.committed]
    rfl

theorem together_own (hc : Company w G E) {on : Nat} (hon : G on = true) (he : E on = false)
    {body : World → Trace} (hbody : ∀ w₁ : World, w₁.Company G (entering on E) →
      Together w₁ G (entering on E) (body w₁)) : Together w G E (w.block on body) := by
  obtain ⟨⟨opening, entered, c⟩, hh, rfl⟩ := hc.handle on hon
  rw [he] at hh
  have hset := settled_enter w on
  have hothers : ∀ k, k ≠ on → ∀ h, w.handle? k = some h →
      ∃ h', (w.enter on).1.handle? k = some h' ∧ h.Alike h' := fun k hne h hh =>
    (touched_enter hne).alike hne hh
  obtain ⟨hr, hh₁⟩ := handle_enter hh
  unfold block
  generalize w.enter on = p at hset hr hh₁ hothers
  obtain ⟨w₁, result⟩ := p
  simp only [Handle.enter, Bool.false_eq_true, if_false] at hset hr hh₁ hothers
  rcases c.open?_cases with ⟨fault, d, ho, hu, -⟩ | ⟨d, ho, -⟩
  · rw [ho] at hr hh₁
    subst hr
    exact together_unbegun hc hon hset hh (hu.trans (Connection.rollback_unseen d)) hh₁ hothers _
  · rw [ho] at hr hh₁
    subst hr
    have hc₁ : Company w₁ G (entering on E) :=
      hc.after_one hset hothers (fun k hne => by simp [entering, hne])
        ⟨_, hh₁, by simp [entering]⟩
    exact together_left ⟨hset, hh, ho, hh₁, hothers⟩ (hbody w₁ hc₁) hc hc₁ hon he

/-! ## Bodies -/

theorem together_block (hc : Company w G E) (on : Nat) {body : World → Trace}
    (hset : ∀ w₁ : World, w₁.Settled (body w₁).world)
    (hbody : ∀ (w₁ : World) (E₁ : Nat → Bool), w₁.Company G E₁ → Together w₁ G E₁ (body w₁)) :
    Together w G E (w.block on body) := by
  cases hon : G on with
  | false => exact together_elsewhere hc hon hset fun w₁ => hbody w₁ E
  | true =>
    cases he : E on with
    | false => exact together_own hc hon he fun w₁ => hbody w₁ _
    | true =>
      obtain ⟨h, hh, he'⟩ := hc.handle on hon
      exact together_joined hh (he'.trans he) (hbody w E hc)

/-- Stores on one database work on it in turns, whatever the body. -/
theorem together_follow (hc : Company w G E) (body : Body) : Together w G E (w.follow body) := by
  induction body generalizing w E with
  | done => exact together_of_same (.refl w) (fun _ _ => rfl) rfl rfl
  | abort failure => exact together_of_same (.refl w) (fun _ _ => rfl) rfl rfl
  | call on call next ih =>
    have ht := together_called hc on call
    exact ht.followedBy hc (ih _ (ht.company hc))
  | block on inner next ihInner ihNext =>
    have ht : Together w G E (w.block on fun w => w.follow inner) :=
      together_block hc on (fun w₁ => settled_follow w₁ inner) fun w₁ E₁ hc₁ => ihInner hc₁
    exact ht.followedBy hc (ihNext _ (ht.company hc))

end

end World

end PubSub
