import PubSub.Proofs.Numbers

/-!
# Numbers on shared databases

Several stores may be open on one database. While one of them is inside a transaction the
others commit nothing, so each goes on from what is committed (`Kin.step`). Whatever calls
and blocks do on them, and on other stores in between, what they commit is one history
(`Kin.follow`).
-/

namespace PubSub

namespace World

/-! ## Stores of one database -/

/-- What is committed in the database of some stores, where one of them is open. -/
def shown (w : World) (G : List Nat) : Option Database := G.findSome? w.committed?

def shownIn (G : List Nat) (t : Trace) : List Database :=
  (t.worlds ++ [t.world]).filterMap (·.shown G)

/-- Stores that are for one database, as far as they are open, and no others are on it. -/
structure Kin (w : World) (G : List Nat) (db : Database) : Prop where
  numbered : db.Numbered
  handle : ∀ k ∈ G, w.home? k ≠ none →
    ∃ h, w.handle? k = some h ∧ h.connection.committed = db ∧ h.connection.Orderly
  meets : ∀ j ∈ G, ∀ k ∈ G, w.home? j ≠ none → w.home? k ≠ none → ¬w.Apart j k
  secluded : w.Secluded (· ∈ G)
  writer : ∀ j ∈ G, ∀ k ∈ G, j ≠ k → ∀ h h', w.handle? j = some h → w.handle? k = some h' →
    h.connection.working ≠ none → h'.connection.working ≠ none →
    h.connection.mayWrite = false ∨ h'.connection.mayWrite = false

section
variable {w w' : World} {G : List Nat} {db : Database} {on : Nat}

theorem home?_of_handle {k : Nat} {h : Handle} (hh : w.handle? k = some h) : w.home? k ≠ none := by
  obtain ⟨s, link, db, hs, hl, -⟩ := handle?_eq_some.mp hh
  simp [home?, hs, hl]

theorem handle?_of_closed {k : Nat} (hn : w.home? k = none) : w.handle? k = none := by
  by_contra hh
  obtain ⟨h, hh⟩ := Option.ne_none_iff_exists'.mp hh
  exact home?_of_handle hh hn

theorem apart_of_closed {j k : Nat} (hn : w.home? j = none) (hne : j ≠ k) : w.Apart j k :=
  ⟨hne, fun a ha => by rw [hn] at ha; cases ha⟩

theorem Settled.home?_none (h : w.Settled w') (k : Nat) : w'.home? k = none ↔ w.home? k = none := by
  have := h k
  cases hw : w.home? k <;> cases hw' : w'.home? k <;> simp [hw, hw'] at this ⊢

theorem Kin.eq_of_handle (hk : w.Kin G db) {k : Nat} (hin : k ∈ G) {h : Handle}
    (hh : w.handle? k = some h) : h.connection.committed = db ∧ h.connection.Orderly := by
  obtain ⟨h', hh', hc, ho⟩ := hk.handle k hin (home?_of_handle hh)
  obtain rfl : h = h' := Option.some.inj (hh.symm.trans hh')
  exact ⟨hc, ho⟩

theorem Kin.eq_of_shown (hk : w.Kin G db) {d : Database} (hd : w.shown G = some d) : d = db := by
  obtain ⟨k, hin, hc⟩ := List.exists_of_findSome?_eq_some hd
  obtain ⟨h, hh, rfl⟩ := Option.map_eq_some_iff.mp hc
  exact (hk.eq_of_handle hin hh).1

theorem Kin.ascends (hk : w.Kin G db) {start last : Database} (hl : start.Later db)
    {worlds : List World} (h : db.Ascends (worlds.filterMap (·.shown G)) last) :
    start.Ascends ((w :: worlds).filterMap (·.shown G)) last := by
  rw [List.filterMap_cons]
  cases hs : w.shown G with
  | none => exact hl.ascends h
  | some d =>
    obtain rfl := hk.eq_of_shown hs
    exact .cons hl hk.numbered h

theorem ascends_shownIn {t : Trace} (hasc : db.Ascends (t.worlds.filterMap (·.shown G)) db')
    (hk : t.world.Kin G db') : db.Ascends (shownIn G t) db' := by
  rw [shownIn, List.filterMap_append]
  exact hasc.append (hk.ascends (.refl db') (.nil (.refl db')))

/-! ## Steps -/

theorem Kin.stalled (hk : w.Kin G db) {k : Nat} (hon : on ∈ G) (hin : k ∈ G) (hne : k ≠ on)
    {h d : Handle} (hh : w.handle? on = some h) (hd : w.handle? k = some d)
    (hw : d.connection.working ≠ none) : h.connection.Stalled := by
  have hm := hk.meets on hon k hin (home?_of_handle hh) (home?_of_handle hd)
  cases hmay : h.connection.mayWrite with
  | false => exact .inl hmay
  | true =>
    refine .inr ?_
    cases hmay' : d.connection.mayWrite with
    | false => exact .inl (observed_of_reading hm hh hd hne.symm hmay' hw)
    | true =>
      refine .inr ⟨?_, blocked_of_writing hm hh hd hne.symm hmay hmay' hw⟩
      by_contra hn
      rcases hk.writer on hon k hin hne.symm h d hh hd hn hw with hr | hr
      · rw [hmay] at hr
        cases hr
      · rw [hmay'] at hr
        cases hr

theorem Kin.meets_settled (hk : w.Kin G db) (hset : w.Settled w') : ∀ j ∈ G, ∀ k ∈ G,
    w'.home? j ≠ none → w'.home? k ≠ none → ¬w'.Apart j k :=
  fun j hj k hk' hj' hk'' ha => hk.meets j hj k hk' (fun hn => hj' ((hset.home?_none j).mpr hn))
    (fun hn => hk'' ((hset.home?_none k).mpr hn)) (hset.symm.apart ha)

section
variable (hk : w.Kin G db) (hset : w.Settled w')
  (hothers : ∀ k, k ≠ on → ∀ d, w.handle? k = some d → ∃ d', w'.handle? k = some d' ∧ d.Alike d')

include hk hset hothers

theorem Kin.before {k : Nat} (hin : k ∈ G) (hne : k ≠ on) {d' : Handle}
    (hd' : w'.handle? k = some d') : ∃ d, w.handle? k = some d ∧ d.Alike d' := by
  obtain ⟨d, hd, -⟩ := hk.handle k hin fun hn => home?_of_handle hd' ((hset.home?_none k).mpr hn)
  obtain ⟨d'', hd'', ha⟩ := hothers k hne d hd
  obtain rfl : d'' = d' := Option.some.inj (hd''.symm.trans hd')
  exact ⟨d, hd, ha⟩

variable (hon : on ∈ G) {h h' : Handle} (hh : w.handle? on = some h)
  (hh' : w'.handle? on = some h') (hgo : h.connection.Onward h'.connection)

include hon hh hgo

theorem Kin.writer_step {k : Nat} (hin : k ∈ G) (hne : k ≠ on) {d' : Handle}
    (hd' : w'.handle? k = some d') (hw : h'.connection.working ≠ none)
    (hw' : d'.connection.working ≠ none) :
    h'.connection.mayWrite = false ∨ d'.connection.mayWrite = false := by
  obtain ⟨d, hd, ha⟩ := hk.before hset hothers hin hne hd'
  have hm : h'.connection.mayWrite = h.connection.mayWrite := congrArg (·.2.2) hgo.around
  have hw₀ : d.connection.working ≠ none := ha.working ▸ hw'
  rw [hm, ha.mayWrite]
  rcases hgo.begun hw with hn | hfree
  · exact hk.writer on hon k hin hne.symm h d hh hd hn hw₀
  · cases hmay : h.connection.mayWrite with
    | false => exact .inl rfl
    | true =>
      refine .inr (Bool.eq_false_iff.mpr fun hmay' => ?_)
      have hm := hk.meets on hon k hin (home?_of_handle hh) (home?_of_handle hd)
      exact blocked_of_writing hm hh hd hne.symm hmay hmay' hw₀ hfree

include hh'

/-- One of them goes on, and the others see what it has committed. -/
theorem Kin.step : w'.Kin G h'.connection.committed ∧ db.Later h'.connection.committed := by
  obtain ⟨rfl, ho⟩ := hk.eq_of_handle hon hh
  have hmeets := hk.meets_settled hset
  have hwriter : ∀ k ∈ G, k ≠ on → ∀ d', w'.handle? k = some d' →
      h'.connection.working ≠ none → d'.connection.working ≠ none →
      h'.connection.mayWrite = false ∨ d'.connection.mayWrite = false :=
    fun k hin hne d' hd' => hk.writer_step hset hothers hon hh hgo hin hne hd'
  refine ⟨⟨(hgo.orderly ho).committed, fun k hin hopen => ?_, hmeets, hk.secluded.settled hset,
    fun j hj k hin hne d d' hd hd' hw hw' => ?_⟩, hgo.later ho⟩
  · by_cases hne : k = on
    · subst hne
      exact ⟨h', hh', rfl, hgo.orderly ho⟩
    · obtain ⟨d, hd, hc, hod⟩ := hk.handle k hin fun hn => hopen ((hset.home?_none k).mpr hn)
      obtain ⟨d', hd', ha⟩ := hothers k hne d hd
      have hsame : d'.connection.committed = h'.connection.committed :=
        (committed_eq_of_meets (hmeets on hon k hin (home?_of_handle hh') hopen) hh' hd').symm
      refine ⟨d', hd', hsame, hsame ▸ (hgo.orderly ho).committed, fun x hx => ?_⟩
      -- This store is inside a transaction, so nothing was committed on the other one.
      have hw : d.connection.working = some x := ha.working ▸ hx
      have hstay := hgo.stalled ho (hk.stalled hon hin hne hh hd (by simp [hw]))
      rw [hsame, hstay, ha.mayWrite, ← hc]
      exact hod.working x hw
  · by_cases hj' : j = on
    · subst hj'
      obtain rfl : h' = d := Option.some.inj (hh'.symm.trans hd)
      exact hwriter k hin hne.symm d' hd' hw hw'
    · by_cases hk' : k = on
      · subst hk'
        obtain rfl : h' = d' := Option.some.inj (hh'.symm.trans hd')
        exact (hwriter j hj hne d hd hw' hw).symm
      · obtain ⟨d₀, hd₀, ha⟩ := hk.before hset hothers hj hj' hd
        obtain ⟨d₁, hd₁, ha'⟩ := hk.before hset hothers hin hk' hd'
        rw [ha.mayWrite, ha'.mayWrite]
        exact hk.writer j hj k hin hne d₀ d₁ hd₀ hd₁ (ha.working ▸ hw) (ha'.working ▸ hw')

end

theorem Kin.still (hk : w.Kin G db) (hset : w.Settled w')
    (hsame : ∀ k ∈ G, w'.handle? k = w.handle? k) : w'.Kin G db where
  numbered := hk.numbered
  handle k hin hopen := by
    rw [hsame k hin]
    exact hk.handle k hin fun hn => hopen ((hset.home?_none k).mpr hn)
  meets := hk.meets_settled hset
  secluded := hk.secluded.settled hset
  writer j hj k hin hne h h' hh hh' :=
    hk.writer j hj k hin hne h h' (hsame j hj ▸ hh) (hsame k hin ▸ hh')

theorem Kin.touched (hk : w.Kin G db) (hset : w.Settled w')
    (hgo : ∀ h, w.handle? on = some h →
      ∃ h', w'.handle? on = some h' ∧ h.connection.Onward h'.connection)
    (hothers : ∀ k, k ≠ on → Touched w w' on k) : ∃ db', w'.Kin G db' ∧ db.Later db' := by
  by_cases hopen : on ∈ G ∧ w.home? on ≠ none
  · obtain ⟨h, hh, -⟩ := hk.handle on hopen.1 hopen.2
    obtain ⟨h', hh', hgo⟩ := hgo h hh
    exact ⟨_, hk.step hset (fun k hne d hd => (hothers k hne).alike hne hd) hopen.1 hh hh' hgo⟩
  · refine ⟨db, hk.still hset fun k hin => ?_, .refl db⟩
    by_cases hne : k = on
    · subst hne
      have hn : w.home? k = none := by
        by_contra hn
        exact hopen ⟨hin, hn⟩
      rw [handle?_of_closed hn, handle?_of_closed ((hset.home?_none k).mpr hn)]
    · refine (hothers k hne).of_apart ?_
      by_cases hon : on ∈ G
      · refine apart_of_closed ?_ (Ne.symm hne)
        by_contra hn
        exact hopen ⟨hon, hn⟩
      · exact hk.secluded on k hon hin

theorem Kin.call (hk : w.Kin G db) (on : Nat) (op : Operation Reply) :
    ∃ db', (w.call on op).1.Kin G db' ∧ db.Later db' :=
  hk.touched (settled_call w on op)
    (fun h hh => ⟨_, (handle_call hh op).2, h.onward_perform op⟩) fun _ _ => touched_call op

theorem Kin.enter (hk : w.Kin G db) (on : Nat) : ∃ db', (w.enter on).1.Kin G db' ∧ db.Later db' :=
  hk.touched (settled_enter w on)
    (fun h hh => ⟨_, (handle_enter hh).2, h.onward_enter⟩) fun _ hne => touched_enter hne

theorem Kin.leave (hk : w.Kin G db) (on : Nat) (entry : Entry) (outcome : Option Failure) :
    ∃ db', (w.leave on entry outcome).1.Kin G db' ∧ db.Later db' :=
  hk.touched (settled_leave w on entry outcome)
    (fun h hh => ⟨_, (handle_leave hh entry outcome).2, h.onward_leave entry outcome⟩)
    fun _ hne => touched_leave hne entry outcome

/-! ## Bodies -/

theorem Kin.block (hk : w.Kin G db) (on : Nat) {body : World → Trace}
    (hbody : ∀ w₁ d, w₁.Kin G d → ∃ d', d.Ascends ((body w₁).worlds.filterMap (·.shown G)) d' ∧
      (body w₁).world.Kin G d') :
    ∃ db', db.Ascends ((w.block on body).worlds.filterMap (·.shown G)) db' ∧
      (w.block on body).world.Kin G db' := by
  obtain ⟨d, hk₁, hl⟩ := hk.enter on
  unfold World.block
  generalize w.enter on = p at hk₁
  obtain ⟨w₁, result⟩ := p
  cases result with
  | error failure => exact ⟨d, .nil hl, hk₁⟩
  | ok entry =>
    obtain ⟨d', hasc, hk₂⟩ := hbody w₁ d hk₁
    obtain ⟨db', hk₃, hl'⟩ := hk₂.leave on entry (body w₁).outcome
    refine ⟨db', ?_, hk₃⟩
    have hall := (hk₁.ascends hl hasc).append (.nil hl')
    rwa [List.append_nil] at hall

/-- Whatever a body does, and on whatever stores, what it commits in their database is a history. -/
theorem Kin.follow (hk : w.Kin G db) (body : Body) :
    ∃ db', db.Ascends ((w.follow body).worlds.filterMap (·.shown G)) db' ∧
      (w.follow body).world.Kin G db' := by
  induction body generalizing w db with
  | done => exact ⟨db, .nil (.refl db), hk⟩
  | abort failure => exact ⟨db, .nil (.refl db), hk⟩
  | call on call next ih =>
    obtain ⟨d, hk₁, hl⟩ := hk.call on call.operation
    obtain ⟨db', hasc, hk₂⟩ := ih (w.call on call.operation).2 hk₁
    exact ⟨db', hk₁.ascends hl hasc, hk₂⟩
  | block on inner next ihInner ihNext =>
    have hblock : ∃ d,
        db.Ascends ((w.block on fun w => w.follow inner).worlds.filterMap (·.shown G)) d ∧
          (w.block on fun w => w.follow inner).world.Kin G d :=
      hk.block on fun w₁ d hk₁ => ihInner hk₁
    obtain ⟨d, hasc, hk₁⟩ := hblock
    obtain ⟨db', hasc', hk₂⟩ := ihNext (w.block on fun w => w.follow inner).outcome hk₁
    refine ⟨db', ?_, hk₂⟩
    change db.Ascends (List.filterMap _ (_ ++ _ :: _)) db'
    rw [List.filterMap_append]
    exact hasc.append (hk₁.ascends (.refl d) hasc')

end

end World

end PubSub
