import PubSub.Proofs.Effects

/-!
# Bodies of transaction blocks

What callers may do inside a block: calls and further blocks, on this store and
on others, where each failure is taken in and decides how to go on. A trace says
how a body went. For a store that is inside a block, `held_follow` says that its
connection goes on with the writes of the body and with nothing else.
-/

namespace PubSub

/-- The rest of a block. It may look at what a call returned and at how a block inside ended. -/
inductive Body where
  | done
  | abort (failure : Failure)
  | call (on : Nat) (call : Call) (next : Except Failure Reply → Body)
  | block (on : Nat) (inner : Body) (next : Option Failure → Body)

def Body.Within (P : Nat → Prop) : Body → Prop
  | .done | .abort _ => True
  | .call on _ next => P on ∧ ∀ result, (next result).Within P
  | .block on inner next => P on ∧ inner.Within P ∧ ∀ outcome, (next outcome).Within P

theorem Body.Within.mono {P Q : Nat → Prop} (h : ∀ k, P k → Q k) :
    ∀ {body : Body}, body.Within P → body.Within Q
  | .done, _ | .abort _, _ => trivial
  | .call on _ _, hb => ⟨h on hb.1, fun result => (hb.2 result).mono h⟩
  | .block on _ _, hb => ⟨h on hb.1, hb.2.1.mono h, fun outcome => (hb.2.2 outcome).mono h⟩

/-! ## Traces -/

structure Trace where
  world : World
  outcome : Option Failure
  worlds : List World
  /-- The writes that were executed, each with its store. -/
  executed : List (Nat × Effect)
  lasting : List (Nat × Effect)

/-- The writes to some stores. -/
def onStores (P : Nat → Bool) (es : List (Nat × Effect)) : List Effect :=
  (es.filter fun e => P e.1).map (·.2)

def onStore (i : Nat) (es : List (Nat × Effect)) : List Effect := onStores (· == i) es

theorem onStores_append (P : Nat → Bool) (es es' : List (Nat × Effect)) :
    onStores P (es ++ es') = onStores P es ++ onStores P es' := by
  simp [onStores]

theorem onStores_tagged (P : Nat → Bool) (i : Nat) (es : List Effect) :
    onStores P (es.map (i, ·)) = if P i then es else [] := by
  cases h : P i with
  | true => simp [onStores, List.filter_map, Function.comp_def, h]
  | false => simp [onStores, List.filter_map, Function.comp_def, h]

theorem onStores_drop (P : Nat → Bool) (i : Nat) (es : List (Nat × Effect)) :
    onStores P (es.filter (·.1 != i)) = onStores (fun k => P k && k != i) es := by
  simp [onStores, List.filter_filter]

theorem onStores_drop_of_not {P : Nat → Bool} {i : Nat} (h : P i = false)
    (es : List (Nat × Effect)) : onStores P (es.filter (·.1 != i)) = onStores P es := by
  rw [onStores_drop]
  congr 1
  funext k
  by_cases hk : k = i
  · simp [hk, h]
  · simp [hk]

theorem onStores_or_of_nil {P Q : Nat → Bool} {es : List (Nat × Effect)} (h : onStores Q es = []) :
    onStores (fun k => P k || Q k) es = onStores P es := by
  simp only [onStores, List.map_eq_nil_iff, List.filter_eq_nil_iff] at h
  unfold onStores
  congr 1
  exact List.filter_congr fun e he => by simp [h e he]

theorem onStores_of_subset {P Q : Nat → Bool} (h : ∀ k, P k = true → Q k = true)
    {es : List (Nat × Effect)} (hn : onStores Q es = []) : onStores P es = [] := by
  simp only [onStores, List.map_eq_nil_iff, List.filter_eq_nil_iff] at hn ⊢
  exact fun e he hp => hn e he (h e.1 hp)

namespace Trace

def still (w : World) (outcome : Option Failure) : Trace := ⟨w, outcome, [], [], []⟩

def followedBy (t t' : Trace) : Trace where
  world := t'.world
  outcome := t'.outcome
  worlds := t.worlds ++ t.world :: t'.worlds
  executed := t.executed ++ t'.executed
  lasting := t.lasting ++ t'.lasting

end Trace

namespace World

def called (w : World) (on : Nat) (call : Call) : Trace where
  world := (w.call on call.operation).1
  outcome := none
  worlds := []
  executed := ((w.handle? on).elim [] (·.effects call.operation)).map (on, ·)
  lasting := ((w.handle? on).elim [] (·.lasting call.operation)).map (on, ·)

def left (on : Nat) (entry : Entry) (w : World) (t : Trace) : Trace where
  world := (t.world.leave on entry t.outcome).1
  outcome := (t.world.leave on entry t.outcome).2
  worlds := w :: t.worlds
  executed := t.executed
  lasting :=
    match entry, (t.world.leave on entry t.outcome).2 with
    | .outermost _, some _ => t.lasting.filter (·.1 != on)
    | _, _ => t.lasting

theorem onStores_left {P : Nat → Bool} {on : Nat} (h : P on = false) (entry : Entry) (w : World)
    (t : Trace) : onStores P (left on entry w t).lasting = onStores P t.lasting := by
  unfold left
  simp only
  split
  · exact onStores_drop_of_not h _
  · rfl

def block (w : World) (on : Nat) (body : World → Trace) : Trace :=
  match w.enter on with
  | (w, .error failure) => .still w (some failure)
  | (w, .ok entry) => left on entry w (body w)

def follow : World → Body → Trace
  | w, .done => .still w none
  | w, .abort failure => .still w (some failure)
  | w, .call on call next =>
    let (world, result) := w.call on call.operation
    (w.called on call).followedBy (world.follow (next result))
  | w, .block on inner next =>
    let t := w.block on fun w => w.follow inner
    t.followedBy (t.world.follow (next t.outcome))

/-- No body opens or closes a store. -/
theorem settled_block {w : World} {on : Nat} {body : World → Trace}
    (hbody : ∀ w₁ : World, w₁.Settled (body w₁).world) : w.Settled (w.block on body).world := by
  have he := settled_enter w on
  unfold block
  split
  · rename_i w₁ failure heq
    rwa [heq] at he
  · rename_i w₁ entry heq
    rw [heq] at he
    exact he.trans ((hbody w₁).trans (settled_leave _ on entry _))

theorem settled_follow (w : World) (body : Body) : w.Settled (w.follow body).world := by
  induction body generalizing w with
  | done => exact .refl w
  | abort failure => exact .refl w
  | call on call next ih => exact (settled_call w on call.operation).trans (ih _ _)
  | block on inner next ihInner ihNext =>
    exact (settled_block fun w₁ => ihInner w₁).trans (ihNext _ _)

theorem getLast_follow (w : World) (body : Body) :
    (w.follow body).worlds.getLast?.getD w = (w.follow body).world := by
  induction body generalizing w with
  | done => rfl
  | abort failure => rfl
  | call on call next ih => simpa [follow, Trace.followedBy, called, List.getLast?_cons] using ih _ _
  | block on inner next ihInner ihNext =>
    simpa [follow, Trace.followedBy, List.getLast?_append, List.getLast?_cons] using ihNext _ _

/-! ## Inside a block -/

/-- What a trace comes to for a store inside a block: its connection has gone on. -/
structure Held (j opening : Nat) (c : Connection) (t : Trace) : Prop where
  handle : ∃ c', t.world.handle? j = some ⟨opening, true, c'⟩ ∧ c.Goes c' (onStore j t.executed)
  worlds : (∀ e ∈ onStore j t.executed, ¬e.Strays) → ∀ w ∈ t.worlds,
    w.committed? j = some c.committed

section
variable {w : World} {j opening : Nat} {c : Connection}

theorem held_still (hh : w.handle? j = some ⟨opening, true, c⟩) (outcome : Option Failure) :
    Held j opening c (.still w outcome) :=
  ⟨⟨c, hh, .unseen (.refl c) rfl⟩, fun _ _ hw => by cases hw⟩

theorem Held.followedBy {t t' : Trace} (h : Held j opening c t)
    (h' : ∀ c', t.world.handle? j = some ⟨opening, true, c'⟩ → Held j opening c' t') :
    Held j opening c (t.followedBy t') := by
  obtain ⟨c', hc', hg⟩ := h.handle
  obtain ⟨⟨c'', hc'', hg'⟩, hws'⟩ := h' c' hc'
  have hes : onStore j (t.followedBy t').executed = onStore j t.executed ++ onStore j t'.executed :=
    onStores_append _ _ _
  refine ⟨⟨c'', hc'', hes ▸ hg.trans hg'⟩, fun hs w hw => ?_⟩
  rw [hes] at hs
  have hcom := hg.committed fun e he => hs e (List.mem_append_left _ he)
  rcases List.mem_append.mp hw with hw | hw
  · exact h.worlds (fun e he => hs e (List.mem_append_left _ he)) w hw
  · rcases List.mem_cons.mp hw with rfl | hw
    · rw [committed?_of_handle hc', hcom]
    · rw [hws' (fun e he => hs e (List.mem_append_right _ he)) w hw, hcom]

theorem held_called {on : Nat} (hon : on = j ∨ w.Apart on j)
    (hh : w.handle? j = some ⟨opening, true, c⟩) (call : Call) :
    Held j opening c (w.called on call) := by
  refine ⟨?_, fun _ _ hw => by cases hw⟩
  rcases hon with rfl | ha
  · have hg := Handle.goes_perform (h := ⟨opening, true, c⟩) rfl call.operation
    refine ⟨_, (handle_call hh call.operation).2, ?_⟩
    simpa [called, onStore, onStores_tagged, hh] using hg
  · refine ⟨c, ((touched_call call.operation).of_apart ha).trans hh, ?_⟩
    simpa [called, onStore, onStores_tagged, ha.1] using
      Connection.Goes.unseen (.refl c) (c := c) rfl

theorem held_block {on : Nat} {body : World → Trace} (hon : on = j ∨ w.Apart on j)
    (hh : w.handle? j = some ⟨opening, true, c⟩)
    (hset : ∀ w₁ : World, w₁.Settled (body w₁).world)
    (hbody : ∀ w₁, w.Settled w₁ → w₁.handle? j = some ⟨opening, true, c⟩ →
      Held j opening c (body w₁)) :
    Held j opening c (w.block on body) := by
  have hw₁ := settled_enter w on
  have hh₁ : (w.enter on).1.handle? j = some ⟨opening, true, c⟩ := by
    rcases hon with rfl | ha
    · exact (handle_enter hh).2
    · exact ((touched_enter ha.1.symm).of_apart ha).trans hh
  have hjoin : on = j → (w.enter on).2 = .ok .joined := by
    rintro rfl
    exact (handle_enter hh).1
  unfold block
  generalize w.enter on = p at hw₁ hh₁ hjoin
  obtain ⟨w₁, result⟩ := p
  simp only at hw₁ hh₁ hjoin
  cases result with
  | error failure => exact held_still hh₁ _
  | ok entry =>
    obtain ⟨⟨c', hc', hg⟩, hws⟩ := hbody w₁ hw₁ hh₁
    refine ⟨⟨c', ?_, hg⟩, fun hs w hw => ?_⟩
    · rcases hon with rfl | ha
      · cases hjoin rfl
        exact hc'
      · have ha' := (hw₁.trans (hset w₁)).apart ha
        exact ((touched_leave ha.1.symm entry _).of_apart ha').trans hc'
    · rcases List.mem_cons.mp hw with rfl | hw
      · exact committed?_of_handle hh₁
      · exact hws hs w hw

theorem held_follow {body : Body} (hh : w.handle? j = some ⟨opening, true, c⟩)
    (hb : body.Within fun k => k = j ∨ w.Apart k j) : Held j opening c (w.follow body) := by
  induction body generalizing w c with
  | done => exact held_still hh none
  | abort failure => exact held_still hh _
  | call on call next ih =>
    have hw := settled_call w on call.operation
    exact (held_called hb.1 hh call).followedBy fun c' hc' =>
      ih _ hc' ((hb.2 _).mono fun k hk => hk.imp_right hw.apart)
  | block on inner next ihInner ihNext =>
    have hw : w.Settled (w.block on fun w => w.follow inner).world :=
      settled_block fun w₁ => settled_follow w₁ inner
    have ht : Held j opening c (w.block on fun w => w.follow inner) :=
      held_block hb.1 hh (fun w₁ => settled_follow w₁ inner) fun w₁ hw₁ hh₁ =>
        ihInner hh₁ (hb.2.1.mono fun k hk => hk.imp_right hw₁.apart)
    exact ht.followedBy fun c' hc' =>
      ihNext _ hc' ((hb.2.2 _).mono fun k hk => hk.imp_right hw.apart)

end

/-! ## One store alone -/

def GoesBy (i : Nat) (t t' : Trace) : Prop :=
  t.outcome = t'.outcome ∧ ∃ h, t.world.handle? i = some h ∧ t'.world.handle? i = some h

/-- What happens on a store goes by its handle. -/
theorem block_goesBy {w w' : World} {i : Nat} {h : Handle} (hh : w.handle? i = some h)
    (hh' : w'.handle? i = some h) {body : World → Trace}
    (hbody : ∀ w₁ w₁' h₁, w₁.handle? i = some h₁ → w₁'.handle? i = some h₁ →
      GoesBy i (body w₁) (body w₁')) : GoesBy i (w.block i body) (w'.block i body) := by
  obtain ⟨hr, hin⟩ := handle_enter hh
  obtain ⟨hr', hin'⟩ := handle_enter hh'
  unfold block
  generalize w.enter i = p at hr hin
  generalize w'.enter i = p' at hr' hin'
  obtain ⟨w₁, result⟩ := p
  obtain ⟨w₁', result'⟩ := p'
  obtain rfl : result = h.enter.2 := hr
  obtain rfl : result' = h.enter.2 := hr'
  cases h.enter.2 with
  | error failure => exact ⟨rfl, _, hin, hin'⟩
  | ok entry =>
    obtain ⟨hout, h₂, hh₂, hh₂'⟩ := hbody w₁ w₁' _ hin hin'
    obtain ⟨hl, hend⟩ := handle_leave hh₂ entry (body w₁).outcome
    obtain ⟨hl', hend'⟩ := handle_leave hh₂' entry (body w₁').outcome
    rw [← hout] at hl' hend'
    refine ⟨hl.trans ?_, _, hend, ?_⟩
    · simpa only [left, hout] using hl'.symm
    · simpa only [left, hout] using hend'

theorem follow_goesBy {w w' : World} {i : Nat} {body : Body} (hb : body.Within (· = i)) {h : Handle}
    (hh : w.handle? i = some h) (hh' : w'.handle? i = some h) :
    GoesBy i (w.follow body) (w'.follow body) := by
  induction body generalizing w w' h with
  | done => exact ⟨rfl, h, hh, hh'⟩
  | abort failure => exact ⟨rfl, h, hh, hh'⟩
  | call on call next ih =>
    obtain ⟨rfl, hnext⟩ := hb
    obtain ⟨hr, hafter⟩ := handle_call hh call.operation
    obtain ⟨hr', hafter'⟩ := handle_call hh' call.operation
    have hsame : (w.call on call.operation).2 = (w'.call on call.operation).2 := hr.trans hr'.symm
    have hgoes := ih _ (hnext (w.call on call.operation).2) hafter hafter'
    simp only [follow, Trace.followedBy, GoesBy]
    rw [← hsame]
    exact hgoes
  | block on inner next ihInner ihNext =>
    obtain ⟨rfl, hinner, hnext⟩ := hb
    obtain ⟨hout, h₁, hh₁, hh₁'⟩ : GoesBy on (w.block on fun w => w.follow inner)
        (w'.block on fun w => w.follow inner) :=
      block_goesBy hh hh' fun w₁ w₁' h₁ hh₁ hh₁' => ihInner hinner hh₁ hh₁'
    have hgoes := ihNext _ (hnext (w.block on fun w => w.follow inner).outcome) hh₁ hh₁'
    simp only [follow, Trace.followedBy, GoesBy]
    rw [← hout]
    exact hgoes

end World

end PubSub
