import PubSub.Proofs.SharedDatabase

/-!
# Transaction blocks

Blocks on one store nest to any depth and come to one transaction, whatever
their bodies do with failures on the way. The exception are writes that stray
(`Effect.Strays`), and `block_atomic` says that there is no other. Blocks inside
on another database are settled by how they end themselves.
-/

namespace PubSub

namespace World

/-! ## The outermost block -/

structure Concluded (j : Nat) (start : Database) (t : Trace) : Prop where
  final : ∃ db, t.world.committed? j = some db ∧
    (t.outcome = none → start.writeAll (writesOf (onStore j t.executed)) = .ok db) ∧
    ((∀ e ∈ onStore j t.executed, ¬e.Strays) → t.outcome ≠ none → db = start)
  kept : (∀ e ∈ onStore j t.executed, e.after.committed = start) ↔
    ∀ e ∈ onStore j t.executed, ¬e.Strays
  worlds : (∀ e ∈ onStore j t.executed, ¬e.Strays) → ∀ w ∈ t.worlds, w.committed? j = some start
  room : start.lastMember + (onStore j t.executed).length < Database.lastId →
    ∀ e ∈ onStore j t.executed, ¬e.Strays

section
variable {w : World} {j opening : Nat} {c : Connection}

theorem concluded_still {start : Database} (hw : w.committed? j = some start) (failure : Failure) :
    Concluded j start (.still w (some failure)) where
  final := ⟨start, hw, (fun hn => by cases hn), fun _ _ => rfl⟩
  kept := by simp [Trace.still, onStore, onStores]
  worlds _ _ hw := by cases hw
  room _ _ he := by cases he

theorem concluded_left {d : Connection} (hd : d.working = some d.committed)
    (hw : w.committed? j = some d.committed) {t : Trace} (ht : Held j opening d t) :
    Concluded j d.committed (left j (.outermost opening) w t) := by
  obtain ⟨d', hd', hg⟩ := ht.handle
  obtain ⟨hout, hleave⟩ := handle_leave hd' (.outermost opening) t.outcome
  simp only [Handle.leave, ne_eq, not_true_eq_false, if_false] at hout hleave
  refine ⟨⟨_, committed?_of_handle hleave, fun hn => ?_, fun hs hn => ?_⟩, hg.kept,
    fun hs w' hw' => ?_, fun hr => ?_⟩
  · rcases Connection.settle_cases d' t.outcome with ⟨-, -, hk⟩ | ⟨⟨failure, hf⟩, -⟩
    · obtain ⟨-, db, hdb, hall⟩ := hg.whole _ hk
      rw [hd, Option.some.injEq] at hdb
      exact hdb ▸ hall
    · exact absurd (hn.symm.trans (hout.trans hf)) (by simp)
  · rcases Connection.settle_cases d' t.outcome with ⟨hf, -, -⟩ | ⟨-, hcom⟩
    · exact absurd (hout.trans hf) hn
    · exact hcom.trans (hg.committed hs)
  · rcases List.mem_cons.mp hw' with rfl | hw'
    · exact hw
    · exact ht.worlds hs w' hw'
  · obtain ⟨db, hdb⟩ := Option.ne_none_iff_exists'.mp (hg.room _ hd hr)
    exact (hg.whole db hdb).1

theorem concluded_block {body : World → Trace} (hh : w.handle? j = some ⟨opening, false, c⟩)
    (hbody : ∀ w₁ d, w.Settled w₁ → w₁.handle? j = some ⟨opening, true, d⟩ →
      Held j opening d (body w₁)) :
    Concluded j c.committed (w.block j body) := by
  have hw₁ := settled_enter w j
  obtain ⟨hr, hh₁⟩ := handle_enter hh
  unfold block
  generalize w.enter j = p at hw₁ hr hh₁
  obtain ⟨w₁, result⟩ := p
  simp only [Handle.enter, Bool.false_eq_true, if_false] at hw₁ hr hh₁
  rcases c.open?_cases with ⟨fault, d, ho, hu, -⟩ | ⟨d, ho, hu, -, hk⟩
  · rw [ho] at hr hh₁
    subst hr
    refine concluded_still ?_ _
    rw [committed?_of_handle hh₁, (hu.trans (Connection.rollback_unseen d)).committed]
  · rw [ho] at hr hh₁
    subst hr
    rw [← hu.committed] at hk ⊢
    exact concluded_left hk (committed?_of_handle hh₁) (hbody w₁ d hw₁ hh₁)

end

theorem block_beside {w : World} {i j : Nat} (ha : w.Apart i j) (body : Body) :
    (w.block i fun w => w.follow body).world.handle? j =
      ((w.block i fun w => w.follow body).worlds.getLast?.getD w).handle? j := by
  have hw := settled_enter w i
  have hh := (touched_enter ha.1.symm).of_apart ha
  unfold block
  split
  · rename_i w₁ failure heq
    rw [heq] at hh
    exact hh
  · rename_i w₁ entry heq
    rw [heq] at hw
    have ha' := (hw.trans (settled_follow w₁ body)).apart ha
    simp only [left, List.getLast?_cons, Option.getD_some, getLast_follow]
    exact (touched_leave ha.1.symm entry _).of_apart ha'

/-! ## Stores of one database -/

/-- Whether a store is open on the database of another one, or is that store. -/
def shares (w : World) (j k : Nat) : Bool :=
  k == j ||
    match w.home? k, w.home? j with
    | some a, some b => a.meets b
    | _, _ => false

theorem not_apart_iff {w : World} {k l : Nat} : ¬w.Apart k l ↔
    k = l ∨ ∃ home, w.home? k = some home ∧ w.home? l = some home ∧ home.meets home = true := by
  constructor
  · intro hn
    by_cases hne : k = l
    · exact .inl hne
    · refine .inr (Classical.byContradiction fun hno => hn ⟨hne, fun a ha b hb => ?_⟩)
      cases hm : a.meets b with
      | false => rfl
      | true =>
        obtain rfl := Home.eq_of_meets hm
        exact absurd ⟨a, ha, hb, hm⟩ hno
  · rintro (rfl | ⟨home, hk, hl, hm⟩) ⟨hne, hall⟩
    · exact hne rfl
    · rw [hall home hk home hl] at hm
      cases hm

theorem shares_iff {w : World} {j k : Nat} : w.shares j k = true ↔ ¬w.Apart k j := by
  rw [not_apart_iff]
  unfold shares
  rw [Bool.or_eq_true, beq_iff_eq]
  refine or_congr_right ?_
  cases w.home? k with
  | none => simp
  | some a =>
    cases w.home? j with
    | none => simp
    | some b =>
      constructor
      · intro hm
        obtain rfl := Home.eq_of_meets hm
        exact ⟨a, rfl, rfl, hm⟩
      · rintro ⟨home, ha, hb, hm⟩
        cases ha
        cases hb
        exact hm

theorem not_apart_trans {w : World} {j k l : Nat} (h : ¬w.Apart k l) (h' : ¬w.Apart l j) :
    ¬w.Apart k j := by
  rw [not_apart_iff] at *
  rcases h with rfl | ⟨home, hk, hl, hm⟩
  · exact h'
  · rcases h' with rfl | ⟨home', hl', hj, -⟩
    · exact .inr ⟨home, hk, hl, hm⟩
    · rw [hl, Option.some.injEq] at hl'
      exact .inr ⟨home, hk, hl' ▸ hj, hm⟩

theorem company_of_idle {w : World} {j : Nat} (hi : ∀ k, w.shares j k = true → w.Idle k) :
    Company w (w.shares j) fun _ => false where
  handle := hi
  meets k l hk hl := by
    rw [shares_iff] at hk hl
    exact not_apart_trans hk fun ha => hl ha.symm
  apart k l hk hl := by
    rw [shares_iff] at hl
    refine Classical.byContradiction fun hn => ?_
    rw [shares_iff.mpr (not_apart_trans hn hl)] at hk
    cases hk

/-! ## Nested blocks -/

/-- While a block runs its database stays as it was when the block began. If it ends well the
database becomes what all writes inside make of it, and if it fails it stays. All that holds exactly
if no write inside strayed, and for that it is enough that the numbers of the memberships do not run
out. Another database does not notice the end of the block. Whatever was called and opened on it
inside, it becomes what the writes make of it that were not taken back there. -/
theorem block_atomic {w : World} {i : Nat} {body : Body} (hi : w.Idle i)
    (hb : body.Within fun k => k = i ∨ w.Apart k i) :
    let t := w.block i fun w => w.follow body
    let writes := onStore i t.executed
    ∃ start final, w.committed? i = some start ∧ t.world.committed? i = some final ∧
      ((((∀ e ∈ writes, e.after.committed = start) ∧
          ∀ w' ∈ t.worlds, w'.committed? i = some start) ∧
          (t.outcome = none → start.writeAll (writesOf writes) = .ok final) ∧
          (t.outcome ≠ none → final = start)) ↔
        ∀ e ∈ writes, ¬e.Strays) ∧
      (start.lastMember + writes.length < Database.lastId → ∀ e ∈ writes, ¬e.Strays) ∧
      (∀ j, w.Apart i j → t.world.committed? j = (t.worlds.getLast?.getD w).committed? j) ∧
      ∀ j, (∀ k, w.shares j k = true → w.Idle k) →
        ∃ before after, w.committed? j = some before ∧ t.world.committed? j = some after ∧
          ((∀ e ∈ onStores (w.shares j) t.executed, ¬e.Strays) →
            before.writeAll (writesOf (onStores (w.shares j) t.lasting)) = .ok after) := by
  intro t writes
  obtain ⟨⟨opening, entered, c⟩, hh, rfl⟩ := hi
  have ht : Concluded i c.committed t := concluded_block hh fun w₁ d hw₁ hh₁ =>
    held_follow hh₁ (hb.mono fun k hk => hk.imp_right hw₁.apart)
  obtain ⟨final, hfinal, hall, hnothing⟩ := ht.final
  refine ⟨c.committed, final, committed?_of_handle hh, hfinal, ?_, ht.room,
    fun j ha => congrArg (Option.map _) (block_beside ha body), fun j hidle => ?_⟩
  · exact ⟨fun ⟨⟨hk, _⟩, _⟩ => ht.kept.mp hk,
      fun hs => ⟨⟨ht.kept.mpr hs, ht.worlds hs⟩, hall, hnothing hs⟩⟩
  · have hc := company_of_idle hidle
    have ht' : Together w (w.shares j) (fun _ => false) t :=
      together_block hc i (fun w₁ => settled_follow w₁ body) fun w₁ E₁ hc₁ => together_follow hc₁ body
    have hj : w.shares j j = true := shares_iff.mpr fun ha => ha.1 rfl
    obtain ⟨h, hh, -⟩ := hc.handle j hj
    obtain ⟨h', hh', -⟩ := (ht'.company hc).handle j hj
    have hout : outside (w.shares j) (fun _ => false) = w.shares j := by
      funext k
      simp [outside]
    refine ⟨_, _, committed?_of_handle hh, committed?_of_handle hh', fun hs => ?_⟩
    have := ht'.committed j hj _ _ (committed?_of_handle hh) (committed?_of_handle hh') hs
    rwa [hout] at this

def pair : World := { lone .fresh [] with stores := (lone .fresh []).stores ++ (lone .fresh []).stores }

/-- Writes to the first store, lets a block inside commit to the second one, and is aborted. -/
def committedAside : Body :=
  .call 0 (.registerTopic "t" "p" none (.plain true)) fun _ =>
    .block 1 (.call 1 (.registerTopic "u" "p" none (.plain true)) fun _ => .done) fun _ =>
      .abort .aborted

theorem block_atomic_committedAside :
    let t := pair.block 0 fun w => w.follow committedAside
    (onStore 0 t.executed).length = 1 ∧ t.world.committed? 0 = some .fresh ∧
      t.world.committed? 1 =
        (Database.fresh.writeAll (writesOf (onStores (pair.shares 1) t.lasting))).toOption ∧
      t.world.committed? 1 ≠ some .fresh := by
  intro t
  have ha : pair.Apart 1 0 := by
    refine ⟨by decide, fun a h b h' => ?_⟩
    cases h
    cases h'
    rfl
  have hb : committedAside.Within fun k => k = 0 ∨ pair.Apart k 0 :=
    ⟨.inl rfl, fun _ => ⟨.inr ha, ⟨.inr ha, fun _ => trivial⟩, fun _ => trivial⟩⟩
  have hidle : ∀ k, pair.shares 1 k = true → pair.Idle k := by
    intro k hk
    rcases not_apart_iff.mp (shares_iff.mp hk) with rfl | ⟨home, -, hh, hm⟩
    · exact ⟨_, rfl, rfl⟩
    · cases hh
      cases hm
  have hone : (onStore 0 t.executed).length = 1 := by decide +kernel
  have hout : t.outcome.isSome = true := by decide +kernel
  have hopen : t.executed.map (·.2.before.working.isSome) = [true, true] := by decide +kernel
  have htopics : (t.world.committed? 1).map (·.topics.length) = some 1 := by decide +kernel
  obtain ⟨start, final, hs, hf, hiff, hroom, -, hbeside⟩ := block_atomic ⟨_, rfl, rfl⟩ hb
  obtain ⟨before, after, hbefore, hafter, hlasting⟩ := hbeside 1 hidle
  obtain rfl : Database.fresh = start := Option.some.inj hs
  obtain rfl : Database.fresh = before := Option.some.inj hbefore
  have hfinal := (hiff.mpr (hroom (by rw [hone]; decide))).2.2 (Option.isSome_iff_ne_none.mp hout)
  have hkept := hlasting fun e he hs => by
    obtain ⟨p, hp, rfl⟩ := List.mem_map.mp he
    have := List.mem_map_of_mem (f := fun p : Nat × Effect => p.2.before.working.isSome)
      (List.mem_filter.mp hp).1
    rw [hopen, hs.1] at this
    simp at this
  refine ⟨hone, hf.trans (congrArg some hfinal), ?_, fun he => ?_⟩
  · rw [hafter, hkept]
    rfl
  · rw [he] at htopics
    exact absurd htopics (by decide)

def exhausted : Database :=
  { Database.fresh with
    members := [⟨Database.lastId, "a", "s", "[]", 0, none⟩]
    lastMember := Database.lastId }

/-- Goes on after a membership that finds no number left, and registers a topic. -/
def strayed : Body :=
  .call 0 (.addSubscriber "t" "s" (.list []) (some 0) none) fun _ =>
    .call 0 (.registerTopic "t" "p" none (.plain false)) fun _ => .done

/-- The block fails and the topic stays. -/
theorem block_keeps_stray :
    let t := (lone exhausted []).block 0 fun w => w.follow strayed
    (lone exhausted []).Idle 0 ∧ (strayed.Within fun k => k = 0) ∧ t.outcome ≠ none ∧
      t.world.committed? 0 ≠ (lone exhausted []).committed? 0 := by
  intro t
  have hout : t.outcome.isSome = true := by decide +kernel
  have htopics : (t.world.committed? 0).map (·.topics.length) = some 1 := by decide +kernel
  refine ⟨⟨_, lone_handle exhausted [], rfl⟩, ⟨rfl, fun _ => ⟨rfl, fun _ => trivial⟩⟩,
    Option.isSome_iff_ne_none.mp hout, fun he => ?_⟩
  rw [he] at htopics
  exact absurd htopics (by decide)

end World

end PubSub
