import PubSub.Proofs.Recovery
import PubSub.Proofs.Rules
import PubSub.Proofs.Threads

/-!
# Transactions among other tasks

While a task waits, for the lock of its store or for a statement, other tasks may do
anything, and closing the store is a part of that. A transaction of its own among
others (`World.guarded`) runs on the connection that the store has when the lock is
granted. Around a body it is a block (`World.blockAmid`), around the statements of a
call it is that call (`World.callAmid`); where nobody comes in between these are what
`World.enter`, `World.leave` and `World.call` are. Whatever the store objects to
reaches the caller as a failure of the store, unless it is that the connection is gone
(`objections_reach_callers`).
-/

namespace PubSub

/-- Where a task waits that has a transaction of its own. -/
inductive Pause where
  | lock
  | begin
  | statement (n : Nat)
  | commit
  | rollback

inductive Objection where
  | notOpen (path : List Text.Point)
  | fault (fault : Fault)
  /-- The connection on which the transaction began is closed. -/
  | closed
  deriving DecidableEq

def Objection.failure : Objection → Failure
  | .notOpen path => .store (.notOpen path)
  | .fault cause => .store (.transaction cause)
  | .closed => .disconnected

/-- How far a transaction came: what the store had against it, if anything, and what it came to. -/
structure Attempt (α : Type) where
  world : World
  objection : Option Objection
  result : Except Failure α

def Failure.objection? : Failure → Option Objection
  | .engine fault => some (.fault fault)
  | _ => none

/-- Whether the statements of a call are those of further calls that join its transaction. These run
on the connection that the store has by then, and other statements on that of the BEGIN. -/
def Call.joins : Call → Bool
  | .applyConfirmation .. | .handleResponse .. | .heal .. => true
  | _ => false

theorem Failure.leaving_of_not_engine {failure : Failure} (h : ∀ fault, failure ≠ .engine fault) :
    failure.leaving = failure := by
  cases failure with
  | engine fault => exact absurd rfl (h fault)
  | _ => rfl

theorem Call.recover_objection (call : Call) (objection : Objection) :
    (call.operation.recover objection.failure).result = .error objection.failure := by
  cases call <;> cases objection <;> rfl

theorem Call.recover_fromRegistry (call : Call) {failure failure' : Failure}
    (h : failure.FromRegistry) (hr : (call.operation.recover failure).result = .error failure') :
    failure'.FromRegistry := by
  cases call with
  | checkPublish topic => cases failure <;> cases hr <;> exact h
  | _ =>
    cases hr
    exact h

namespace World

variable {α : Type}

def link? (w : World) (i : Nat) : Option (Store × Link) :=
  w.stores[i]?.bind fun s => s.link.map fun link => (s, link)

/-- A store with the connection that one of its openings gave, while that is not closed. -/
def linkOf? (w : World) (i opening : Nat) : Option (Store × Link) :=
  (w.link? i).filter fun (s, _) => s.openings = opening

section
variable (i : Nat) (others : Pause → World → World)

/-! ## A transaction -/

/-- Gives a transaction up after a failure, where its connection is not gone. -/
def abandon (opening : Nat) (w : World) (objection : Option Objection) (failure : Failure) :
    Attempt α :=
  match w.linkOf? i opening with
  | none => ⟨w.setEntered i false, some .closed, .error .disconnected⟩
  | some (s, link) =>
    let (notes, c) := (w.connection i link).rollback
    let w := (others .rollback (w.putBack i s link c)).takeNotes i notes
    ⟨w.setEntered i false, objection, .error failure.leaving⟩

def conclude (opening : Nat) (a : Attempt α) : Attempt α :=
  match a.result with
  | .error failure => abandon i others opening a.world a.objection failure
  | .ok value =>
    match a.world.linkOf? i opening with
    | none => ⟨a.world.setEntered i false, some .closed, .error .disconnected⟩
    | some (s, link) =>
      let (fault, c) := (a.world.connection i link).commit
      let w := others .commit (a.world.putBack i s link c)
      match fault with
      | none => ⟨w.setEntered i false, none, .ok value⟩
      | some fault => abandon i others opening w (some (.fault fault)) (.engine fault)

/-- A transaction of its own on a store. Its body is told which opening gave the connection. -/
def guarded (w : World) (s : Store) (body : Nat → World → Attempt α) : Attempt α :=
  if !s.isOpen then ⟨w, some (.notOpen s.path), .error (.store (.notOpen s.path))⟩
  else
    let w := others .lock w
    match w.link? i with
    | none => ⟨w, some (.notOpen s.path), .error (.store (.notOpen s.path))⟩
    | some (s, link) =>
      let (fault, c) := (w.connection i link).open?
      let w := others .begin ((w.putBack i s link c).setEntered i true)
      match fault with
      | none => conclude i others s.openings (body s.openings w)
      | some fault => abandon i others s.openings w (some (.fault fault)) (.engine fault)

/-! ## Blocks and calls -/

def blockAmid (w : World) (s : Store) (body : World → World × Except Failure α) : Attempt α :=
  guarded i others w s fun _ w =>
    match body w with
    | (w, .ok value) => ⟨w, none, .ok value⟩
    | (w, .error failure) => ⟨w, failure.objection?, .error failure⟩

/-- The connection on which a statement of a call runs. -/
def seat? (joins : Bool) (opening : Nat) (w : World) : Option (Store × Link) :=
  if joins then w.link? i else w.linkOf? i opening

/-- The statements of a script, from the `n`-th on. -/
def play (joins : Bool) (opening : Nat) : Nat → World → Script α → Attempt α
  | _, w, .done value => ⟨w, none, .ok value⟩
  | _, w, .fail failure => ⟨w, none, .error failure⟩
  | n, w, .note note next => play joins opening n (takeNote i w note) next
  | n, w, .look table next =>
    match w.seat? i joins opening with
    | none => ⟨w, some .closed, .error (if joins then .unlinked else .disconnected)⟩
    | some (s, link) =>
      let (found, c) := (w.connection i link).look table
      let w := others (.statement n) (w.putBack i s link c)
      match found with
      | .ok db => play joins opening (n + 1) w (next db)
      | .error fault => ⟨w, some (.fault fault), .error (.engine fault)⟩
  | n, w, .write write next =>
    match w.seat? i joins opening with
    | none => ⟨w, some .closed, .error (if joins then .unlinked else .disconnected)⟩
    | some (s, link) =>
      let (result, c) := (w.connection i link).write write
      let w := others (.statement n) (w.putBack i s link c)
      match result with
      | .ok rows => play joins opening (n + 1) w (next rows)
      | .error failure => ⟨w, failure.objection?, .error failure⟩

def callAmid (w : World) (s : Store) (call : Call) : Attempt Reply :=
  let op := call.operation
  match op.refusal with
  | some refusal => ⟨w, none, .error refusal⟩
  | none =>
    let a := guarded i others w s fun opening w => play i others call.joins opening 0 w op.body
    let last :=
      match a.result with
      | .ok last => last
      | .error failure => op.recover failure
    ⟨a.world.takeNotes i last.notes, a.objection, last.result⟩

end

/-! ## What the caller is told -/

/-- The caller is told what the store has against a transaction. Where it has nothing, the result
has a property. -/
def Conveys (P : Except Failure α → Prop) (a : Attempt α) : Prop :=
  match a.objection with
  | some objection => a.result = .error objection.failure
  | none => P a.result

/-- Inside a transaction faults are told as they are, and where the connection is gone there is no
answer. -/
def ConveysRaw (P : Except Failure α → Prop) (i opening : Nat) (a : Attempt α) : Prop :=
  match a.objection with
  | some (.notOpen _) => False
  | some (.fault fault) => a.result = .error (.engine fault)
  | some .closed => (∃ failure, a.result = .error failure) ∧ a.world.linkOf? i opening = none
  | none => P a.result ∧ ∀ fault, a.result ≠ .error (.engine fault)

section
variable {P : Except Failure α → Prop} {i opening : Nat} {others : Pause → World → World}
  {w : World}

theorem conveys_abandon_fault (w : World) (fault : Fault) :
    Conveys P (abandon i others opening w (some (.fault fault)) (.engine fault)) := by
  unfold abandon
  split <;> exact rfl

theorem conveys_conclude_ok {a : Attempt α} {value : α} (hr : a.result = .ok value)
    (hp : P (.ok value)) : Conveys P (conclude i others opening a) := by
  simp only [conclude, hr]
  split
  · exact rfl
  · split
    · exact hp
    · exact conveys_abandon_fault _ _

theorem conveys_conclude {a : Attempt α} (h : ConveysRaw P i opening a) :
    Conveys P (conclude i others opening a) := by
  unfold ConveysRaw at h
  split at h
  · exact h.elim
  · rename_i fault ho
    simp only [conclude, h, ho]
    exact conveys_abandon_fault _ fault
  · obtain ⟨⟨failure, hr⟩, hgone⟩ := h
    simp only [conclude, hr, abandon, hgone]
    exact rfl
  · rename_i ho
    obtain ⟨hp, hraw⟩ := h
    cases hr : a.result with
    | ok value => exact conveys_conclude_ok hr (hr ▸ hp)
    | error failure =>
      rw [hr] at hp hraw
      simp only [conclude, hr, ho, abandon]
      split
      · exact rfl
      · simp only [Conveys]
        rwa [Failure.leaving_of_not_engine fun fault he => hraw fault (he ▸ rfl)]

theorem conveys_guarded (w : World) (s : Store) {body : Nat → World → Attempt α}
    (hb : ∀ opening w, ConveysRaw P i opening (body opening w)) :
    Conveys P (guarded i others w s body) := by
  unfold guarded
  split
  · exact rfl
  · simp only
    split
    · exact rfl
    · split
      · exact conveys_conclude (hb _ _)
      · exact conveys_abandon_fault _ _

/-! ### Blocks and calls -/

theorem conveys_blockAmid (w : World) (s : Store) (body : World → World × Except Failure α) :
    Conveys (fun result => (∃ w, (body w).2 = result) ∧ ∀ fault, result ≠ .error (.engine fault))
      (blockAmid i others w s body) := by
  refine conveys_guarded w s fun opening w => ?_
  rcases hb : body w with ⟨w', failure | value⟩
  · cases failure with
    | engine fault => exact rfl
    | _ => exact ⟨⟨⟨w, by rw [hb]⟩, by simp⟩, by simp⟩
  · exact ⟨⟨⟨w, by rw [hb]⟩, by simp⟩, by simp⟩

theorem linkOf?_of_seat? {joins : Bool} (h : w.seat? i joins opening = none) :
    w.linkOf? i opening = none := by
  cases joins with
  | false => exact h
  | true => simp [linkOf?, show w.link? i = none from h]

theorem conveysRaw_play {s : Script α} (hf : s.Fails Failure.FromRegistry) {Q : α → Prop}
    (he : s.Ends Q) (joins : Bool) (n : Nat) (w : World) :
    ConveysRaw (fun
      | .ok value => Q value
      | .error failure => failure.FromRegistry) i opening (play i others joins opening n w s) := by
  induction s generalizing n w with
  | done value => exact ⟨he, by simp [play]⟩
  | fail failure =>
    refine ⟨hf, fun fault h => ?_⟩
    cases h
    exact hf
  | note note next ih => exact ih hf he n _
  | look table next ih =>
    unfold play
    split
    · rename_i hseat
      exact ⟨⟨_, rfl⟩, linkOf?_of_seat? hseat⟩
    · simp only
      split
      · exact ih _ (hf _) (he _) _ _
      · exact rfl
  | write write next ih =>
    unfold play
    split
    · rename_i hseat
      exact ⟨⟨_, rfl⟩, linkOf?_of_seat? hseat⟩
    · rename_i s link _
      simp only
      rcases (w.connection i link).write_cases write with ⟨failure, c, hw, hc, -⟩ | ⟨rows, c, hw, -⟩
      · simp only [hw]
        cases failure with
        | engine fault => exact rfl
        | oversized => exact ⟨trivial, by simp⟩
        | _ => exact hc.elim
      · simp only [hw]
        exact ih _ (hf _) (he _) _ _

theorem conveys_callAmid (w : World) (s : Store) (call : Call) :
    Conveys (fun result => ∀ failure, result = .error failure → failure.FromRegistry)
      (callAmid i others w s call) := by
  have hfails := call.fails_by_rules
  unfold callAmid
  simp only
  split
  · rename_i refusal hr
    intro failure he
    cases he
    exact hfails.refusal refusal hr
  · have hbody := fun (opening : Nat) (w : World) =>
      (conveysRaw_play hfails.body hfails.last call.joins 0 w :
        ConveysRaw _ i opening (play i others call.joins opening 0 w call.operation.body))
    have hconveys : Conveys _ (guarded i others w s _) := conveys_guarded w s hbody
    generalize guarded i others w s _ = a at hconveys ⊢
    cases ho : a.objection with
    | some objection =>
      simp only [Conveys, ho] at hconveys ⊢
      rw [hconveys]
      exact call.recover_objection objection
    | none =>
      simp only [Conveys, ho] at hconveys ⊢
      cases hr : a.result with
      | ok last =>
        rw [hr] at hconveys
        exact hconveys
      | error failure =>
        rw [hr] at hconveys
        exact fun _ he => call.recover_fromRegistry hconveys he

end

/-! ## Connections that stay -/

theorem link?_eq_some {w : World} {i : Nat} {s : Store} {link : Link} :
    w.link? i = some (s, link) ↔ w.stores[i]? = some s ∧ s.link = some link := by
  unfold link?
  rw [Option.bind_eq_some_iff]
  constructor
  · rintro ⟨t, ht, hl⟩
    obtain ⟨l, hl, he⟩ := Option.map_eq_some_iff.mp hl
    cases he
    exact ⟨ht, hl⟩
  · rintro ⟨hs, hl⟩
    exact ⟨s, hs, by rw [hl]; rfl⟩

theorem linkOf?_eq_some {w : World} {i opening : Nat} {s : Store} {link : Link} :
    w.linkOf? i opening = some (s, link) ↔
      w.stores[i]? = some s ∧ s.link = some link ∧ s.openings = opening := by
  simp [linkOf?, Option.filter_eq_some_iff, link?_eq_some, and_assoc]

def Linked (w : World) (i opening : Nat) : Prop := (w.linkOf? i opening).isSome

def Upholds (i : Nat) (f : World → World) : Prop :=
  ∀ w opening, w.Linked i opening → (f w).Linked i opening

section
variable {w : World} {i opening : Nat} {others : Pause → World → World}

theorem linked_iff : w.Linked i opening ↔
    ∃ s link, w.stores[i]? = some s ∧ s.link = some link ∧ s.openings = opening := by
  unfold Linked
  rw [Option.isSome_iff_exists]
  simp [linkOf?_eq_some]

theorem linked_setStore {s : Store} (hs : w.stores[i]? = some s) {s' : Store}
    (hl : s'.link.isSome) (ho : s'.openings = opening) : (w.setStore i s').Linked i opening := by
  obtain ⟨link, hlink⟩ := Option.isSome_iff_exists.mp hl
  have hat := getElem?_setStore w i hs s' i
  rw [if_pos rfl] at hat
  exact linked_iff.mpr ⟨s', link, hat, hlink, ho⟩

theorem linked_putBack {s : Store} (hs : w.stores[i]? = some s) (link : Link) (c : Connection) :
    (w.putBack i s link c).Linked i s.openings := by
  have hs' : (w.keep link.home c.committed).1.stores[i]? = some s := by
    rw [(keep_stores w link.home c.committed).1, hs]
  exact linked_setStore hs' rfl rfl

theorem upholds_setEntered (i : Nat) (entered : Bool) : Upholds i (·.setEntered i entered) := by
  intro w opening h
  obtain ⟨s, link, hs, hl, ho⟩ := linked_iff.mp h
  simp only [setEntered, hs]
  exact linked_setStore hs (by simp [hl]) ho

theorem upholds_takeNote (i : Nat) (n : Note) : Upholds i (takeNote i · n) := by
  intro w opening h
  obtain ⟨s, link, hs, hl, ho⟩ := linked_iff.mp h
  cases n with
  | event e => exact h
  | count name =>
    simp only [takeNote, hs]
    exact linked_setStore hs (by simp [hl]) ho

theorem objection_abandon {α : Type} (h : w.Linked i opening) (objection : Option Objection)
    (failure : Failure) :
    (abandon i others opening w objection failure : Attempt α).objection = objection := by
  obtain ⟨⟨s, link⟩, hl⟩ := Option.isSome_iff_exists.mp h
  simp only [abandon, hl]

theorem linked_of_seat? (h : w.Linked i opening) (joins : Bool) :
    ∃ s link, w.seat? i joins opening = some (s, link) ∧
      ∀ c, (w.putBack i s link c).Linked i opening := by
  obtain ⟨⟨s, link⟩, hl⟩ := Option.isSome_iff_exists.mp h
  obtain ⟨hs, hlink, rfl⟩ := linkOf?_eq_some.mp hl
  refine ⟨s, link, ?_, linked_putBack hs link⟩
  cases joins with
  | false => exact hl
  | true => exact link?_eq_some.mpr ⟨hs, hlink⟩

variable {α : Type} (hothers : ∀ pause, pause ≠ .lock → Upholds i (others pause))

include hothers

theorem upheld_conclude {a : Attempt α} (h : a.world.Linked i opening)
    (ha : a.objection ≠ some .closed) :
    (conclude i others opening a).objection ≠ some .closed := by
  unfold conclude
  split
  · rw [objection_abandon h]
    exact ha
  · obtain ⟨⟨s, link⟩, hl⟩ := Option.isSome_iff_exists.mp h
    obtain ⟨hs, -, rfl⟩ := linkOf?_eq_some.mp hl
    have hback := hothers .commit (by simp) _ _
      (linked_putBack hs link (a.world.connection i link).commit.2)
    simp only [hl]
    split
    · simp
    · rw [objection_abandon hback]
      simp

theorem upheld_guarded (w : World) (s : Store) {body : Nat → World → Attempt α}
    (hbody : ∀ opening w, w.Linked i opening →
      (body opening w).world.Linked i opening ∧ (body opening w).objection ≠ some .closed) :
    (guarded i others w s body).objection ≠ some .closed := by
  unfold guarded
  split
  · simp
  · simp only
    split
    · simp
    · rename_i s link hl
      obtain ⟨hs, -⟩ := link?_eq_some.mp hl
      have hbegun := hothers .begin (by simp) _ _ (upholds_setEntered i true _ _
        (linked_putBack hs link ((others .lock w).connection i link).open?.2))
      split
      · exact upheld_conclude hothers (hbody _ _ hbegun).1 (hbody _ _ hbegun).2
      · rw [objection_abandon hbegun]
        simp

theorem upheld_blockAmid (w : World) (s : Store) {body : World → World × Except Failure α}
    (hbody : Upholds i fun w => (body w).1) :
    (blockAmid i others w s body).objection ≠ some .closed := by
  refine upheld_guarded hothers w s fun opening w h => ?_
  have hw : (body w).1.Linked i opening := hbody w opening h
  rcases hb : body w with ⟨w', failure | value⟩
  · rw [hb] at hw
    refine ⟨hw, ?_⟩
    cases failure <;> simp [Failure.objection?]
  · rw [hb] at hw
    exact ⟨hw, by simp⟩

theorem upheld_play (joins : Bool) (s : Script α) (n : Nat) (w : World) (h : w.Linked i opening) :
    (play i others joins opening n w s).world.Linked i opening ∧
      (play i others joins opening n w s).objection ≠ some .closed := by
  induction s generalizing n w with
  | done value => exact ⟨h, by simp [play]⟩
  | fail failure => exact ⟨h, by simp [play]⟩
  | note note next ih => exact ih n _ (upholds_takeNote i note w opening h)
  | look table next ih =>
    obtain ⟨t, link, hseat, hback⟩ := linked_of_seat? h joins
    simp only [play, hseat]
    split
    · exact ih _ _ _ (hothers _ (by simp) _ _ (hback _))
    · exact ⟨hothers _ (by simp) _ _ (hback _), by simp⟩
  | write write next ih =>
    obtain ⟨t, link, hseat, hback⟩ := linked_of_seat? h joins
    simp only [play, hseat]
    split
    · exact ih _ _ _ (hothers _ (by simp) _ _ (hback _))
    · rename_i failure _
      refine ⟨hothers _ (by simp) _ _ (hback _), ?_⟩
      cases failure <;> simp [Failure.objection?]

theorem upheld_callAmid (w : World) (s : Store) (call : Call) :
    (callAmid i others w s call).objection ≠ some .closed := by
  unfold callAmid
  simp only
  split
  · simp
  · exact upheld_guarded hothers w s fun opening w h => upheld_play hothers _ _ _ _ h

end

/-! ## Nobody else -/

def nobody : Pause → World → World := fun _ w => w

def within (w : World) (i : Nat) (body : World → World × Except Failure α) :
    World × Except Failure α :=
  match w.enter i with
  | (w, .error failure) => (w, .error failure)
  | (w, .ok entry) =>
    let (w, result) := body w
    match w.leave i entry (Ending.ofResult result).failure? with
    | (w, some failure) => (w, .error failure)
    | (w, none) => (w, result)

section
variable {w : World} {i opening : Nat} {s : Store} {link : Link}

theorem connection_setEntered (hs : w.stores[i]? = some s) (entered : Bool) (link : Link) :
    (w.setEntered i entered).connection i link = w.connection i link := by
  simp only [setEntered, hs]
  exact connection_eq rfl (linksBeside_setStore hs (.inl rfl)) rfl

theorem leave_outcome (w : World) (i opening : Nat) (outcome : Option Failure) :
    (w.leave i (.outermost opening) outcome).2 =
      match w.linkOf? i opening with
      | none => some .disconnected
      | some (_, link) => (settle (w.connection i link) outcome).2.2 := by
  unfold leave
  simp only
  cases hs : w.stores[i]? with
  | none => simp [setEntered, linkOf?, link?, hs]
  | some s =>
    have hc := connection_setEntered hs false
    have hat := getElem?_setStore w i hs { s with entered := false } i
    rw [if_pos rfl] at hat
    simp only [setEntered, hs] at hc ⊢
    simp only [hat, linkOf?, link?, hs, Option.bind_some]
    cases hl : s.link with
    | none => rfl
    | some link =>
      rw [hl] at hc
      by_cases ho : s.openings = opening
      · subst ho
        simp [Option.filter, hc]
      · simp [Option.filter, ho]

theorem result_abandon {α : Type} {others : Pause → World → World} (h : w.Linked i opening)
    (objection : Option Objection) (failure : Failure) :
    (abandon i others opening w objection failure : Attempt α).result = .error failure.leaving := by
  obtain ⟨⟨s, link⟩, hl⟩ := Option.isSome_iff_exists.mp h
  simp only [abandon, hl]

theorem conclude_alone (a : Attempt α) : (conclude i nobody opening a).result =
    match (a.world.leave i (.outermost opening) (Ending.ofResult a.result).failure?).2 with
    | some failure => .error failure
    | none => a.result := by
  rw [leave_outcome]
  cases hl : a.world.linkOf? i opening with
  | none => cases hr : a.result <;> simp only [conclude, hr, abandon, hl]
  | some found =>
    obtain ⟨s, link⟩ := found
    have hlinked : a.world.Linked i opening := by simp [Linked, hl]
    cases hr : a.result with
    | error failure =>
      simp only [conclude, hr, result_abandon hlinked]
      rfl
    | ok value =>
      obtain ⟨hs, -, rfl⟩ := linkOf?_eq_some.mp hl
      simp only [conclude, hr, hl, nobody, Ending.ofResult, Ending.failure?, settle]
      rcases (a.world.connection i link).commit_cases with ⟨fault, c, hc, -⟩ | ⟨db, c, hc, -⟩
      · simp only [hc, result_abandon (linked_putBack hs link c)]
        rfl
      · simp only [hc]

theorem blockAmid_alone {α : Type} (hs : w.stores[i]? = some s) (hout : s.entered = false)
    (body : World → World × Except Failure α) :
    (blockAmid i nobody w s body).result = (w.within i body).2 := by
  unfold blockAmid guarded within enter
  cases hl : s.link with
  | none => simp [Store.isOpen, hs, hl, hout]
  | some link =>
    have hlink : w.link? i = some (s, link) := link?_eq_some.mpr ⟨hs, hl⟩
    simp only [Store.isOpen, hs, hl, hout, hlink, nobody, Option.isSome_some, Bool.not_true,
      Bool.false_eq_true, if_false]
    rcases (w.connection i link).open?_cases with ⟨fault, c, ho, -⟩ | ⟨c, ho, -⟩
    · have hlinked := upholds_setEntered i true _ _ (linked_putBack hs link c)
      simp only [ho, result_abandon hlinked]
      rfl
    · simp only [ho]
      rw [conclude_alone]
      rcases hb : body ((w.putBack i s link c).setEntered i true) with ⟨w', failure | value⟩ <;>
        · simp only
          rcases w'.leave i (.outermost s.openings) _ with ⟨v, _ | failure⟩ <;> rfl

/-! ### Calls -/

theorem look_around (c : Connection) (table : Table) : (c.look table).2.around = c.around := by
  unfold Connection.look
  split <;> rfl

theorem write_around (c : Connection) (write : Write) : (c.write write).2.around = c.around := by
  rcases c.write_cases write with ⟨failure, c', hw, -, hu, -⟩ | ⟨rows, c', hw, hdone⟩
  · rw [hw]
    exact hu.around
  · rw [hw]
    exact hdone.2.2.1

section
variable {e : Bool} {c : Connection} (hh : w.handle? i = some ⟨opening, e, c⟩)

include hh

theorem linkOf?_of_handle : ∃ s link, w.linkOf? i opening = some (s, link) ∧
    w.connection i link = c ∧
    ∀ c', c'.around = c.around → (w.putBack i s link c').handle? i = some ⟨opening, e, c'⟩ := by
  obtain ⟨s, link, db, hs, hl, hd, hk, he⟩ := handle?_eq_some.mp hh
  cases he
  exact ⟨s, link, linkOf?_eq_some.mpr ⟨hs, hl, rfl⟩, rfl, fun c' => handle_putBack hs hd hk⟩

theorem seat?_of_handle (joins : Bool) : ∃ s link, w.seat? i joins opening = some (s, link) ∧
    w.connection i link = c ∧
    ∀ c', c'.around = c.around → (w.putBack i s link c').handle? i = some ⟨opening, e, c'⟩ := by
  obtain ⟨s, link, hl, hc, hback⟩ := linkOf?_of_handle hh
  obtain ⟨hs, hlink, -⟩ := linkOf?_eq_some.mp hl
  refine ⟨s, link, ?_, hc, hback⟩
  cases joins with
  | false => exact hl
  | true => exact link?_eq_some.mpr ⟨hs, hlink⟩

end

theorem play_alone {α : Type} (joins : Bool) (script : Script α) (n : Nat) {w : World} {e : Bool}
    {c : Connection} (hh : w.handle? i = some ⟨opening, e, c⟩) :
    (play i nobody joins opening n w script).result = (c.exec script).result ∧
      (play i nobody joins opening n w script).world.handle? i =
        some ⟨opening, e, (c.exec script).connection⟩ := by
  induction script generalizing n w c with
  | done value => exact ⟨rfl, hh⟩
  | fail failure => exact ⟨rfl, hh⟩
  | note note next ih => exact ih n ((handle_takeNote w i note i).trans hh)
  | look table next ih =>
    obtain ⟨s, link, hseat, rfl, hback⟩ := seat?_of_handle hh joins
    have hh' := hback _ (look_around _ table)
    simp only [play, hseat, nobody, Connection.exec]
    by_cases ht : (w.connection i link).view.has table = true
    · simp only [Connection.look, ht, if_true] at hh' ⊢
      exact ih _ _ hh'
    · simp only [Connection.look, ht, Bool.false_eq_true, if_false] at hh' ⊢
      exact ⟨trivial, hh'⟩
  | write write next ih =>
    obtain ⟨s, link, hseat, rfl, hback⟩ := seat?_of_handle hh joins
    have hh' := hback _ (write_around _ write)
    simp only [play, hseat, nobody, Connection.exec]
    rcases hw : (w.connection i link).write write with ⟨failure | rows, c⟩
    · simp only [hw] at hh' ⊢
      exact ⟨trivial, hh'⟩
    · simp only [hw] at hh' ⊢
      exact ih rows _ hh'

theorem guarded_alone {op : Operation Reply} (hr : op.refusal = none) {c : Connection}
    (hs : w.stores[i]? = some s) (hh : w.handle? i = some ⟨s.openings, false, c⟩) (joins : Bool) :
    (match (guarded i nobody w s fun opening w =>
        play i nobody joins opening 0 w op.body).result with
      | .ok last => last
      | .error failure => op.recover failure).result = (c.transact op).result := by
  obtain ⟨t, link, hl, rfl, hback⟩ := linkOf?_of_handle hh
  obtain ⟨ht, hlink, -⟩ := linkOf?_eq_some.mp hl
  obtain rfl : s = t := Option.some.inj (hs.symm.trans ht)
  have hlink? : w.link? i = some (s, link) := link?_eq_some.mpr ⟨hs, hlink⟩
  simp only [guarded, Connection.transact, hr, Store.isOpen, hlink, nobody, hlink?,
    Option.isSome_some, Bool.not_true, Bool.false_eq_true, if_false]
  rcases (w.connection i link).open?_cases with ⟨fault, c, ho, hu, -⟩ | ⟨c, ho, hu, -⟩
  · have hlinked := upholds_setEntered i true _ _ (linked_putBack hs link c)
    simp only [ho, result_abandon hlinked]
    rfl
  · have hh' : ((w.putBack i s link c).setEntered i true).handle? i =
        some ⟨s.openings, true, c⟩ := by
      rw [handle_setEntered, if_pos rfl, hback c hu.around]
      rfl
    obtain ⟨hres, hend⟩ := play_alone joins op.body 0 hh'
    obtain ⟨t', link', hl', hc', -⟩ := linkOf?_of_handle hend
    simp only [ho, conclude_alone, leave_outcome, hl', hc', hres]
    cases hx : (c.exec op.body).result with
    | error failure => rfl
    | ok last =>
      simp only [Ending.ofResult, Ending.failure?, settle]
      rcases (c.exec op.body).connection.commit_cases with ⟨fault, d, hd, -⟩ | ⟨db, d, hd, -⟩
      · simp only [hd]
        rfl
      · simp only [hd]
        rfl

theorem callAmid_alone (hs : w.stores[i]? = some s) (hout : s.entered = false)
    (hopen : s.isOpen = true → (w.handle? i).isSome) (call : Call) :
    (callAmid i nobody w s call).result = (w.call i call.operation).2 := by
  cases hr : call.operation.refusal with
  | some refusal =>
    cases hl : s.link <;>
      simp [callAmid, hr, World.call, hs, hl, hout, callUnlinked, Connection.transact]
  | none =>
    cases hl : s.link with
    | none => simp [callAmid, guarded, hr, Store.isOpen, hl, World.call, hs, hout, callUnlinked]
    | some link =>
      obtain ⟨h, hh⟩ := Option.isSome_iff_exists.mp (hopen (by simp [Store.isOpen, hl]))
      obtain ⟨t, link', db, ht, hlink', -, -, rfl⟩ := handle?_eq_some.mp hh
      obtain rfl : s = t := Option.some.inj (hs.symm.trans ht)
      rw [(handle_call hh call.operation).1]
      simp only [callAmid, hr, Handle.perform, hout, Bool.false_eq_true, if_false]
      rw [hout] at hh
      exact guarded_alone hr hs hh call.joins

/-! ## Calls and blocks among others -/

theorem notOpen_of_absent {α : Type} {others : Pause → World → World}
    (h : s.isOpen = false ∨ (others .lock w).link? i = none) (body : Nat → World → Attempt α) :
    (guarded i others w s body).objection = some (.notOpen s.path) := by
  unfold guarded
  cases hopen : s.isOpen with
  | false => rfl
  | true =>
    have hnone := h.resolve_left (by simp [hopen])
    simp only [hnone, Bool.not_true, Bool.false_eq_true, if_false]

theorem Conveys.of_objection {α : Type} {P : Except Failure α → Prop} {a : Attempt α} (h : Conveys P a)
    {objection : Objection} (ho : a.objection = some objection) :
    a.result = .error objection.failure := by
  simpa only [Conveys, ho] using h

theorem Conveys.of_not_closed {α : Type} {P : Except Failure α → Prop} {a : Attempt α} (h : Conveys P a)
    (hc : a.objection ≠ some .closed) (hn : a.objection ≠ none) :
    ∃ cause, a.result = .error (.store cause) := by
  cases ho : a.objection with
  | none => exact absurd ho hn
  | some objection =>
    cases objection with
    | closed => exact absurd ho hc
    | _ => exact ⟨_, h.of_objection ho⟩

/-- A call or a block outside of blocks, whatever others do while it waits. What the store has
against it reaches the caller: that it is not open, or no longer when the lock is granted, and every
fault of BEGIN, of a statement and of COMMIT. These are failures of the store, unless the connection
on which the transaction began was closed before its end. Where the store has nothing against it, no
failure of a store, an engine or a connection reaches the caller of a call, and that of a block gets
what its body came to. Where nobody comes in between, calls and blocks are those of the store. -/
theorem objections_reach_callers (hs : w.stores[i]? = some s) (hout : s.entered = false)
    (others : Pause → World → World) :
    (∀ call : Call,
      let a := callAmid i others w s call
      Conveys (fun result => ∀ failure, result = .error failure → failure.FromRegistry) a ∧
      ((s.isOpen = false ∨ (others .lock w).link? i = none) → call.operation.refusal = none →
        a.result = .error (.store (.notOpen s.path))) ∧
      ((∀ pause, pause ≠ .lock → Upholds i (others pause)) → a.objection ≠ none →
        ∃ cause, a.result = .error (.store cause)) ∧
      ((s.isOpen = true → (w.handle? i).isSome) →
        (callAmid i nobody w s call).result = (w.call i call.operation).2)) ∧
    ∀ {α : Type} (body : World → World × Except Failure α),
      let a := blockAmid i others w s body
      Conveys (fun result =>
        (∃ w, (body w).2 = result) ∧ ∀ fault, result ≠ .error (.engine fault)) a ∧
      ((s.isOpen = false ∨ (others .lock w).link? i = none) →
        a.result = .error (.store (.notOpen s.path))) ∧
      ((∀ pause, pause ≠ .lock → Upholds i (others pause)) → Upholds i (fun w => (body w).1) →
        a.objection ≠ none → ∃ cause, a.result = .error (.store cause)) ∧
      (blockAmid i nobody w s body).result = (w.within i body).2 := by
  refine ⟨fun call => ?_, fun body => ?_⟩
  · have hconveys : Conveys _ (callAmid i others w s call) := conveys_callAmid w s call
    refine ⟨hconveys, fun habsent hr => ?_, fun hup => ?_, fun hopen => ?_⟩
    · have hobj : (callAmid i others w s call).objection = some (.notOpen s.path) := by
        simp only [callAmid, hr]
        exact notOpen_of_absent habsent _
      exact hconveys.of_objection hobj
    · exact hconveys.of_not_closed (upheld_callAmid hup w s call)
    · exact callAmid_alone hs hout hopen call
  · have hconveys : Conveys _ (blockAmid i others w s body) := conveys_blockAmid w s body
    refine ⟨hconveys, fun habsent => ?_, fun hup hbody => ?_, blockAmid_alone hs hout body⟩
    · exact hconveys.of_objection (notOpen_of_absent habsent _)
    · exact hconveys.of_not_closed (upheld_blockAmid hup w s hbody)

end

/-! ### Closed in between -/

/-- Another task closes the store while the lock is awaited. -/
def closing : Pause → World → World
  | .lock, w => w.closeStore 0
  | _, w => w

/-- Another task closes the store while the BEGIN is awaited. -/
def closingLate : Pause → World → World
  | .begin, w => w.closeStore 0
  | _, w => w

/-- From the BEGIN on a COMMIT is refused. -/
def obstructing : Pause → World → World
  | .begin, w => w.refuse 0 ⟨.commit, 0, 1⟩
  | _, w => w

theorem objections_reach_callers_register : ∃ s, openedStore.stores[0]? = some s ∧ s.entered = false ∧
    (callAmid 0 closing openedStore s register).result = .error (.store (.notOpen s.path)) ∧
    (callAmid 0 obstructing openedStore s register).result =
      .error (.store (.transaction .refused)) := by
  have hseen : (openedStore.stores[0]?).map (fun s =>
      (s.entered, (callAmid 0 obstructing openedStore s register).objection)) =
        some (false, some (.fault .refused)) := by
    decide +kernel
  obtain ⟨s, hs, heq⟩ := Option.map_eq_some_iff.mp hseen
  simp only [Prod.mk.injEq] at heq
  obtain ⟨hout, hrefused⟩ := heq
  have hgone : ((closing .lock openedStore).link? 0).isNone = true := by decide +kernel
  refine ⟨s, hs, hout, ?_, ?_⟩
  · exact ((objections_reach_callers hs hout closing).1 register).2.1
      (.inr (Option.isNone_iff_eq_none.mp hgone)) rfl
  · exact ((objections_reach_callers hs hout obstructing).1 register).1.of_objection hrefused

/-- The body of a block closes the store, or another task does after the BEGIN of a call: neither is
told of a failure of the store. -/
theorem closed_transactions_disconnected :
    (openedStore.within 0 fun w => (w.closeStore 0, (.ok () : Except Failure Unit))).2 =
      .error .disconnected ∧
    ∃ s, openedStore.stores[0]? = some s ∧ s.entered = false ∧
      (callAmid 0 closingLate openedStore s register).result = .error .disconnected := by
  refine ⟨rfl, _, rfl, rfl, rfl⟩

end World

end PubSub
