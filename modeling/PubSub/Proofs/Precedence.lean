import PubSub.Proofs.Chronicle
import PubSub.Proofs.Enrolment
import PubSub.Proofs.Readback
import PubSub.Proofs.Responding

/-!
# Whom a reused request belongs to

Several topics may be asked for under one request id. It belongs to the topic whose post
came last among those that still carry it (`latest_post_answers`): over any calls and
blocks on any stores of one database, with what is given up on the way left out. So what
awaits a decision is out of reach of the responses to its request as long as a record that
was posted later carries the same id and awaits none (`pending_request_answers`).
-/

namespace PubSub

namespace Database

theorem topicOf_of_sublist {db db' : Database} (hk : db.Keyed) (hm : db'.marks.Sublist db.marks)
    (requestId : String) :
    db'.topicOf (some requestId) =
      (db.subscriptions.filter fun row => (db'.subscription? row.topic).isSome ∧
        row.requestId = some requestId).getLast?.map (·.topic) := by
  let stays (m : String × Option String) : Bool := (db'.subscription? m.1).isSome
  have hkeys : (db.marks.map (·.1)).Nodup := db.topics_eq ▸ hk
  have hstays : ∀ m, stays m = true ↔ m.1 ∈ db'.marks.map (·.1) := by
    intro m
    rw [← topics_eq]
    simp only [stays, subscription?, List.find?_isSome, List.mem_map]
    exact exists_congr fun row => and_congr_right fun _ => by simp
  have hall : db'.marks = db.marks.filter stays := by
    rw [← filter_eq_of_sublist hm hkeys.of_map fun m hmem hs => ?_]
    · exact (List.filter_eq_self.mpr fun m hmem => (hstays m).mpr (List.mem_map_of_mem hmem)).symm
    · -- Every topic has one record, so the one that is left is this one.
      obtain ⟨m', hm', he⟩ := List.mem_map.mp ((hstays m).mp hs)
      exact List.inj_on_of_nodup_map hkeys (hm.subset hm') hmem he ▸ hm'
  rw [topicOf_some, hall, List.filter_filter, marks, List.filter_map, List.getLast?_map,
    Option.map_map]
  refine congrArg (Option.map _) (congrArg List.getLast? (List.filter_congr fun row _ => ?_))
  simp [stays, Bool.and_comm]

/-- The record that a request is found under has none behind it that carries the request too. -/
theorem carrier?_eq_some {db : Database} {requestId : String} {row : SubscriptionRow} :
    db.carrier? (some requestId) = some row ↔ row.requestId = some requestId ∧
      ∃ before after, db.subscriptions = before ++ row :: after ∧
        ∀ later ∈ after, later.requestId ≠ some requestId := by
  rw [carrier?, List.find?_eq_some_iff_append, decide_eq_true_iff]
  refine and_congr_right fun _ => ⟨?_, ?_⟩
  · rintro ⟨after, before, hsplit, hnone⟩
    refine ⟨before.reverse, after.reverse, ?_, fun later hl => ?_⟩
    · rw [← List.reverse_reverse db.subscriptions, hsplit]
      simp
    · simpa using hnone later (List.mem_reverse.mp hl)
  · rintro ⟨before, after, hsplit, hnone⟩
    refine ⟨after.reverse, before.reverse, by simp [hsplit], fun later hl => ?_⟩
    simpa using hnone later (List.mem_reverse.mp hl)

theorem topicOf_eq_none {db : Database} {requestId : String} :
    db.topicOf (some requestId) = none ↔ ∀ row ∈ db.subscriptions, row.requestId ≠ some requestId := by
  simp [topicOf, carrier?]

end Database

theorem Handle.clear_of_ok {h : Handle} {call : Call} {reply : Reply}
    (hok : (h.perform call.operation).result = .ok reply) :
    h.entered = true ∨ h.connection.working = none := by
  cases he : h.entered with
  | true => exact .inl rfl
  | false =>
    simp only [Handle.perform, he, Bool.false_eq_true, if_false] at hok
    exact .inr (Connection.working_of_transact hok).1

namespace World

/-! ## Runs -/

/-- Whether a store is inside a block whose transaction is open. -/
def inBlock (w : World) (k : Nat) : Bool := (w.handle? k).any Handle.inBlock

/-- A world in a run on a new database, and the posts of that run. The stores of the list are all
that are on the database, and anything may happen to other ones. -/
inductive Chronicled (G : List Nat) : World → List Post → Prop where
  | start {w : World} (hsecluded : w.Secluded (· ∈ G)) (hmeets : ∀ j ∈ G, ∀ k ∈ G, ¬w.Apart j k)
    (hnew : ∀ k ∈ G, ∃ h, w.handle? k = some h ∧ h.entered = false ∧
      h.connection.committed = .fresh ∧ h.connection.working = none) : Chronicled G w []
  | call {w : World} {log : List Post} {on : Nat} (h : Chronicled G w log) (hon : on ∈ G)
    (call : Call) :
    Chronicled G (w.call on call.operation).1
      (Post.afterCall on ((w.call on call.operation).1.inBlock on) call log
        (w.call on call.operation).2)
  | enter {w : World} {log : List Post} {on : Nat} (h : Chronicled G w log) (hon : on ∈ G) :
    Chronicled G (w.enter on).1 log
  | leave {w : World} {log : List Post} {on : Nat} (h : Chronicled G w log) (hon : on ∈ G)
    (entry : Entry) (outcome : Option Failure)
    (he : ∀ opening, entry = .outermost opening →
      ∃ h, w.handle? on = some h ∧ h.entered = true) :
    Chronicled G (w.leave on entry outcome).1
      (Post.afterLeave on entry (w.leave on entry outcome).2 log)
  | refusing {w : World} {log : List Post} {on : Nat} (h : Chronicled G w log) (hon : on ∈ G)
    (refusals : List Refusal) : Chronicled G (w.refusing on refusals) log
  | beside {w w' : World} {log : List Post} (h : Chronicled G w log) (hset : w.Settled w')
    (hsame : ∀ k ∈ G, w'.handle? k = w.handle? k) : Chronicled G w' log

structure Recounts (w : World) (G : List Nat) (log : List Post) : Prop where
  kin : ∃ db, w.Kin G db
  reflects : ∀ k ∈ G, ∃ h, w.handle? k = some h ∧ Reflects log k h

section
variable {w w' : World} {G : List Nat} {log : List Post} {on : Nat}

theorem inBlock_of_handle {h : Handle} (hh : w.handle? on = some h) : w.inBlock on = h.inBlock := by
  simp [inBlock, hh]

theorem Recounts.step (hr : w.Recounts G log) (hset : w.Settled w') (hon : on ∈ G) {h h' : Handle}
    (hh : w.handle? on = some h) (hh' : w'.handle? on = some h')
    (hgo : h.connection.Onward h'.connection)
    (hothers : ∀ k, k ≠ on → ∀ d, w.handle? k = some d →
      ∃ d', w'.handle? k = some d' ∧ d.Alike d') {log' : List Post}
    (hown : Reflects log' on h' ∧ Post.Beside on h.connection log log') : w'.Recounts G log' := by
  obtain ⟨db, hk⟩ := hr.kin
  obtain ⟨hown, hbeside⟩ := hown
  have hk' := (hk.step hset hothers hon hh hh' hgo).1
  refine ⟨⟨_, hk'⟩, fun k hin => ?_⟩
  by_cases hne : k = on
  · subst hne
    exact ⟨h', hh', hown⟩
  · obtain ⟨d, hd, hrd⟩ := hr.reflects k hin
    obtain ⟨d', hd', ha⟩ := hothers k hne d hd
    refine ⟨d', hd', ?_, fun he x hx => ?_, fun hp p hm hw => ?_⟩
    · rw [(hk'.eq_of_handle hin hd').1]
      exact hown.committed
    · have hx₀ : d.connection.working = some x := ha.working ▸ hx
      rw [hbeside.seen (hk.stalled hon hin hne hh hd (by simp [hx₀])) k hne]
      exact hrd.working (ha.entered ▸ he) x hx₀
    · refine hrd.rest (fun he => ?_) p (hbeside.waits k hne p hm hw) hw
      rw [← ha.mayWrite, ← ha.working]
      exact hp (ha.entered.trans he)

theorem Chronicled.recounts (h : w.Chronicled G log) : w.Recounts G log := by
  -- Every kind of moment is a step on one store, of which the others see what it commits.
  induction h with
  | @start w hsecluded hmeets hnew =>
    have hs : w.Stands G none .fresh := stands_new hsecluded hmeets hnew fun _ he => by cases he
    refine ⟨⟨.fresh, hs.kin⟩, fun k hk => ?_⟩
    obtain ⟨h, hh, he, hc, hw⟩ := hnew k hk
    exact ⟨h, hh, hc ▸ Database.follows_fresh, fun _ db hdb => (by cases hw.symm.trans hdb),
      fun _ p hp => (by cases hp)⟩
  | @call w log on _ hon call ih =>
    obtain ⟨h, hh, hr⟩ := ih.reflects on hon
    obtain ⟨hres, hh'⟩ := handle_call hh call.operation
    refine ih.step (settled_call w on call.operation) hon hh hh' (h.onward_perform _)
      (fun k hne d hd => (touched_call call.operation).alike hne hd) ?_
    rw [inBlock_of_handle hh', hres]
    cases hp : (h.perform call.operation).result with
    | ok reply => exact hr.answered hp
    | error failure => exact hr.failed hp
  | @enter w log on _ hon ih =>
    obtain ⟨h, hh, hr⟩ := ih.reflects on hon
    exact ih.step (settled_enter w on) hon hh (handle_enter hh).2 h.onward_enter
      (fun k hne d hd => (touched_enter hne).alike hne hd)
      ⟨hr.entered, Post.beside_refl on h.connection log⟩
  | @leave w log on _ hon entry outcome he ih =>
    obtain ⟨h, hh, hr⟩ := ih.reflects on hon
    obtain ⟨hres, hh'⟩ := handle_leave hh entry outcome
    refine ih.step (settled_leave w on entry outcome) hon hh hh' (h.onward_leave entry outcome)
      (fun k hne d hd => (touched_leave hne entry outcome).alike hne hd) ?_
    rw [hres]
    refine hr.left outcome fun opening ho => ?_
    obtain ⟨d, hd, hin⟩ := he opening ho
    exact Option.some.inj (hd.symm.trans hh) ▸ hin
  | @refusing w log on _ hon refusals ih =>
    obtain ⟨h, hh, hr⟩ := ih.reflects on hon
    exact ih.step (settled_refusing w on refusals) hon hh (handle_refusing hh refusals)
      (Connection.onward_unseen ⟨rfl, rfl⟩ (.inl rfl))
      (fun k hne d hd => alike_refusing hne refusals hd)
      ⟨⟨hr.committed, hr.working, hr.rest⟩, Post.beside_refl on h.connection log⟩
  | beside _ hset hsame ih =>
    obtain ⟨db, hk⟩ := ih.kin
    refine ⟨⟨db, hk.still hset hsame⟩, fun k hin => ?_⟩
    rw [hsame k hin]
    exact ih.reflects k hin

/-! ## Answers -/

theorem topicOfRequest_tells {db db' : Database} {requestId : Option String} {reply : Reply}
    (hr : (Call.topicOfRequest requestId).operation.Returns db reply db') :
    reply = .optName (db.topicOf requestId) := by
  obtain ⟨topic, ho, rfl⟩ := Operation.returns_map.mp hr
  obtain ⟨-, last, hb, hl⟩ := Operation.returns_iff.mp ho
  obtain ⟨row, db₁, hsee, hd⟩ := Script.eval_bind_ok.mp hb
  obtain ⟨-, rfl, rfl⟩ := Script.eval_see_ok.mp hsee
  cases hd
  cases hl
  rfl

theorem topicOfRequest_of_calm {w₀ : World} {j : Nat} (hc : w₀.Calm j) {db : Database}
    (hd : w₀.committed? j = some db) (ht : db.hasAll = true) (requestId : Option String) :
    (w₀.call j (Call.topicOfRequest requestId).operation).2 = .ok (.optName (db.topicOf requestId)) := by
  have hhas : db.has .subscriptions = true := List.all_eq_true.mp ht .subscriptions (by decide)
  refine (answers_of_calm hc hd).mpr ⟨db, Operation.returns_map.mpr ⟨_, ?_, rfl⟩⟩
  refine Operation.returns_iff.mpr ⟨rfl, .answer (db.topicOf requestId), ?_, rfl⟩
  simp only [Negotiation.topicOfRequest, Script.bind_eq, Script.eval_bind, Script.eval_see hhas]
  rfl

section
variable (h : w.Chronicled G log) (hon : on ∈ G)

include h hon

theorem topicOf_of_unposted {call : Call} (hp : call.shift.post = none) {reply : Reply}
    (hok : (w.call on call.operation).2 = .ok reply) :
    let seen := w.view on
    let seen' := (w.call on call.operation).1.view on
    (∀ requestId, seen'.topicOf (some requestId) =
      (seen.subscriptions.filter fun row => (seen'.subscription? row.topic).isSome ∧
        row.requestId = some requestId).getLast?.map (·.topic)) ∧
    (call.isPurge = false → ∀ requestId, seen'.topicOf requestId = seen.topicOf requestId) := by
  intro seen seen'
  obtain ⟨d, hd, hr⟩ := h.recounts.reflects on hon
  obtain ⟨hres, hd'⟩ := handle_call hd call.operation
  rw [hok] at hres
  have hv : seen = d.connection.view := view_of_handle hd
  have hv' : seen' = (d.perform call.operation).connection.view := view_of_handle hd'
  have hshift := (d.perform_of_ok call hres.symm).1.shifted
  have hfollows := hr.view (Handle.clear_of_ok hres.symm)
  rw [← hv] at hshift hfollows
  rw [← hv'] at hshift
  cases hs : call.shift with
  | last topic => simp [hs, Shift.post] at hp
  | still =>
    have hm : seen'.marks = seen.marks := (hs ▸ hshift).marks
    exact ⟨Database.topicOf_of_sublist hfollows.keyed (hm ▸ .refl _),
      fun _ => Database.topicOf_congr hm⟩
  | thinned =>
    refine ⟨Database.topicOf_of_sublist hfollows.keyed (hs ▸ hshift).marks, fun hn => ?_⟩
    cases call <;> first | exact Bool.noConfusion hn | exact Shift.noConfusion hs

theorem marks_of_failure {call : Call} {failure : Failure}
    (hf : (w.call on call.operation).2 = .error failure) :
    let w' := (w.call on call.operation).1
    (w'.committed on).marks = (w.committed on).marks ∧
      (w'.inBlock on = true → (w'.view on).marks = (w.view on).marks) := by
  intro w'
  obtain ⟨d, hd, -⟩ := h.recounts.reflects on hon
  obtain ⟨hres, hd'⟩ := handle_call hd call.operation
  rw [hf] at hres
  rw [committed_of_committed? (committed?_of_handle hd), committed_of_committed? (committed?_of_handle hd'),
    view_of_handle hd, view_of_handle hd', inBlock_of_handle hd']
  rcases d.perform_of_error call hres.symm with ⟨-, hw⟩ | ⟨hn, hc⟩
  · exact ⟨hw.committed_still.marks, fun _ => hw.shifted.marks⟩
  · refine ⟨congrArg Database.marks hc, fun hin => ?_⟩
    obtain ⟨he, hsome⟩ := Bool.and_eq_true_iff.mp hin
    rw [hn he] at hsome
    cases hsome

end

/-- In a run on a new database a request belongs to the topic whose post came last among those whose
records carry it, and to none if no record does. That is what is committed, and inside a block what
its store sees, its own posts included. Calls that post nothing never change who comes before whom:
they leave the topics that are left in their order, and all of them unless they purge. A call that
fails, and a block that is given up, leave the topic of every request as it was. -/
theorem latest_post_answers (h : w.Chronicled G log) (hon : on ∈ G) :
    (∃ db, w.committed? on = some db ∧ (∀ row ∈ db.subscriptions, row.topic ∈ Post.settled log) ∧
      (∀ requestId, db.topicOf (some requestId) = none ↔
        ∀ row ∈ db.subscriptions, row.requestId ≠ some requestId) ∧
      ∀ requestId, db.topicOf requestId = db.latest (Post.settled log) requestId ∧
        ∀ (w₀ : World) (j : Nat), w₀.Calm j → w₀.committed? j = some db →
          (w₀.call j (Call.topicOfRequest requestId).operation).2 =
            .ok (.optName (db.topicOf requestId))) ∧
    (∀ requestId reply, (w.call on (Call.topicOfRequest requestId).operation).2 = .ok reply →
      reply = .optName ((w.view on).topicOf requestId) ∧
        (w.view on).topicOf requestId = (w.view on).latest (Post.seen on log) requestId) ∧
    (∀ (call : Call) reply, call.shift.post = none → (w.call on call.operation).2 = .ok reply →
      let seen := w.view on
      let seen' := (w.call on call.operation).1.view on
      (∀ requestId, seen'.topicOf (some requestId) =
        (seen.subscriptions.filter fun row => (seen'.subscription? row.topic).isSome ∧
          row.requestId = some requestId).getLast?.map (·.topic)) ∧
      (call.isPurge = false → ∀ requestId, seen'.topicOf requestId = seen.topicOf requestId)) ∧
    (∀ (call : Call) failure, (w.call on call.operation).2 = .error failure →
      let w' := (w.call on call.operation).1
      ∀ requestId, (w'.committed on).topicOf requestId = (w.committed on).topicOf requestId ∧
        (w'.inBlock on = true → (w'.view on).topicOf requestId = (w.view on).topicOf requestId)) ∧
    ∀ opening outcome failure, (w.leave on (.outermost opening) outcome).2 = some failure →
      ∀ requestId, ((w.leave on (.outermost opening) outcome).1.committed on).topicOf requestId =
        (w.committed on).topicOf requestId := by
  obtain ⟨d, hd, hr⟩ := h.recounts.reflects on hon
  refine ⟨?_, fun requestId reply hok => ?_, fun call reply hp hok => ?_, fun call failure hf => ?_,
    fun opening outcome failure hf requestId => ?_⟩
  · refine ⟨_, committed?_of_handle hd, fun row hrow => hr.committed.mem hrow,
      fun _ => Database.topicOf_eq_none, fun requestId => ?_⟩
    exact ⟨hr.committed.topicOf requestId, fun w₀ j hc hj =>
      topicOfRequest_of_calm hc hj hr.committed.tables requestId⟩
  · obtain ⟨hres, -⟩ := handle_call hd (Call.topicOfRequest requestId).operation
    rw [hok] at hres
    rw [view_of_handle hd]
    exact ⟨topicOfRequest_tells (Handle.returns_of_perform hres.symm),
      (hr.view (Handle.clear_of_ok hres.symm)).topicOf requestId⟩
  · exact topicOf_of_unposted h hon hp hok
  · intro w' requestId
    obtain ⟨hcommitted, hview⟩ := marks_of_failure h hon hf
    exact ⟨Database.topicOf_congr hcommitted requestId,
      fun hin => Database.topicOf_congr (hview hin) requestId⟩
  · obtain ⟨hres, hd'⟩ := handle_leave hd (.outermost opening) outcome
    rw [hf] at hres
    rw [committed_of_committed? (committed?_of_handle hd), committed_of_committed? (committed?_of_handle hd')]
    -- The connection is another one by now, or its transaction was not committed.
    refine congrArg (Database.topicOf · requestId) ?_
    simp only [Handle.leave] at hres ⊢
    split
    · rfl
    · rename_i hopen
      rcases d.connection.settle_cases outcome with ⟨hf, -, -⟩ | ⟨-, hc⟩
      · rw [if_neg hopen] at hres
        cases hres.trans hf
      · exact hc

end

/-! ### Lists of calls -/

def postsOf (w : World) (on : Nat) (log : List Post) : List Call → List Post
  | [] => log
  | call :: calls =>
    let next := w.call on call.operation
    next.1.postsOf on (Post.afterCall on (next.1.inBlock on) call log next.2) calls

theorem Chronicled.calls {w : World} {G : List Nat} {log : List Post} {on : Nat}
    (h : w.Chronicled G log) (hon : on ∈ G) (calls : List Call) :
    (w.afterCalls on calls).Chronicled G (w.postsOf on log calls) := by
  induction calls generalizing w log with
  | nil => exact h
  | cons call calls ih => exact ih (h.call hon call)

/-- Two topics are asked for under one id, and the one that came last is confirmed. -/
def oneIdForTwo : World :=
  (lone .fresh []).afterCalls 0
    [.registerTopic "t" "p" none (.plain true), .registerTopic "u" "p" none (.plain true),
      .requestSubscribe "t" "r", .requestSubscribe "u" "r", .confirm "u"]

def oneIdInside : World := ((oneIdForTwo.enter 0).1.call 0 (Call.retire "t").operation).1

theorem chronicled_oneIdInside :
    oneIdInside.Chronicled [0] [⟨"t", none⟩, ⟨"u", none⟩, ⟨"t", some 0⟩] := by
  have hon : (0 : Nat) ∈ [0] := List.mem_singleton_self 0
  have h : (lone .fresh []).Chronicled [0] [] := by
    refine .start (fun j k hj hk => ⟨fun he => hj (he ▸ hk), fun a ha => ?_⟩) (fun j hj k hk ha => ?_)
      fun k hk => ?_
    · match j with
      | 0 => exact absurd hon hj
      | j + 1 => cases ha
    · rw [List.mem_singleton.mp hj, List.mem_singleton.mp hk] at ha
      exact ha.1 rfl
    · rw [List.mem_singleton.mp hk]
      exact ⟨_, lone_handle .fresh [], rfl, rfl, rfl⟩
  exact ((h.calls hon _).enter hon).call hon (.retire "t")

/-- Inside the block the request belongs to the topic that was withdrawn there. What is committed is
the other one, and so it is again when the block has been given up. -/
theorem latest_post_answers_oneId :
    let w := (oneIdInside.leave 0 (.outermost 1) (some .aborted)).1
    (oneIdInside.view 0).topicOf (some "r") = some "t" ∧
      (oneIdInside.committed 0).topicOf (some "r") = some "u" ∧
      ((lone (w.committed 0) []).call 0 (Call.topicOfRequest (some "r")).operation).2 =
        .ok (.optName (some "u")) := by
  intro w
  have hon : (0 : Nat) ∈ [0] := List.mem_singleton_self 0
  have hin : (oneIdInside.handle? 0).map (·.entered) = some true := by decide +kernel
  have h : w.Chronicled [0] [⟨"t", none⟩, ⟨"u", none⟩] :=
    chronicled_oneIdInside.leave hon (.outermost 1) (some .aborted) fun _ _ => Option.map_eq_some_iff.mp hin
  obtain ⟨⟨db, hd, -, -, hcommitted⟩, hinside, -⟩ := latest_post_answers chronicled_oneIdInside hon
  obtain ⟨⟨db', hd', -, -, hafter⟩, -⟩ := latest_post_answers h hon
  obtain ⟨-, hseen⟩ := hinside (some "r") (.optName (some "t")) rfl
  obtain ⟨hlatest, hanswer⟩ := hafter (some "r")
  refine ⟨hseen.trans (by decide +kernel), ?_, ?_⟩
  · rw [committed_of_committed? hd, (hcommitted (some "r")).1, ← committed_of_committed? hd]
    decide +kernel
  · rw [committed_of_committed? hd', hanswer _ 0 (lone_calm db') rfl, hlatest,
      ← committed_of_committed? hd']
    have hwins : (w.committed 0).latest ["t", "u"] (some "r") = some "u" := by decide +kernel
    exact congrArg (fun topic => Except.ok (Reply.optName topic)) hwins

/-! ## Requests that await a decision -/

/-- A request under which something is pending belongs to the record that was posted last among
those that carry it. That one is pending exactly if some pending one is followed by no record that
carries the request and awaits no decision, and responses are ignored exactly if it is not. Where no
other topic carries the request, it is the one that is pending. -/
theorem pending_request_answers {w : World} {i : Nat} (hc : w.Calm i) {db : Database}
    (hd : w.committed? i = some db) (h : db.Reached) {topic requestId : String}
    (hp : (db.stateOf topic).isPending = true) (hr : db.requestOf topic = some requestId) :
    ∃ before row after, db.subscriptions = before ++ row :: after ∧
      row.requestId = some requestId ∧ (∀ later ∈ after, later.requestId ≠ some requestId) ∧
      (w.call i (Call.topicOfRequest (some requestId)).operation).2 =
        .ok (.optName (some row.topic)) ∧
      ((db.stateOf row.topic).isPending = true ↔ ∃ before asked after,
        db.subscriptions = before ++ asked :: after ∧ asked.requestId = some requestId ∧
        (db.stateOf asked.topic).isPending = true ∧ ∀ later ∈ after,
          later.requestId = some requestId → (db.stateOf later.topic).isPending = true) ∧
      (∀ accepted subscriber details expiry,
        (w.call i (Call.handleResponse (some requestId) accepted subscriber details expiry).operation).2 =
            .ok (.outcome .ignored) ↔ (db.stateOf row.topic).isPending = false) ∧
      ((∀ other, db.requestOf other = some requestId → other = topic) →
        row.topic = topic ∧ (db.stateOf row.topic).isPending = true) := by
  obtain ⟨carrying, hrow, hid⟩ := Option.bind_eq_some_iff.mp hr
  obtain ⟨row, hlast⟩ := Database.exists_carrier? (List.mem_of_find?_eq_some hrow) hid
  obtain ⟨hcarries, before, after, hsplit, hnone⟩ := Database.carrier?_eq_some.mp hlast
  have hmem : row ∈ db.subscriptions := (Database.mem_of_carrier? hlast).1
  refine ⟨before, row, after, hsplit, hcarries, hnone, ?_, ⟨fun hpending => ?_, ?_⟩, ?_, fun hown => ?_⟩
  · rw [topicOfRequest_of_calm hc hd h.wellFormed.tables, Database.topicOf, hlast]
    rfl
  · exact ⟨before, row, after, hsplit, hcarries, hpending, fun later hl hl' => absurd hl' (hnone later hl)⟩
  · rintro ⟨before', asked, after', hsplit', hasked, hpending, hbehind⟩
    -- The last one is the pending one itself or stands behind it.
    rcases List.append_eq_append_iff.mp (hsplit'.symm.trans hsplit) with
      ⟨gap, -, hgap⟩ | ⟨gap, -, hgap⟩
    · cases gap with
      | nil =>
        obtain ⟨rfl, -⟩ := List.cons.inj hgap
        exact hpending
      | cons first gap =>
        obtain ⟨-, rfl⟩ := List.cons.inj hgap
        exact hbehind row (by simp) hcarries
    · cases gap with
      | nil =>
        obtain ⟨rfl, -⟩ := List.cons.inj hgap
        exact hpending
      | cons first gap =>
        obtain ⟨-, rfl⟩ := List.cons.inj hgap
        exact absurd hasked (hnone asked (by simp))
  · intro accepted subscriber details expiry
    obtain ⟨-, -, -, -, hignored, -⟩ :=
      response_applies hc.idle hd h (some requestId) accepted subscriber details expiry
    rw [hignored hc, hlast]
    simp
  · have htopic : row.topic = topic := hown _ ((Database.requestOf_of_mem h.keyed hmem).trans hcarries)
    exact ⟨htopic, htopic ▸ hp⟩

/-- Both topics that asked are pending, and the one that asked last is found. -/
theorem pending_request_answers_askedTwice :
    let w := (lone .fresh []).run 0 askedTwice
    ∃ (db : Database) (row : SubscriptionRow), w.committed? 0 = some db ∧
      db.stateOf "t" = .subscribePending ∧ db.requestOf "t" = some "r" ∧ row.topic = "u" ∧
      (db.stateOf row.topic).isPending = true ∧
      (w.call 0 (Call.handleResponse (some "r") false "s" (.list []) none).operation).2 ≠
        .ok (.outcome .ignored) := by
  intro w
  obtain ⟨-, db, hd, h⟩ := reached_run askedTwice
  have hdb : w.committed 0 = db := committed_of_committed? hd
  have hstate : (w.committed 0).stateOf "t" = .subscribePending := by decide +kernel
  have hother : (w.committed 0).stateOf "u" = .subscribePending := by decide +kernel
  have hreq : (w.committed 0).requestOf "t" = some "r" := by decide +kernel
  rw [hdb] at hstate hother hreq
  obtain ⟨-, row, -, -, -, -, hfound, -, hignored, -⟩ := pending_request_answers
    (run_calm (lone_calm .fresh) (by decide)) hd h (congrArg State.isPending hstate) hreq
  have hanswer : (w.call 0 (Call.topicOfRequest (some "r")).operation).2 = .ok (.optName (some "u")) := rfl
  have htopic : row.topic = "u" := by simpa using hfound.symm.trans hanswer
  have hpending : (db.stateOf row.topic).isPending = true := by rw [htopic, hother]; rfl
  refine ⟨db, row, hd, hstate, hreq, htopic, hpending, fun hdropped => ?_⟩
  rw [(hignored false "s" (.list []) none).mp hdropped] at hpending
  cases hpending

def lastConfirmed : List Turn := askedTwice ++ [⟨[], .confirm "u"⟩]

/-- When the topic that asked last has been confirmed, it is still the one that is found, and the
response that the other one awaits is ignored. -/
theorem pending_request_hidden :
    let w := (lone .fresh []).run 0 lastConfirmed
    ∃ db, w.committed? 0 = some db ∧ db.Reached ∧ db.stateOf "t" = .subscribePending ∧
      db.requestOf "t" = some "r" ∧ db.stateOf "u" = .subscribed ∧
      (w.call 0 (Call.topicOfRequest (some "r")).operation).2 = .ok (.optName (some "u")) ∧
      (w.call 0 (Call.handleResponse (some "r") true "s" (.list []) (some 0)).operation).2 =
        .ok (.outcome .ignored) := by
  intro w
  obtain ⟨-, db, hd, h⟩ := reached_run lastConfirmed
  have hdb : w.committed 0 = db := committed_of_committed? hd
  refine ⟨db, hd, h, ?_, ?_, ?_, rfl, rfl⟩ <;> rw [← hdb] <;> decide +kernel

end World

end PubSub
