import Mathlib.Data.List.Induction
import PubSub.Proofs.Transitions

/-!
# Registrations

The directory and the publish gate answer from a map of topics in which the last
writer wins: a registration puts a topic there with its publisher and its setting, a
later setting replaces that one, and a deregistration takes the topic out. Calls
that fail, and those whose transaction was given up, do not take effect.
-/

namespace PubSub

/-! ## The map -/

def Flag.stored (flag : Flag) : Int := flag.code.toOption.getD 0

namespace Call

/-- What a call that takes effect makes of the row of a topic. -/
def rewrites (topic : String) (row : Option TopicRow) : Call → Option TopicRow
  | .registerTopic t publisher details enabled =>
    if t = topic then some ⟨topic, publisher, details.getD "", enabled.stored⟩ else row
  | .deregisterTopic t => if t = topic then none else row
  | .setNotification t enabled =>
    if t = topic then row.map fun row => { row with notification := enabled.stored } else row
  | _ => row

def settles (topic : String) : Call → Bool
  | .registerTopic t _ _ _ | .deregisterTopic t => t = topic
  | _ => false

def setting? (topic : String) : Call → Option Flag
  | .setNotification t enabled => if t = topic then some enabled else none
  | _ => none

theorem rewrites_of_unsettled {topic : String} {call : Call} (h : call.settles topic = false)
    (row : Option TopicRow) :
    call.rewrites topic row = row.map fun row =>
      { row with notification := ((call.setting? topic).map Flag.stored).getD row.notification } := by
  cases call with
  | registerTopic t publisher details enabled => simp [rewrites, show t ≠ topic by simpa [settles] using h, setting?]
  | deregisterTopic t => simp [rewrites, show t ≠ topic by simpa [settles] using h, setting?]
  | setNotification t enabled =>
    by_cases ht : t = topic
    · simp [rewrites, setting?, ht]
    · simp [rewrites, setting?, ht]
  | _ => simp [rewrites, setting?]

end Call

namespace Directory

/-- The row of a topic once some calls have taken effect, one after the other. -/
def after (calls : List Call) (topic : String) : Option TopicRow :=
  calls.foldl (fun row call => call.rewrites topic row) none

theorem after_append (calls : List Call) (call : Call) (topic : String) :
    after (calls ++ [call]) topic = call.rewrites topic (after calls topic) := by
  simp [after]

/-- The setting that came last, if one came at all. -/
def lastSetting (topic : String) (first : Flag) (calls : List Call) : Flag :=
  (calls.filterMap (·.setting? topic)).getLastD first

theorem foldl_rewrites {topic : String} {later : List Call}
    (h : ∀ call ∈ later, call.settles topic = false) (row : TopicRow) (first : Flag)
    (hf : row.notification = first.stored) :
    later.foldl (fun row call => call.rewrites topic row) (some row) =
      some { row with notification := (lastSetting topic first later).stored } := by
  induction later generalizing row first with
  | nil => simp [lastSetting, ← hf]
  | cons call later ih =>
    have hl : ∀ call ∈ later, call.settles topic = false := fun c hc => h c (List.mem_cons_of_mem _ hc)
    rw [List.foldl_cons, Call.rewrites_of_unsettled (h call List.mem_cons_self), Option.map_some]
    unfold lastSetting
    rw [List.filterMap_cons]
    cases hs : call.setting? topic with
    | none => exact ih hl row first hf
    | some flag =>
      rw [List.getLastD_cons]
      exact ih hl _ flag rfl

/-- A topic is registered if its latest registration has come after every deregistration. It has the
publisher and the details that it was registered with, and the latest setting since. -/
theorem after_eq_some {calls : List Call} {topic : String} {row : TopicRow} :
    after calls topic = some row ↔
      ∃ before publisher details enabled later,
        calls = before ++ .registerTopic topic publisher details enabled :: later ∧
        (∀ call ∈ later, call.settles topic = false) ∧
        row = ⟨topic, publisher, details.getD "", (lastSetting topic enabled later).stored⟩ := by
  constructor
  · induction calls using List.reverseRecOn generalizing row with
    | nil => intro h; cases h
    | append_singleton calls call ih =>
      intro h
      rw [after_append] at h
      cases hset : call.settles topic with
      | true =>
        cases call with
        | registerTopic t publisher details enabled =>
          obtain rfl : t = topic := by simpa [Call.settles] using hset
          simp only [Call.rewrites, if_true, Option.some.injEq] at h
          exact ⟨calls, publisher, details, enabled, [], rfl, by simp, h.symm⟩
        | deregisterTopic t =>
          obtain rfl : t = topic := by simpa [Call.settles] using hset
          simp [Call.rewrites] at h
        | _ => cases hset
      | false =>
        rw [Call.rewrites_of_unsettled hset] at h
        obtain ⟨old, hold, rfl⟩ := Option.map_eq_some_iff.mp h
        obtain ⟨before, publisher, details, enabled, later, rfl, hl, rfl⟩ := ih hold
        refine ⟨before, publisher, details, enabled, later ++ [call], by simp, fun c hc => ?_, ?_⟩
        · rcases List.mem_append.mp hc with hc | hc
          · exact hl c hc
          · rw [List.mem_singleton.mp hc]
            exact hset
        · unfold lastSetting
          rw [List.filterMap_append, List.filterMap_cons, List.filterMap_nil]
          cases call.setting? topic <;> simp
  · rintro ⟨before, publisher, details, enabled, later, rfl, hl, rfl⟩
    rw [after, List.foldl_append, List.foldl_cons]
    simp only [Call.rewrites, if_true]
    exact foldl_rewrites hl _ enabled rfl

/-- A topic stands in the directory with a publisher and a setting: it was registered with that
publisher, nothing has registered it again or taken it out since, and the setting came last. -/
def Registered (calls : List Call) (topic publisher : String) (setting : Int) : Prop :=
  ∃ before details enabled later,
    calls = before ++ .registerTopic topic publisher details enabled :: later ∧
    (∀ call ∈ later, call.settles topic = false) ∧
    setting = (lastSetting topic enabled later).stored

theorem registered_iff {calls : List Call} {topic publisher : String} {setting : Int} :
    Registered calls topic publisher setting ↔ ∃ row, after calls topic = some row ∧
      row.publisher = publisher ∧ row.notification = setting := by
  constructor
  · rintro ⟨before, details, enabled, later, hc, hl, rfl⟩
    exact ⟨_, after_eq_some.mpr ⟨before, publisher, details, enabled, later, hc, hl, rfl⟩, rfl, rfl⟩
  · rintro ⟨row, hrow, rfl, rfl⟩
    obtain ⟨before, publisher, details, enabled, later, hc, hl, rfl⟩ := after_eq_some.mp hrow
    exact ⟨before, details, enabled, later, hc, hl, rfl⟩

end Directory

/-! ## The table of topics -/

/-- The table of topics is a map. -/
structure Database.Lists (db : Database) (m : String → Option TopicRow) : Prop where
  keyed : (db.topics.map (·.topic)).Nodup
  topic? : ∀ topic, db.topic? topic = m topic

namespace Database

theorem topic?_dropTopic (db : Database) (topic t : String) :
    (db.dropTopic topic).2.topic? t = if t = topic then none else db.topic? t :=
  find?_filter_ne TopicRow.topic db.topics topic t

theorem topic?_setNotification (db : Database) (topic : String) (code : Int) (t : String) :
    (db.setNotification topic code).2.topic? t =
      if topic = t then (db.topic? t).map ({ · with notification := code }) else db.topic? t := by
  have hmap := find?_map_key TopicRow.topic
    (fun row : TopicRow => if row.topic = topic then { row with notification := code } else row)
    (fun row => by split <;> rfl) db.topics t
  refine hmap.trans ?_
  unfold topic?
  cases hrow : db.topics.find? (·.topic = t) with
  | none => simp
  | some row =>
    have ht : row.topic = t := by simpa using List.find?_some hrow
    simp only [Option.map_some, ht]
    by_cases h : t = topic
    · simp [h]
    · simp [h, Ne.symm h]

theorem keyed_setNotification (db : Database) (topic : String) (code : Int) :
    (db.setNotification topic code).2.topics.map (·.topic) = db.topics.map (·.topic) := by
  simp only [setNotification, List.map_map]
  refine List.map_congr_left fun row _ => ?_
  simp only [Function.comp]
  split <;> rfl

end Database

/-! ### Calls that return -/

namespace Directory

theorem register_puts {topic publisher : String} {details : Option String} {enabled : Flag}
    {db db' : Database} (hr : (register topic publisher details enabled).Returns db () db') :
    db' = db.putTopic ⟨topic, publisher, details.getD "", enabled.stored⟩ := by
  obtain ⟨-, last, hb, -⟩ := Operation.returns_iff.mp hr
  simp only [register, Script.bind_eq, Script.eval_bind_ok, Script.eval_ofExcept_ok,
    Script.eval_issue_ok] at hb
  obtain ⟨code, _, ⟨hcode, rfl⟩, rows, _, ⟨-, -, hrun⟩, hdone⟩ := hb
  cases hrun
  cases hdone
  rw [show enabled.stored = code by simp [Flag.stored, hcode, Except.toOption]]

theorem setNotification_sets {topic : String} {enabled : Flag} {changed : Bool} {db db' : Database}
    (hr : (setNotification topic enabled).Returns db changed db') :
    db' = (db.setNotification topic enabled.stored).2 := by
  obtain ⟨-, last, hb, -⟩ := Operation.returns_iff.mp hr
  simp only [setNotification, Script.bind_eq, Script.eval_bind_ok, Script.eval_ofExcept_ok,
    Script.eval_issue_ok] at hb
  obtain ⟨code, _, ⟨hcode, rfl⟩, rows, _, ⟨-, -, hrun⟩, hd⟩ := hb
  rw [show enabled.stored = code by simp [Flag.stored, hcode, Except.toOption]]
  cases hrun
  split at hd
  · cases hd
    rfl
  · obtain ⟨registered, _, hsee, hd⟩ := Script.eval_bind_ok.mp hd
    obtain ⟨-, -, rfl⟩ := Script.eval_see_ok.mp hsee
    split at hd
    · cases hd
      rfl
    · cases hd

end Directory

def Call.isDirecting : Call → Bool
  | .registerTopic .. | .deregisterTopic _ | .setNotification .. => true
  | _ => false

section
variable {db db' : Database} (h : db.WellFormed) {call : Call} {reply : Reply}

include h

theorem Call.topics_of_returns (hc : call.isDirecting = false)
    (hr : call.operation.Returns db reply db') : db'.topics = db.topics := by
  cases hq : call.isQuery with
  | true =>
    have hu := (Operation.inline_reads (call.reads_of_isQuery hq)).unchanged db
    rw [hr] at hu
    exact congrArg Database.topics hu
  | false =>
    cases call with
    | addSubscriber topic subscriber details expiry requestId =>
      obtain ⟨_, ho, rfl⟩ := Operation.returns_map.mp hr
      obtain ⟨-, -, -, written, rows, -, -, hrun⟩ := (Membership.add_returns h).mp ho
      exact (Database.addMember_frame hrun).1
    | removeSubscriber topic subscriber =>
      obtain ⟨_, ho, rfl⟩ := Operation.returns_map.mp hr
      obtain ⟨-, rfl⟩ := (Membership.remove_returns h).mp ho
      rfl
    | removeAllForTopic topic =>
      obtain ⟨_, ho, rfl⟩ := Operation.returns_map.mp hr
      cases Membership.removeAll_returns ho
      rfl
    | requestSubscribe topic requestId =>
      obtain ⟨_, ho, rfl⟩ := Operation.returns_map.mp hr
      obtain ⟨-, -, -, rfl⟩ := (Negotiation.requestSubscribe_returns h).mp ho
      rfl
    | requestUnsubscribe topic requestId =>
      obtain ⟨_, ho, rfl⟩ := Operation.returns_map.mp hr
      obtain ⟨-, -, rfl⟩ := (Negotiation.requestUnsubscribe_returns h).mp ho
      rfl
    | confirm topic | deny topic =>
      obtain ⟨_, ho, rfl⟩ := Operation.returns_map.mp hr
      obtain ⟨_, -, -, rfl⟩ := (Negotiation.resolve_returns h).mp ho
      rfl
    | retire topic =>
      obtain ⟨_, ho, rfl⟩ := Operation.returns_map.mp hr
      obtain rfl := (Negotiation.retire_returns h).mp ho
      rfl
    | purge topic =>
      obtain ⟨_, ho, rfl⟩ := Operation.returns_map.mp hr
      obtain ⟨-, rfl⟩ := Negotiation.purge_returns ho
      rfl
    | purgeDeprecated =>
      obtain ⟨_, ho, rfl⟩ := Operation.returns_map.mp hr
      cases Negotiation.purgeDeprecated_returns ho
      rfl
    | applyConfirmation topic subscriber details expiry =>
      obtain ⟨_, ho, rfl⟩ := Operation.returns_map.mp hr
      obtain ⟨_, -, -, ht, -⟩ := Response.apply_ok h (Response.applyConfirmation_returns.mp ho)
      exact ht
    | applyDenial topic =>
      obtain ⟨_, ho, rfl⟩ := Operation.returns_map.mp hr
      obtain ⟨_, -, -, rfl⟩ := (Negotiation.resolve_returns h).mp (Response.applyDenial_returns.mp ho)
      rfl
    | handleResponse requestId accepted subscriber details expiry =>
      obtain ⟨_, ho, rfl⟩ := Operation.returns_map.mp hr
      rcases Response.handle_returns h ho with ⟨-, rfl⟩ | ⟨-, row, state, -, ha⟩
      · rfl
      · obtain ⟨_, -, -, ht, -⟩ := Response.apply_ok h ha
        exact ht
    | handleWithdrawal topic =>
      obtain ⟨_, ho, rfl⟩ := Operation.returns_map.mp hr
      obtain rfl := (Negotiation.retire_returns h).mp (Response.handleWithdrawal_returns.mp ho)
      rfl
    | heal topic subscriber =>
      obtain ⟨_, ho, rfl⟩ := Operation.returns_map.mp hr
      exact (Healing.heal_sets h ho).topics
    | registerTopic _ _ _ _ | deregisterTopic _ | setNotification _ _ => cases hc
    | _ => cases hq

theorem Database.Lists.step {m : String → Option TopicRow} (hm : db.Lists m)
    (hr : call.operation.Returns db reply db') :
    db'.Lists fun topic => call.rewrites topic (m topic) := by
  cases hc : call.isDirecting with
  | true =>
    cases call with
    | registerTopic topic publisher details enabled =>
      obtain ⟨_, ho, rfl⟩ := Operation.returns_map.mp hr
      obtain rfl := Directory.register_puts ho
      refine ⟨nodup_put TopicRow.topic hm.keyed _, fun t => ?_⟩
      rw [topic?_putTopic, hm.topic?]
      by_cases ht : t = topic
      · simp [Call.rewrites, ht]
      · simp [Call.rewrites, ht, Ne.symm ht]
    | deregisterTopic topic =>
      obtain ⟨_, ho, rfl⟩ := Operation.returns_map.mp hr
      obtain rfl := Directory.deregister_returns ho
      refine ⟨hm.keyed.sublist (List.filter_sublist.map _), fun t => ?_⟩
      have hdrop := db.topic?_dropTopic topic t
      rw [hm.topic?] at hdrop
      refine Eq.trans hdrop ?_
      by_cases ht : t = topic
      · simp [Call.rewrites, ht]
      · simp [Call.rewrites, ht, Ne.symm ht]
    | setNotification topic enabled =>
      obtain ⟨_, ho, rfl⟩ := Operation.returns_map.mp hr
      obtain rfl := Directory.setNotification_sets ho
      refine ⟨db.keyed_setNotification topic _ ▸ hm.keyed, fun t => ?_⟩
      rw [db.topic?_setNotification topic, hm.topic?]
      rfl
    | _ => cases hc
  | false =>
    have ht := Call.topics_of_returns h hc hr
    refine ⟨ht ▸ hm.keyed, fun t => ?_⟩
    rw [topic?_congr ht, hm.topic?]
    cases call <;> first | rfl | cases hc

end

/-! ## What callers are told -/

namespace Operation

section
variable {α β : Type} {op : Operation α} {db : Database}

theorem alone_map (f : α → β) : ((op.map f).alone db).1 = (op.alone db).1.map f := by
  unfold alone
  cases hr : op.refusal with
  | some failure => simp [map, hr, Except.map]
  | none =>
    simp only [map, hr, Script.eval_bind]
    cases op.body.eval db with
    | mk result db' => cases result <;> rfl

theorem alone_of_ok (hr : op.refusal = none) {last : Conclusion α} {db' : Database}
    (hb : op.body.eval db = (.ok last, db')) : (op.alone db).1 = last.result := by
  unfold alone
  rw [hr, hb]

theorem alone_of_error (hr : op.refusal = none) {failure : Failure} {db' : Database}
    (hb : op.body.eval db = (.error failure, db')) :
    (op.alone db).1 = (op.recover failure.leaving).result := by
  unfold alone
  rw [hr, hb]

end

end Operation

namespace Directory

def gate (topic : String) : Option TopicRow → PublishCheck
  | some row =>
    if row.notification ≠ 0 then ⟨topic, true, some row.publisher, ""⟩
    else ⟨topic, false, none, "notification_disabled"⟩
  | none => ⟨topic, false, none, "unregistered"⟩

def read (m : String → Option TopicRow) (topic : String) (f : TopicRow → Reply) :
    Except Failure Reply :=
  match m topic with
  | some row => .ok (f row)
  | none => .error (.notFound "topic" topic)

/-- What a call comes to on a store with these topics. -/
def Answers (m : String → Option TopicRow) : Call → Except Failure Reply → Prop
  | .checkPublish topic, result => result = .ok (.check (gate topic (m topic)))
  | .getTopic topic, result => result = .ok (.topic ((m topic).map TopicRow.record))
  | .isRegistered topic, result => result = .ok (.truth (m topic).isSome)
  | .getPublisher topic, result => result = read m topic fun row => .name row.publisher
  | .isNotificationEnabled topic, result =>
    result = read m topic fun row => .truth (row.notification ≠ 0)
  | .countTopics, result => ∃ names : List String, names.Nodup ∧
    (∀ topic, topic ∈ names ↔ (m topic).isSome) ∧ result = .ok (.number names.length)
  | .setNotification topic enabled, result => ∀ code, enabled.code = .ok code →
    Write.fits code = true → result = read m topic fun row => .truth (row.notification ≠ code)
  | _, _ => True

section
variable {db : Database} (h : db.WellFormed)

include h

theorem lookUp_eval (topic : String) :
    (lookUp topic).eval db = (.ok ((db.topic? topic).map TopicRow.record), db) :=
  Script.eval_see (h.has .topics) _

theorem reading_eval {α : Type} (topic : String) (f : TopicRecord → α) :
    (reading topic f).body.eval db =
      (.ok (match db.topic? topic with
        | some row => .answer (f row.record)
        | none => .refuse (.notFound "topic" topic)), db) := by
  simp only [reading, Script.bind_eq, Script.eval_bind, lookUp_eval h, Script.andThen_ok]
  cases db.topic? topic <;> rfl

theorem setNotification_eval {topic : String} {enabled : Flag} {code : Int}
    (hcode : enabled.code = .ok code) (hfit : Write.fits code = true) :
    (setNotification topic enabled).body.eval db =
      (if 0 < (db.setNotification topic code).1 then
          .ok (.answer true [.event (.notificationChanged topic enabled)])
        else if (db.topic? topic).isSome then .ok (.answer false)
        else .error (.notFound "topic" topic),
        (db.setNotification topic code).2) := by
  have hw : (Script.issue (.setNotification topic code)).eval db =
      (.ok (db.setNotification topic code).1, (db.setNotification topic code).2) :=
    Script.eval_issue_ok.mpr ⟨h.has _, hfit, rfl⟩
  have h' : (db.setNotification topic code).2.WellFormed :=
    Database.wellFormed_run (w := .setNotification topic code) rfl h
  have hsee : (holds topic).eval (db.setNotification topic code).2 =
      (.ok (db.topic? topic).isSome, (db.setNotification topic code).2) := by
    rw [holds, Script.eval_see (h'.has .topics), db.topic?_setNotification]
    split <;> simp
  simp only [setNotification, Script.bind_eq, hcode, Script.ofExcept, Script.bind, Script.eval_bind, hw,
    Script.andThen_ok]
  split
  · rfl
  · simp only [Script.eval_bind, hsee, Script.andThen_ok]
    cases (db.topic? topic).isSome <;> rfl

end

theorem setNotification_changes {db : Database} (hk : (db.topics.map (·.topic)).Nodup)
    (topic : String) (code : Int) :
    0 < (db.setNotification topic code).1 ↔
      ∃ row, db.topic? topic = some row ∧ row.notification ≠ code := by
  unfold Database.setNotification
  simp only [List.countP_pos_iff, decide_eq_true_eq]
  constructor
  · rintro ⟨row, hm, rfl, hne⟩
    have hs : (db.topic? row.topic).isSome := by
      unfold Database.topic?
      exact List.find?_isSome.mpr ⟨row, hm, by simp⟩
    obtain ⟨found, hf⟩ := Option.isSome_iff_exists.mp hs
    have ht : found.topic = row.topic := by simpa using List.find?_some hf
    obtain rfl := List.inj_on_of_nodup_map hk (List.mem_of_find?_eq_some hf) hm ht
    exact ⟨found, hf, hne⟩
  · rintro ⟨row, hf, hne⟩
    exact ⟨row, List.mem_of_find?_eq_some hf, by simpa using List.find?_some hf, hne⟩

end Directory

section
variable {db : Database} (h : db.WellFormed) {m : String → Option TopicRow} (hm : db.Lists m)

include h hm

theorem Directory.alone_reading {α : Type} (topic : String) (f : TopicRecord → α) (g : α → Reply) :
    (((reading topic f).map g).alone db).1 = read m topic fun row => g (f row.record) := by
  rw [Operation.alone_map, Operation.alone_of_ok rfl (reading_eval h topic f), hm.topic?]
  unfold read
  cases m topic <;> rfl

theorem Directory.alone_setNotification {topic : String} {enabled : Flag} {code : Int}
    (hcode : enabled.code = .ok code) (hfit : Write.fits code = true) :
    ((Call.setNotification topic enabled).operation.alone db).1 =
      read m topic fun row => .truth (row.notification ≠ code) := by
  have hb : (setNotification topic enabled).body.eval db = _ := setNotification_eval h hcode hfit
  rw [Call.operation, Operation.alone_map]
  have hchanges := setNotification_changes hm.keyed topic code
  rw [hm.topic?] at hb hchanges
  unfold read
  cases hrow : m topic with
  | none =>
    rw [hrow] at hb hchanges
    rw [if_neg (by simp [hchanges])] at hb
    rw [Operation.alone_of_error rfl hb]
    rfl
  | some row =>
    rw [hrow] at hb hchanges
    by_cases hne : row.notification = code
    · rw [if_neg (by simp [hchanges, hne])] at hb
      rw [Operation.alone_of_ok rfl hb]
      simp [hne, Conclusion.answer, Except.map]
    · rw [if_pos (by simp [hchanges, hne])] at hb
      rw [Operation.alone_of_ok rfl hb]
      simp [hne, Conclusion.answer, Except.map]

theorem Database.Lists.answers (call : Call) :
    Directory.Answers m call (call.operation.alone db).1 := by
  cases call with
  | checkPublish topic =>
    have hb : (Publishing.check topic).body.eval db = _ :=
      Script.eval_bind (Directory.activePublisher topic).body _ db
    rw [Directory.activePublisher, Directory.reading_eval h topic, Script.andThen_ok] at hb
    rw [Directory.Answers, Call.operation, Operation.alone_map, Operation.alone_of_ok rfl hb, hm.topic?]
    cases hrow : m topic with
    | none => rfl
    | some row => by_cases hn : row.notification = 0 <;> simp [Directory.gate, TopicRow.record,
        Conclusion.answer, Except.map, Publishing.deny, hn]
  | getTopic topic =>
    have hb : (Directory.get topic).body.eval db = _ := Script.eval_bind (Directory.lookUp topic) _ db
    rw [Directory.lookUp_eval h, Script.andThen_ok] at hb
    rw [Directory.Answers, Call.operation, Operation.alone_map, Operation.alone_of_ok rfl hb, hm.topic?]
    rfl
  | isRegistered topic =>
    have hr : (Directory.isRegistered topic).Returns db (db.topic? topic).isSome db :=
      (Directory.isRegistered_returns h).mpr ⟨rfl, rfl⟩
    rw [Directory.Answers, Call.operation, Operation.alone_map, Operation.Returns.alone hr, hm.topic?]
    rfl
  | getPublisher topic =>
    exact Directory.alone_reading h hm topic _ _
  | isNotificationEnabled topic =>
    exact Directory.alone_reading h hm topic _ _
  | countTopics =>
    have hb : Directory.count.body.eval db = _ := Script.eval_bind (.see .topics (·.topics.length)) _ db
    rw [Script.eval_see (h.has .topics), Script.andThen_ok] at hb
    refine ⟨db.topics.map (·.topic), hm.keyed, fun topic => ?_, ?_⟩
    · rw [← hm.topic?]
      simp [Database.topic?, List.find?_isSome]
    · rw [Call.operation, Operation.alone_map, Operation.alone_of_ok rfl hb, List.length_map]
      rfl
  | setNotification topic enabled =>
    exact fun code hcode hfit => Directory.alone_setNotification h hm hcode hfit
  | _ => trivial

end

/-! ## Runs -/

def effective (moments : List Moment) : List Call :=
  (moments.filter (·.result.isOk)).map (·.call)

theorem Course.lists {past : List Moment} {db : Database} (h : Course past db) :
    db.Lists (Directory.after (effective past)) := by
  induction h with
  | start => exact ⟨.nil, fun _ => rfl⟩
  | @next past db db' call result h step ih =>
    cases step with
    | fails failure =>
      rw [show effective (past ++ [⟨call, .error failure, db, db⟩]) = effective past by
        simp [effective, Except.isOk, Except.toBool]]
      exact ih
    | @returns reply _ hr =>
      rw [show effective (past ++ [⟨call, .ok reply, db, db'⟩]) = effective past ++ [call] by
        simp [effective, Except.isOk, Except.toBool],
        funext (Directory.after_append (effective past) call)]
      exact ih.step h.reached.wellFormed hr

namespace World

theorem call_alone_or_fault {w : World} {i : Nat} (hi : w.Idle i) {db : Database}
    (hd : w.committed? i = some db) (call : Call) :
    (∃ failure : Failure, failure.FromStatement ∧
      (w.call i call.operation).2 = .error failure.leaving) ∨
    (w.call i call.operation).2 = (call.operation.alone db).1 := by
  obtain ⟨h, hh, he⟩ := hi
  rw [committed?_of_handle hh, Option.some.injEq] at hd
  subst hd
  rw [(handle_call hh call.operation).1]
  simp only [Handle.perform, he, Bool.false_eq_true, if_false]
  cases hr : call.operation.refusal with
  | some failure =>
    right
    unfold Connection.transact Operation.alone
    simp only [hr]
  | none =>
    rcases h.connection.transact_cases hr with ⟨failure, hf, hres, -⟩ | ⟨last, db, hb, hres, -⟩
    · rcases hf with hf | hf
      · exact .inl ⟨failure, hf, hres.trans (call.recover_fails (.inl hf))⟩
      · refine .inr (hres.trans ?_)
        rw [Operation.alone_of_error hr (Prod.ext hf rfl)]
    · exact .inr (hres.trans (Operation.alone_of_ok hr hb).symm)

/-- After any run of calls, whatever was refused in it, the directory and the publish gate answer
from the map in which the last call that took effect wins. Only a statement that fails keeps a call
from that answer, and a call that returns changes the map by its own entry. -/
theorem directory_refines_map {w : World} {i : Nat} (hi : w.Idle i)
    (hd : w.committed? i = some .fresh) (turns : List Turn) {w₀ : World} {k : Nat}
    (hi₀ : w₀.Idle k) (hsame : w₀.committed? k = (w.run i turns).committed? i) :
    let calls := effective (w.history i turns)
    (w₀.Calm k → ∀ call : Call,
      Directory.Answers (Directory.after calls) call (w₀.call k call.operation).2) ∧
    (w₀.Calm k → ∀ topic publisher,
      (w₀.call k (Call.checkPublish topic).operation).2 =
          .ok (.check ⟨topic, true, some publisher, ""⟩) ↔
        ∃ setting, Directory.Registered calls topic publisher setting ∧ setting ≠ 0) ∧
    (∀ call : Call,
      (∃ failure : Failure, failure.FromStatement ∧
        (w₀.call k call.operation).2 = .error failure.leaving) ∨
      Directory.Answers (Directory.after calls) call (w₀.call k call.operation).2) ∧
    ∀ (call : Call) (reply : Reply), (w₀.call k call.operation).2 = .ok reply →
      ∃ db', (w₀.call k call.operation).1.committed? k = some db' ∧
        ∀ topic, db'.topic? topic = call.rewrites topic (Directory.after calls topic) := by
  intro calls
  obtain ⟨-, db, hdb, hcourse⟩ := course_of_run hi hd turns
  rw [hdb] at hsame
  have hw := hcourse.reached.wellFormed
  have hanswers := hcourse.lists.answers hw
  have hcalm : w₀.Calm k → ∀ call : Call,
      Directory.Answers (Directory.after calls) call (w₀.call k call.operation).2 := by
    intro hc call
    rw [(call_of_calm hc hsame call.operation).1]
    exact hanswers call
  refine ⟨hcalm, fun hc topic publisher => ?_, fun call => ?_, fun call reply hr => ?_⟩
  · rw [show (w₀.call k (Call.checkPublish topic).operation).2 = _ from hcalm hc (.checkPublish topic)]
    simp only [Directory.registered_iff]
    cases hrow : Directory.after calls topic with
    | none => simp [Directory.gate]
    | some row =>
      by_cases hn : row.notification = 0
      · simp [Directory.gate, hn]
      · simp [Directory.gate, hn]
  · refine (call_alone_or_fault hi₀ hsame call).imp_right fun he => ?_
    rw [he]
    exact hanswers call
  · obtain ⟨-, db', hdb', ho⟩ := call_step hi₀ hsame call
    rw [hr] at ho
    cases ho with
    | returns hret => exact ⟨db', hdb', (hcourse.lists.step hw hret).topic?⟩

/-- A topic is registered, registered again without success, and closed to notifications. -/
def closedTopic : List Turn :=
  [⟨[], .registerTopic "t" "p" none (.plain true)⟩,
    ⟨[⟨.commit, 0, 1⟩], .registerTopic "t" "q" none (.plain true)⟩,
    ⟨[], .setNotification "t" (.plain false)⟩]

theorem directory_refines_map_closedTopic :
    let db := ((lone .fresh []).run 0 closedTopic).committed 0
    ((lone db []).call 0 (Call.checkPublish "t").operation).2 =
        .ok (.check ⟨"t", false, none, "notification_disabled"⟩) ∧
      ((lone db []).call 0 (Call.getPublisher "t").operation).2 = .ok (.name "p") := by
  intro db
  obtain ⟨hrun, db', hdb', -⟩ := course_of_run ⟨_, lone_handle .fresh [], rfl⟩ rfl closedTopic
  have hsame : (lone db []).committed? 0 = ((lone .fresh []).run 0 closedTopic).committed? 0 := by
    rw [hdb', show db = db' from committed_of_committed? hdb']
    rfl
  obtain ⟨hcalm, -⟩ := directory_refines_map ⟨_, lone_handle .fresh [], rfl⟩ rfl closedTopic
    (lone_calm db).idle hsame
  have hrow : Directory.after (effective ((lone .fresh []).history 0 closedTopic)) "t" =
      some ⟨"t", "p", "", 0⟩ := by decide +kernel
  have hcheck := hcalm (lone_calm db) (.checkPublish "t")
  have hname := hcalm (lone_calm db) (.getPublisher "t")
  simp only [Directory.Answers, Directory.read, hrow] at hcheck hname
  exact ⟨hcheck, hname⟩

end World

end PubSub
