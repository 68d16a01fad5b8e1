import PubSub.Proofs.Denials
import PubSub.Proofs.UnrelatedStores
import PubSub.Proofs.Reports
import PubSub.Proofs.RecordOrder

/-!
# The scope of calls

A call writes to few tables (`Call.tables`) and to the rows of one topic, the one that it names
or that its request leads to; the rows of other topics stay as they are, in their order. Queries
write nothing, and of the commands only the purge does (`World.database_administer`).
-/

namespace PubSub

/-! ## Tables -/

def Call.tables : Call → List Table
  | .registerTopic .. | .setNotification .. => [.topics]
  | .deregisterTopic _ => [.topics, .subscribers]
  | .addSubscriber .. | .removeSubscriber .. | .removeAllForTopic _ | .heal .. => [.subscribers]
  | .requestSubscribe .. | .requestUnsubscribe .. | .confirm _ | .deny _ | .retire _ | .purge _
  | .purgeDeprecated | .applyDenial _ | .handleWithdrawal _ => [.subscriptions]
  | .applyConfirmation .. => [.subscriptions, .subscribers]
  | .handleResponse _ accepted .. =>
    if accepted then [.subscriptions, .subscribers] else [.subscriptions]
  | _ => []

namespace Database

/-- The rows of a table are the same, and so are the numbers that its rows have used up. -/
def SameIn (db db' : Database) : Table → Prop
  | .topics => db'.topics = db.topics
  | .subscribers => db'.members = db.members ∧ db'.lastMember = db.lastMember
  | .subscriptions => db'.subscriptions = db.subscriptions

section
variable {db db' db'' : Database} {table : Table}

theorem SameIn.refl (db : Database) (table : Table) : db.SameIn db table := by
  cases table with
  | subscribers => exact ⟨rfl, rfl⟩
  | _ => rfl

theorem SameIn.trans (h : db.SameIn db' table) (h' : db'.SameIn db'' table) :
    db.SameIn db'' table := by
  cases table with
  | subscribers => exact ⟨h'.1.trans h.1, h'.2.trans h.2⟩
  | _ => exact Eq.trans h' h

theorem sameIn_run {w : Write} {rows : Nat} (hrun : w.run db = .ok (rows, db'))
    (ht : table ≠ w.table) : db.SameIn db' table := by
  cases w with
  | addMember new =>
    obtain ⟨htopics, hsubscriptions, -⟩ := addMember_frame hrun
    cases table with
    | topics => exact htopics
    | subscribers => exact absurd rfl ht
    | subscriptions => exact hsubscriptions
  | _ =>
    cases hrun
    cases table with
    | subscribers => first | exact absurd rfl ht | exact ⟨rfl, rfl⟩
    | _ => first | exact absurd rfl ht | rfl

end

end Database

/-! ## Writes -/

section
variable {w : Write} {t subscriber : String} {accepted : Bool}

theorem Write.Inserts.scope (h : w.Inserts t subscriber) :
    w.table = .subscribers ∧ w.topic? = some t := by
  cases w with
  | addMember new => exact ⟨rfl, congrArg some h.1⟩
  | _ => exact h.elim

theorem Write.Applies.topic (h : w.Applies t accepted subscriber) : w.topic? = some t := by
  rcases h with ⟨state, rfl⟩ | ⟨-, rfl | h⟩
  · rfl
  · rfl
  · exact h.scope.2

theorem Write.Applies.table (h : w.Applies t accepted subscriber) :
    w.table ∈ if accepted then [Table.subscriptions, .subscribers] else [.subscriptions] := by
  rcases h with ⟨state, rfl⟩ | ⟨rfl, rfl | h⟩
  · cases accepted <;> exact List.mem_cons_self
  · exact List.mem_cons_of_mem _ List.mem_cons_self
  · rw [h.scope.1]
    exact List.mem_cons_of_mem _ List.mem_cons_self

namespace Call.Issues

variable {call : Call}

theorem table (h : call.Issues w) : w.table ∈ call.tables := by
  cases call with
  | registerTopic =>
    obtain ⟨row, -, rfl⟩ := h
    exact List.mem_cons_self
  | deregisterTopic topic =>
    rcases h with rfl | rfl
    · exact List.mem_cons_self
    · exact List.mem_cons_of_mem _ List.mem_cons_self
  | addSubscriber => exact List.mem_singleton.mpr (Write.Inserts.scope h).1
  | heal =>
    rcases h with rfl | h
    · exact List.mem_cons_self
    · exact List.mem_singleton.mpr h.scope.1
  | applyConfirmation => exact Write.Applies.table h
  | handleResponse => exact h.elim fun _ h => h.table
  | setNotification | confirm | deny | applyDenial | retire | handleWithdrawal =>
    obtain ⟨_, rfl⟩ := h
    exact List.mem_cons_self
  | removeSubscriber | removeAllForTopic | requestSubscribe | requestUnsubscribe | purge
  | purgeDeprecated =>
    subst h
    exact List.mem_cons_self
  | _ => exact h.elim

theorem topic (h : call.Issues w) (ha : call.address? = some t) : w.topic? = some t := by
  cases call with
  | registerTopic =>
    obtain ⟨row, rfl, rfl⟩ := h
    exact ha
  | deregisterTopic topic => rcases h with rfl | rfl <;> exact ha
  | addSubscriber => exact (Write.Inserts.scope h).2.trans ha
  | heal =>
    rcases h with rfl | h
    · exact ha
    · exact h.scope.2.trans ha
  | applyConfirmation => exact (Write.Applies.topic h).trans ha
  | setNotification | confirm | deny | applyDenial | retire | handleWithdrawal =>
    obtain ⟨_, rfl⟩ := h
    exact ha
  | removeSubscriber | removeAllForTopic | requestSubscribe | requestUnsubscribe | purge =>
    subst h
    exact ha
  | _ => cases ha

end Call.Issues

end

/-! ## Calls -/

/-- What a call leaves as it was in a database. -/
structure Call.Spares (call : Call) (db db' : Database) : Prop where
  schema : db'.version = db.version ∧ db'.tables = db.tables
  tables : ∀ table, table ∉ call.tables → db.SameIn db' table
  /-- All records keep their places and requests. -/
  order : call.shift = .still → db'.marks = db.marks
  others : call ≠ .purgeDeprecated → ∀ t, call.addressee? db = some t →
    db'.selection (decide <| · ≠ t) = db.selection (decide <| · ≠ t)
  unaddressed : call ≠ .purgeDeprecated → call.addressee? db = none → db' = db

section
variable {call : Call} {reply : Reply} {db db' : Database}

theorem Call.Spares.refl (call : Call) (db : Database) : call.Spares db db :=
  ⟨⟨rfl, rfl⟩, fun table _ => .refl db table, fun _ => rfl, fun _ _ _ => rfl, fun _ _ => rfl⟩

theorem Operation.Only.keeps {α : Type} {P : Write → Prop} {I : Database → Prop} {op : Operation α}
    (h : op.Only P) (hP : ∀ w, P w → ∀ db rows db', I db → w.run db = .ok (rows, db') → I db')
    {a : α} (hr : op.Returns db a db') (hI : I db) : I db' := by
  obtain ⟨-, last, hb, -⟩ := Operation.returns_iff.mp hr
  have hend := Script.Only.keeps h hP hI
  rwa [hb] at hend

theorem Operation.Reads.eq_of_returns {α : Type} {op : Operation α} (h : op.Reads) {a : α}
    (hr : op.Returns db a db') : db' = db :=
  Operation.Only.keeps (I := (· = db)) h (fun _ hw => hw.elim) hr rfl

theorem Call.selection_of_returns (h : db.Reached) (hr : call.operation.Returns db reply db')
    (hp : call ≠ .purgeDeprecated) {q : String → Bool}
    (hq : ∀ t, call.addressee? db = some t → q t = false) : db'.selection q = db.selection q := by
  have hkeeps : ∀ t, q t = false → ∀ w : Write, w.topic? = some t → ∀ d rows d',
      d.selection q = db.selection q → w.run d = .ok (rows, d') →
      d'.selection q = db.selection q := fun t ht w hw d rows d' hd hrun =>
    (Database.run_selection hw ht hrun).2.trans hd
  have hnamed : ∀ t, call.address? = some t → q t = false → db'.selection q = db.selection q :=
    fun t ha ht => call.issues.keeps (fun w hw => hkeeps t ht w (hw.topic ha)) hr rfl
  cases hquery : call.isQuery with
  | true => rw [(Call.reads_of_isQuery hquery).eq_of_returns hr]
  | false =>
    cases call with
    | handleResponse requestId accepted subscriber details expiry =>
      obtain ⟨_, ho, -⟩ := Operation.returns_map.mp hr
      rcases Response.handle_returns h.wellFormed ho with ⟨-, rfl⟩ | ⟨-, row, state, hc, ha⟩
      · rfl
      · have ht : q row.topic = false := hq _ (by rw [addressee?, hc]; rfl)
        have happly := Response.apply_only row.topic accepted subscriber details expiry
        have hend := Script.Only.keeps happly
          (fun w hw => hkeeps _ ht w (Write.Applies.topic hw)) rfl
        rwa [ha] at hend
    | purgeDeprecated => exact absurd rfl hp
    | _ =>
      first
      | exact hnamed _ rfl (hq _ rfl)
      | cases hquery

theorem Call.eq_of_unaddressed (h : db.Reached) (hr : call.operation.Returns db reply db')
    (hp : call ≠ .purgeDeprecated) (ha : call.addressee? db = none) : db' = db := by
  cases hquery : call.isQuery with
  | true => exact (Call.reads_of_isQuery hquery).eq_of_returns hr
  | false =>
    cases call with
    | handleResponse requestId accepted subscriber details expiry =>
      obtain ⟨_, ho, -⟩ := Operation.returns_map.mp hr
      rcases Response.handle_returns h.wellFormed ho with ⟨-, hd⟩ | ⟨-, row, _, hc, -⟩
      · exact hd
      · simp [addressee?, hc] at ha
    | purgeDeprecated => exact absurd rfl hp
    | _ => simp [isQuery, addressee?, address?] at hquery ha

theorem Call.spares_of_returns (h : db.Reached) (hr : call.operation.Returns db reply db') :
    call.Spares db db' where
  schema := call.issues.keeps (I := fun d => d.version = db.version ∧ d.tables = db.tables)
    (fun _ _ _ _ _ hd hrun => ⟨(Database.run_members hrun).1.trans hd.1,
      (Database.shifted_run hrun).tables.trans hd.2⟩) hr ⟨rfl, rfl⟩
  tables table ht := by
    refine call.issues.keeps (I := (db.SameIn · table)) (fun w hw d rows d' hd hrun => ?_) hr
      (.refl db table)
    exact hd.trans (Database.sameIn_run hrun fun he => ht (he ▸ hw.table))
  order hs := by
    refine Operation.Only.keeps (I := (·.marks = db.marks)) (Call.rests hs)
      (fun w hw d rows d' hd hrun => ?_) hr rfl
    have hmoves := (Database.shifted_run hrun).marks
    rw [hw] at hmoves
    exact hmoves.trans hd
  others hp t ha := Call.selection_of_returns h hr hp fun u hu => by
    rw [ha, Option.some.injEq] at hu
    simp [hu]
  unaddressed := Call.eq_of_unaddressed h hr

end

/-! ## Commands -/

namespace Connection

theorem committed_exec {α : Type} {s : Script α} (hs : s.Only fun _ => False) (c : Connection) :
    (c.exec s).connection.committed = c.committed := by
  induction s generalizing c with
  | done value => rfl
  | fail failure => rfl
  | look table next ih =>
    unfold exec
    split
    · exact ih _ (hs _) _
    · rfl
  | write w next ih => exact hs.1.elim
  | note n next ih => exact ih hs c

section
variable {α : Type} {op : Operation α} (h : op.Reads) (c : Connection)

include h

theorem committed_join : (c.join op).connection.committed = c.committed := by
  cases hr : op.refusal with
  | some failure => simp [join, hr]
  | none =>
    rw [join_connection c hr]
    exact committed_exec h c

theorem committed_transact : (c.transact op).connection.committed = c.committed := by
  cases hr : op.refusal with
  | some failure => simp [transact, hr]
  | none =>
    rcases c.transact_cases hr with ⟨_, -, -, hu⟩ | ⟨last, db, hb, -, hc, -⟩
    · exact hu.committed
    · have hsame := Script.Only.unchanged h c.committed
      rw [hb] at hsame
      exact hc.trans hsame

end

end Connection

namespace World

section
variable {w : World} {i : Nat} (place : Path)

/-- A database that is put back as it was found. -/
theorem database_putBack (s : Store) (link : Link) {c : Connection}
    (hc : c.committed = (w.connection i link).committed) :
    (w.putBack i s link c).files.database place = w.files.database place := by
  cases hm : (Home.file place).meets link.home with
  | false => exact database_keep_of_apart w hm c.committed
  | true =>
    have hhome := Home.eq_of_meets hm
    change (w.keep link.home c.committed).1.files.database place = _
    rw [← hhome]
    cases hd : w.files.database place with
    | error fault => simp [keep, hd]
    | ok db =>
      have hsame : c.committed = db := by
        rw [hc]
        simp [connection, ← hhome, database, hd, Except.toOption]
      simp only [keep, hd, hsame]
      by_cases hp : place = [] ∨ place = Path.top
      · rw [← hd]
        unfold Files.database Files.node?
        rw [if_pos hp, if_pos hp]
      · exact Files.database_put_self _ (not_or.mp hp) db

theorem database_call {α : Type} {op : Operation α} (h : op.Reads) :
    (w.call i op).1.files.database place = w.files.database place := by
  have hn : ∀ failure, (w.callUnlinked i op failure).1.files.database place =
      w.files.database place := by
    intro failure
    unfold callUnlinked
    split
    · rfl
    · rw [files_takeNotes]
  unfold call
  split
  · exact hn _
  · rename_i s _
    split
    · exact hn _
    · rename_i link _
      simp only [files_takeNotes]
      refine database_putBack place s link ?_
      split
      · exact Connection.committed_join h _
      · exact Connection.committed_transact h _

theorem database_setMetrics (f : Metrics → Metrics) :
    (w.setMetrics i f).files.database place = w.files.database place := by
  unfold setMetrics
  split <;> rfl

theorem database_refreshFrom {counted : List (String × Operation Nat)}
    (hp : ∀ p ∈ counted, p.2.Plain) :
    (w.refreshFrom i counted).1.files.database place = w.files.database place := by
  induction counted generalizing w with
  | nil => rfl
  | cons p rest ih =>
    obtain ⟨name, op⟩ := p
    have hcall := database_call (w := w) (i := i) place (hp (name, op) List.mem_cons_self).reads
    unfold refreshFrom
    cases hr : w.call i op with
    | mk w₁ result =>
      rw [hr] at hcall
      cases result with
      | error failure => exact hcall
      | ok n =>
        refine (ih fun q hq => hp q (List.mem_cons_of_mem _ hq)).trans ?_
        exact (database_setMetrics place _).trans hcall

theorem database_output {command : Command} (hc : command ≠ .purgeDeprecated) :
    (w.output i command).1.files.database place = w.files.database place := by
  cases command with
  | stats format => exact database_refreshFrom place gauges_plain
  | subscribers topic => exact database_call place (Membership.fetch_reads _)
  | pending =>
    exact database_call place
      (show Negotiation.pending.Reads from Script.Only.bind (Script.see_only _ _ _) fun _ => trivial)
  | purgeDeprecated => exact absurd rfl hc
  | unknown name => rfl

theorem database_closeStore : (w.closeStore i).files.database place = w.files.database place := by
  unfold closeStore
  split
  · rfl
  · split <;> rfl

/-- Of the commands only the purge changes a database whose schema is current, in the file that it
opens or in any other. -/
theorem database_administer (path : List Text.Point) {command : Command}
    (hc : command ≠ .purgeDeprecated) {db : Database} (hd : w.files.database place = .ok db)
    (hv : db.version = schemaVersion) :
    (w.administer path command).1.files.database place = .ok db := by
  have hopened : (w.started path).1.files.database place = .ok db := by
    rcases openStore_cases (w.addStore path).1 w.stores.length with ⟨-, hf⟩ | ⟨s, a, home, hr⟩
    · exact (hf place).trans hd
    · exact hr.current place db hd hv
  unfold administer
  cases hs : w.started path with
  | mk v result =>
    rw [hs] at hopened
    unfold started at hs
    simp only [addStore] at hs ⊢
    rw [hs]
    cases result with
    | error failure => exact hopened
    | ok opened =>
      exact (database_closeStore place).trans ((database_output place hc).trans hopened)

end

/-! ## All calls and commands -/

/-- Whatever is refused, a call leaves what is outside its scope, and a query leaves everything.
Where nothing stands in the way, a topic goes with its memberships and no others. Of the commands
only the purge changes a database whose schema is current. -/
theorem calls_keep_to_their_scope {w : World} {i : Nat} (hi : w.Idle i) {db : Database}
    (hd : w.committed? i = some db) (h : db.Reached) :
    (∀ call : Call, ∃ db', (w.call i call.operation).1.committed? i = some db' ∧
      call.Spares db db' ∧ (call.isQuery = true → db' = db)) ∧
    (w.Calm i → ∀ topic, ∃ rows db',
      (w.call i (Call.deregisterTopic topic).operation).2 = .ok (.number rows) ∧
      (w.call i (Call.deregisterTopic topic).operation).1.committed? i = some db' ∧
      db'.topics = db.topics.filter (·.topic ≠ topic) ∧
      db'.members = db.members.filter (·.topic ≠ topic) ∧ db'.lastMember = db.lastMember ∧
      db'.subscriptions = db.subscriptions) ∧
    ∀ (v : World) (path : List Text.Point) (command : Command), command ≠ .purgeDeprecated →
      ∀ place found, v.files.database place = .ok found → found.version = schemaVersion →
        (v.administer path command).1.files.database place = .ok found := by
  refine ⟨fun call => ?_, fun hc topic => ?_, fun v path command hne place found hf hv =>
    database_administer place path hne hf hv⟩
  · obtain ⟨-, db', hd', ho⟩ := call_step hi hd call
    refine ⟨db', hd', ?_⟩
    generalize (w.call i call.operation).2 = result at ho
    cases ho with
    | fails failure => exact ⟨.refl call db, fun _ => rfl⟩
    | returns hr =>
      exact ⟨Call.spares_of_returns h hr, fun hq => (Call.reads_of_isQuery hq).eq_of_returns hr⟩
  · have hr : (Call.deregisterTopic topic).operation.Returns db _ _ :=
      Operation.returns_map.mpr ⟨_, Directory.returns_deregister h.wellFormed topic, rfl⟩
    obtain ⟨hres, -, hcom⟩ := calm_of_returns hc hd hr
    exact ⟨_, _, hres, hcom, rfl, rfl, rfl, rfl⟩

def neighbours : List Turn :=
  [⟨[], .registerTopic "t" "p" none (.plain true)⟩, ⟨[], .registerTopic "u" "p" none (.plain true)⟩,
    ⟨[], .addSubscriber "t" "s" (.list []) (some 0) none⟩,
    ⟨[], .addSubscriber "u" "s" (.list []) (some 0) none⟩, ⟨[], .requestSubscribe "u" "r"⟩,
    ⟨[], .requestSubscribe "t" "q"⟩]

/-- A response by request, the end of a topic, and a report on a file. -/
theorem calls_keep_to_their_scope_neighbours :
    let w := (lone .fresh []).run 0 neighbours
    let denial := (Call.handleResponse (some "r") false "s" (.list []) (some 0)).operation
    let v := holding [⟨"t", "p", "", 1⟩]
    ∃ before denied gone, w.committed? 0 = some before ∧
      (w.call 0 denial).1.committed? 0 = some denied ∧ denied.members = before.members ∧
      denied.marks = [("u", some "r"), ("t", some "q")] ∧
      denied.selection (decide <| · ≠ "u") = before.selection (decide <| · ≠ "u") ∧
      (w.call 0 (Call.deregisterTopic "t").operation).1.committed? 0 = some gone ∧
      gone.members.map (·.id) = [2] ∧
      (v.administer (Text.points "r.db") (.stats .json)).1.files.database [Text.toBytes "r.db"] =
        v.files.database [Text.toBytes "r.db"] := by
  intro w denial v
  obtain ⟨hi, before, hd, hr⟩ := reached_run neighbours
  have hc : w.Calm 0 := run_calm (lone_calm .fresh) (by decide)
  obtain ⟨hcalls, hgone, hcommands⟩ := calls_keep_to_their_scope hi hd hr
  obtain ⟨denied, hdenied, hspares, -⟩ :=
    hcalls (.handleResponse (some "r") false "s" (.list []) (some 0))
  obtain ⟨rows, gone, -, hd', -, hmembers, -⟩ := hgone hc "t"
  have hbefore := committed_of_committed? hd
  have hcarrier : (w.committed 0).carrier? (some "r") = some ⟨"u", 1, some "r"⟩ := by decide +kernel
  have hmarks : (w.committed 0).marks = [("u", some "r"), ("t", some "q")] := by decide +kernel
  have hids : ((w.committed 0).members.filter (·.topic ≠ "t")).map (·.id) = [2] := by decide +kernel
  have hfile : v.files.database [Text.toBytes "r.db"] =
      .ok { Database.fresh with topics := [⟨"t", "p", "", 1⟩] } := by
    decide +kernel
  rw [hbefore] at hcarrier hmarks hids
  refine ⟨before, denied, gone, hd, hdenied, (hspares.tables .subscribers (by decide)).1,
    (hspares.order rfl).trans hmarks, hspares.others nofun "u" ?_, hd', ?_, ?_⟩
  · simp [Call.addressee?, hcarrier]
  · rw [hmembers, hids]
  · exact (hcommands v _ (.stats .json) nofun _ _ hfile rfl).trans hfile.symm

end World

end PubSub
