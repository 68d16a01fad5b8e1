import Mathlib.Data.List.Dedup
import Mathlib.Data.List.Perm.Subperm
import PubSub.Proofs.SharedNumbers
import PubSub.Proofs.RecordOrder

/-!
# The order of posts

A post is a request or a withdrawal that was answered: it puts the record of its topic
last. So the records that are left stand in the order in which their topics were last
posted (`Database.Follows`), and a request belongs to the topic that was posted last among
those whose records carry it (`Database.Follows.topicOf`). Posts are told in the order of
the calls, each with the store in whose transaction it still waits.
-/

namespace PubSub

/-! ## Last occurrences -/

section
variable {α : Type} [DecidableEq α]

theorem dedup_concat (l : List α) (a : α) : (l ++ [a]).dedup = l.dedup.filter (· ≠ a) ++ [a] := by
  induction l with
  | nil => rfl
  | cons b l ih =>
    by_cases hb : b ∈ l
    · rw [List.cons_append, List.dedup_cons_of_mem (List.mem_append_left _ hb), ih,
        List.dedup_cons_of_mem hb]
    · rw [List.dedup_cons_of_notMem hb]
      by_cases hba : b = a
      · subst hba
        rw [List.cons_append, List.dedup_cons_of_mem (by simp), ih, List.filter_cons_of_neg (by simp)]
      · rw [List.cons_append, List.dedup_cons_of_notMem (by simp [hb, hba]), ih,
          List.filter_cons_of_pos (by simpa using hba), List.cons_append]

theorem getLast?_filter_dedup (p : α → Bool) (l : List α) :
    (l.dedup.filter p).getLast? = (l.filter p).getLast? := by
  induction l with
  | nil => rfl
  | cons a l ih =>
    by_cases ha : a ∈ l
    · rw [List.dedup_cons_of_mem ha, ih]
      by_cases hp : p a = true
      · -- The same element comes again, so the list goes on.
        have hne : l.filter p ≠ [] := List.ne_nil_of_mem (List.mem_filter.mpr ⟨ha, hp⟩)
        rw [List.filter_cons_of_pos hp, List.getLast?_cons, List.getLast?_eq_some_getLast hne,
          Option.getD_some]
      · rw [List.filter_cons_of_neg hp]
    · rw [List.dedup_cons_of_notMem ha]
      by_cases hp : p a = true
      · rw [List.filter_cons_of_pos hp, List.filter_cons_of_pos hp, List.getLast?_cons,
          List.getLast?_cons, ih]
      · rw [List.filter_cons_of_neg hp, List.filter_cons_of_neg hp, ih]

end

theorem filter_eq_of_sublist {α : Type} {l m : List α} (h : l.Sublist m) (hm : m.Nodup) {p : α → Bool}
    (hp : ∀ a ∈ m, p a = true → a ∈ l) : l.filter p = m.filter p := by
  refine (h.filter p).eq_of_length_le ?_
  refine (List.Nodup.subperm (hm.filter p) fun a ha => ?_).length_le
  obtain ⟨ham, hpa⟩ := List.mem_filter.mp ha
  exact List.mem_filter.mpr ⟨hp a ham hpa, hpa⟩

/-! ## Records that follow posts -/

/-- The topic whose record is put last. -/
def Shift.post : Shift → Option String
  | .last topic => some topic
  | _ => none

namespace Database

/-- The records stand in the order in which their topics were last posted. -/
structure Follows (db : Database) (posts : List String) : Prop where
  tables : db.hasAll = true
  order : (db.subscriptions.map (·.topic)).Sublist posts.dedup

/-- Among the topics whose records carry a request, the one that was posted last. -/
def latest (db : Database) (posts : List String) : Option String → Option String
  | some requestId => (posts.filter fun t => db.requestOf t = some requestId).getLast?
  | none => none

theorem topics_eq (db : Database) : db.subscriptions.map (·.topic) = db.marks.map (·.1) := by
  rw [marks, List.map_map]
  rfl

theorem requestOf_of_mem {db : Database} (h : db.Keyed) {row : SubscriptionRow}
    (hr : row ∈ db.subscriptions) : db.requestOf row.topic = row.requestId := by
  rw [requestOf, subscription?_of_mem h hr]
  rfl

theorem follows_fresh : fresh.Follows [] := ⟨rfl, .slnil⟩

namespace Follows

variable {db db' : Database} {posts : List String}

theorem keyed (h : db.Follows posts) : db.Keyed := posts.nodup_dedup.sublist h.order

theorem mem (h : db.Follows posts) {row : SubscriptionRow} (hr : row ∈ db.subscriptions) :
    row.topic ∈ posts :=
  List.mem_dedup.mp (h.order.subset (List.mem_map_of_mem hr))

theorem shifted (h : db.Follows posts) {shift : Shift} (hs : db.Shifted shift db') :
    db'.Follows (posts ++ shift.post.toList) := by
  refine ⟨(hasAll_congr hs.tables).trans h.tables, ?_⟩
  have ho := h.order
  have hm := hs.marks
  rw [topics_eq] at ho ⊢
  cases shift with
  | still =>
    have hsame : db'.marks = db.marks := hm
    simpa [Shift.post, hsame] using ho
  | last topic =>
    obtain ⟨requestId, hm⟩ := hm
    have hrest :
        (db.marks.filter (·.1 ≠ topic)).map (·.1) = (db.marks.map (·.1)).filter (· ≠ topic) := by
      rw [List.filter_map]
      rfl
    rw [hm, List.map_append, hrest]
    change List.Sublist _ (posts ++ [topic]).dedup
    rw [dedup_concat]
    exact (ho.filter _).append (.refl _)
  | thinned => simpa [Shift.post] using (hm.map Prod.fst).trans ho

theorem topicOf (h : db.Follows posts) (requestId : Option String) :
    db.topicOf requestId = db.latest posts requestId := by
  cases requestId with
  | none => rfl
  | some requestId =>
    let carries (t : String) : Bool := db.requestOf t = some requestId
    have hrows : (db.marks.filter (·.2 = some requestId)).map (·.1) =
        (db.subscriptions.map (·.topic)).filter carries := by
      unfold marks
      rw [List.filter_map, List.filter_map, List.map_map]
      refine congrArg (List.map _) (List.filter_congr fun row hr => ?_)
      simp only [Function.comp, carries, requestOf_of_mem h.keyed hr]
    have hall : ∀ t ∈ posts.dedup, carries t = true → t ∈ db.subscriptions.map (·.topic) := by
      intro t _ ht
      obtain ⟨row, hrow, -⟩ := Option.bind_eq_some_iff.mp (of_decide_eq_true ht)
      have htopic : row.topic = t := by simpa using List.find?_some hrow
      exact htopic ▸ List.mem_map_of_mem (List.mem_of_find?_eq_some hrow)
    rw [topicOf_some, ← List.getLast?_map, hrows, filter_eq_of_sublist h.order posts.nodup_dedup hall]
    exact getLast?_filter_dedup carries posts

end Follows

end Database

/-! ## Posts -/

/-- A request or a withdrawal that was answered. -/
structure Post where
  topic : String
  /-- The store in whose transaction it waits to be committed. -/
  waits : Option Nat
  deriving DecidableEq

namespace Post

def settled (log : List Post) : List String := (log.filter (·.waits = none)).map (·.topic)

def seen (k : Nat) (log : List Post) : List String :=
  (log.filter fun p => p.waits = none ∨ p.waits = some k).map (·.topic)

/-- The transaction of a store is committed. -/
def release (k : Nat) (log : List Post) : List Post :=
  log.map fun p => if p.waits = some k then { p with waits := none } else p

/-- The transaction of a store is given up. -/
def drop (k : Nat) (log : List Post) : List Post := log.filter (·.waits ≠ some k)

/-- The log after a call, if a transaction of the store is open then. -/
def afterCall (on : Nat) (inside : Bool) (call : Call) (log : List Post) :
    Except Failure Reply → List Post
  | .ok _ => log ++ call.shift.post.toList.map fun topic => ⟨topic, if inside then some on else none⟩
  | .error _ => if inside then log else drop on log

def afterLeave (on : Nat) (entry : World.Entry) (outcome : Option Failure) (log : List Post) :
    List Post :=
  match entry, outcome with
  | .joined, _ => log
  | .outermost _, none => release on log
  | .outermost _, some _ => drop on log

section
variable {on k : Nat} {log : List Post}

theorem settled_append (l m : List Post) : settled (l ++ m) = settled l ++ settled m := by
  simp [settled]

theorem seen_append (k : Nat) (l m : List Post) : seen k (l ++ m) = seen k l ++ seen k m := by
  simp [seen]

theorem settled_free (topics : List String) :
    settled (topics.map fun topic => ⟨topic, none⟩) = topics := by
  induction topics with
  | nil => rfl
  | cons topic topics ih => simpa [settled] using ih

theorem settled_waiting (topics : List String) :
    settled (topics.map fun topic => ⟨topic, some on⟩) = [] := by
  simp [settled]

theorem seen_own (topics : List String) (inside : Bool) :
    seen on (topics.map fun topic => ⟨topic, if inside then some on else none⟩) = topics := by
  induction topics with
  | nil => rfl
  | cons topic topics ih => cases inside <;> simpa [seen] using ih

theorem seen_other (hne : k ≠ on) (topics : List String) :
    seen k (topics.map fun topic => ⟨topic, some on⟩) = [] := by
  simp [seen, Ne.symm hne]

theorem mem_drop {p : Post} : p ∈ drop on log ↔ p ∈ log ∧ p.waits ≠ some on := by
  simp [drop]

theorem settled_drop (on : Nat) (log : List Post) : settled (drop on log) = settled log := by
  unfold settled drop
  rw [List.filter_filter]
  refine congrArg (List.map _) (List.filter_congr fun p _ => ?_)
  cases hw : p.waits <;> simp

theorem seen_drop (hne : k ≠ on) (log : List Post) : seen k (drop on log) = seen k log := by
  unfold seen drop
  rw [List.filter_filter]
  refine congrArg (List.map _) (List.filter_congr fun p _ => ?_)
  cases hw : p.waits with
  | none => simp
  | some j =>
    by_cases hj : j = k
    · simp [hj, hne]
    · simp [hj]

theorem settled_release (on : Nat) (log : List Post) : settled (release on log) = seen on log := by
  induction log with
  | nil => rfl
  | cons p log ih =>
    have ih' : ((release on log).filter (·.waits = none)).map (·.topic) =
        (log.filter fun p => p.waits = none ∨ p.waits = some on).map (·.topic) := ih
    unfold settled seen
    simp only [release, List.map_cons] at ih' ⊢
    by_cases hp : p.waits = some on
    · simp [hp, ih']
    · cases hw : p.waits with
      | none => simp [hw, ih']
      | some j =>
        have hj : j ≠ on := fun he => hp (by rw [hw, he])
        simp [hw, hj, ih']

theorem waits_of_release {p : Post} (hp : p ∈ release on log) :
    p.waits ≠ some on ∧ (p.waits ≠ none → p ∈ log) := by
  obtain ⟨q, hq, rfl⟩ := List.mem_map.mp hp
  by_cases hw : q.waits = some on
  · simp [hw]
  · simp only [if_neg hw]
    exact ⟨hw, fun _ => hq⟩

theorem release_of_none (h : ∀ p ∈ log, p.waits ≠ some on) : release on log = log := by
  unfold release
  conv_rhs => rw [← List.map_id log]
  refine List.map_congr_left fun p hp => ?_
  rw [if_neg (h p hp)]
  rfl

theorem seen_of_none (h : ∀ p ∈ log, p.waits ≠ some on) : seen on log = settled log := by
  rw [← settled_release, release_of_none h]

end

end Post

/-! ## One store -/

theorem Connection.not_stalled {c : Connection} (hm : c.mayWrite = true) (ho : c.observed = false)
    (hb : c.working = none → c.blocked = none) : ¬c.Stalled := by
  rintro (hst | hst | ⟨hidle, hst⟩)
  · cases hm.symm.trans hst
  · cases ho.symm.trans hst
  · exact hst (hb hidle)

structure Reflects (log : List Post) (k : Nat) (h : Handle) : Prop where
  committed : h.connection.committed.Follows (Post.settled log)
  working : h.entered = true → ∀ db, h.connection.working = some db → db.Follows (Post.seen k log)
  rest : (h.entered = true → h.connection.mayWrite = false ∨ h.connection.working = none) →
    ∀ p ∈ log, p.waits ≠ some k

/-- How the log goes on by what happens on one store. If that can commit nothing, the others do not
notice. -/
structure Post.Beside (on : Nat) (c : Connection) (log log' : List Post) : Prop where
  waits : ∀ k, k ≠ on → ∀ p ∈ log', p.waits = some k → p ∈ log
  seen : c.Stalled → ∀ k, k ≠ on → Post.seen k log' = Post.seen k log

theorem Post.beside_refl (on : Nat) (c : Connection) (log : List Post) : Post.Beside on c log log :=
  ⟨fun _ _ _ hp _ => hp, fun _ _ _ => rfl⟩

theorem Post.beside_drop (on : Nat) (c : Connection) (log : List Post) :
    Post.Beside on c log (Post.drop on log) :=
  ⟨fun _ _ _ hp _ => (Post.mem_drop.mp hp).1, fun _ _ hne => Post.seen_drop hne log⟩

/-- Whether the store is inside a block whose transaction is open. -/
def Handle.inBlock (h : Handle) : Bool := h.entered && h.connection.working.isSome

namespace Reflects

variable {log : List Post} {on : Nat} {h : Handle} (hr : Reflects log on h)

include hr

/-- What a call would see follows the posts that the store sees, if no leftover is in the way. -/
theorem view (hi : h.entered = true ∨ h.connection.working = none) :
    h.connection.view.Follows (Post.seen on log) := by
  cases hw : h.connection.working with
  | some db =>
    rw [Connection.view_of_working hw]
    exact hr.working (hi.resolve_right (by simp [hw])) db hw
  | none =>
    rw [Connection.view_of_idle hw, Post.seen_of_none (hr.rest fun _ => .inr hw)]
    exact hr.committed

theorem dropped {c : Connection} (entered : Bool) (hc : c.committed = h.connection.committed)
    (hw : entered = true → c.working = none) :
    Reflects (Post.drop on log) on ⟨h.opening, entered, c⟩ where
  committed := by
    rw [Post.settled_drop]
    exact hc ▸ hr.committed
  working he db hdb := by cases (hw he).symm.trans hdb
  rest _ _ hp := (Post.mem_drop.mp hp).2

section
variable {call : Call} {c : Connection} (hw : h.connection.Went call.shift c)
  (hfree : h.connection.Free call.shift)

include hw hfree

theorem posted_inside (hmay : c.mayWrite = h.connection.mayWrite) (he : h.entered = true)
    (hopen : h.connection.working ≠ none) :
    let log' := log ++ call.shift.post.toList.map fun topic => ⟨topic, some on⟩
    Reflects log' on ⟨h.opening, h.entered, c⟩ ∧ Post.Beside on h.connection log log' := by
  intro log'
  obtain ⟨db, hdb⟩ := Option.ne_none_iff_exists'.mp hopen
  obtain ⟨db', hdb'⟩ : ∃ db', c.working = some db' :=
    Option.isSome_iff_exists.mp (hw.working.trans (by rw [hdb]; rfl))
  refine ⟨⟨?_, fun _ d hd => ?_, fun hp p hm => ?_⟩, ⟨fun k hne p hm hk => ?_, fun _ k hne => ?_⟩⟩
  · rw [Post.settled_append, Post.settled_waiting, List.append_nil]
    exact (hw.committed hopen) ▸ hr.committed
  · have hshift := hw.shifted
    have hseen : Post.seen on (call.shift.post.toList.map fun topic => ⟨topic, some on⟩) =
        call.shift.post.toList := Post.seen_own _ true
    rw [Connection.view_of_working hdb, Connection.view_of_working hd] at hshift
    rw [Post.seen_append, hseen]
    exact (hr.working he db hdb).shifted hshift
  · have hreader : h.connection.mayWrite = false := by
      rw [← hmay]
      exact (hp he).resolve_right (by simp [hdb'])
    rcases List.mem_append.mp hm with hm | hm
    · exact hr.rest (fun _ => .inl hreader) p hm
    · -- Who may only read has posted nothing.
      obtain ⟨topic, ht, -⟩ := List.mem_map.mp hm
      have hs : call.shift ≠ .still := by
        intro hs
        simp [hs, Shift.post] at ht
      rw [(hfree hs).1] at hreader
      cases hreader
  · rcases List.mem_append.mp hm with hm | hm
    · exact hm
    · obtain ⟨topic, -, rfl⟩ := List.mem_map.mp hm
      exact absurd (Option.some.inj hk).symm hne
  · rw [Post.seen_append, Post.seen_other hne, List.append_nil]

theorem posted_outside (hopen : h.connection.working = none) :
    let log' := log ++ call.shift.post.toList.map fun topic => ⟨topic, none⟩
    Reflects log' on ⟨h.opening, h.entered, c⟩ ∧ Post.Beside on h.connection log log' := by
  intro log'
  have hopen' : c.working = none := hw.idle hopen
  refine ⟨⟨?_, fun _ d hd => ?_, fun _ p hm => ?_⟩, ⟨fun k _ p hm hk => ?_, fun hstalled k _ => ?_⟩⟩
  · have hshift := hw.shifted
    rw [Connection.view_of_idle hopen, Connection.view_of_idle hopen'] at hshift
    rw [Post.settled_append, Post.settled_free]
    exact hr.committed.shifted hshift
  · cases hopen'.symm.trans hd
  · rcases List.mem_append.mp hm with hm | hm
    · exact hr.rest (fun _ => .inr hopen) p hm
    · obtain ⟨topic, -, rfl⟩ := List.mem_map.mp hm
      simp
  · rcases List.mem_append.mp hm with hm | hm
    · exact hm
    · obtain ⟨topic, -, rfl⟩ := List.mem_map.mp hm
      cases hk
  · -- Beside the transaction of somebody else nothing is posted.
    have hs : call.shift = .still := by
      by_contra hs
      obtain ⟨hm, hf⟩ := hfree hs
      obtain ⟨hb, ho⟩ := hf hopen
      exact Connection.not_stalled hm ho (fun _ => hb) hstalled
    simp [log', hs, Shift.post]

end

theorem answered {call : Call} {reply : Reply}
    (hok : (h.perform call.operation).result = .ok reply) :
    let h' : Handle := ⟨h.opening, h.entered, (h.perform call.operation).connection⟩
    let log' := Post.afterCall on h'.inBlock call log (.ok reply)
    Reflects log' on h' ∧ Post.Beside on h.connection log log' := by
  intro h' log'
  obtain ⟨hw, hfree⟩ := h.perform_of_ok call hok
  have hmay : h'.connection.mayWrite = h.connection.mayWrite :=
    congrArg (·.2.2) (h.perform_around call.operation)
  by_cases hopen : h.connection.working = none
  · have hin : h'.inBlock = false := by
      rw [Handle.inBlock, show h'.connection.working.isSome = _ from hw.working, hopen]
      exact Bool.and_false _
    simp only [log', Post.afterCall, hin, Bool.false_eq_true, if_false]
    exact hr.posted_outside hw hfree hopen
  · have he : h.entered = true := by
      by_contra hn
      simp only [Handle.perform, hn, if_false] at hok
      exact hopen (Connection.working_of_transact hok).1
    have hin : h'.inBlock = true := by
      rw [Handle.inBlock, show h'.connection.working.isSome = _ from hw.working,
        Option.isSome_iff_ne_none.mpr hopen, show h'.entered = true from he]
      rfl
    simp only [log', Post.afterCall, hin, if_true]
    exact hr.posted_inside hw hfree hmay he hopen

theorem failed {call : Call} {failure : Failure}
    (hf : (h.perform call.operation).result = .error failure) :
    let h' : Handle := ⟨h.opening, h.entered, (h.perform call.operation).connection⟩
    let log' := Post.afterCall on h'.inBlock call log (.error failure)
    Reflects log' on h' ∧ Post.Beside on h.connection log log' := by
  intro h' log'
  have hmay : h'.connection.mayWrite = h.connection.mayWrite :=
    congrArg (·.2.2) (h.perform_around call.operation)
  cases hin : h'.inBlock with
  | false =>
    simp only [log', Post.afterCall, hin, Bool.false_eq_true, if_false]
    refine ⟨?_, Post.beside_drop on h.connection log⟩
    have hclosed : h.entered = true → h'.connection.working = none := by
      intro he
      simpa [Handle.inBlock, h', he] using hin
    rcases h.perform_of_error call hf with ⟨he, hw⟩ | ⟨-, hc⟩
    · have hcom := hr.committed.shifted hw.committed_still
      refine ⟨?_, fun he d hd => (by cases (hclosed he).symm.trans hd), fun _ p hp => (Post.mem_drop.mp hp).2⟩
      rw [Post.settled_drop]
      simpa [Shift.post] using hcom
    · exact hr.dropped h.entered hc hclosed
  | true =>
    simp only [log', Post.afterCall, hin, if_true]
    refine ⟨?_, Post.beside_refl on h.connection log⟩
    obtain ⟨he, hsome⟩ := Bool.and_eq_true_iff.mp hin
    rcases h.perform_of_error call hf with ⟨-, hw⟩ | ⟨hn, -⟩
    · have hopen : h.connection.working ≠ none := by
        rw [← Option.isSome_iff_ne_none, ← hw.working]
        exact hsome
      obtain ⟨db, hdb⟩ := Option.ne_none_iff_exists'.mp hopen
      refine ⟨(hw.committed hopen) ▸ hr.committed, fun _ d hd => ?_, fun hp => hr.rest fun he => ?_⟩
      · have hshift := hw.shifted
        rw [Connection.view_of_working hdb, Connection.view_of_working hd] at hshift
        simpa [Shift.post] using (hr.working he db hdb).shifted hshift
      · rw [← hmay]
        exact .inl ((hp he).resolve_right (Option.isSome_iff_ne_none.mp hsome))
    · rw [show h'.connection.working = none from hn he] at hsome
      cases hsome

theorem entered : Reflects log on h.enter.1 := by
  unfold Handle.enter
  cases he : h.entered with
  | true => exact hr
  | false =>
    have hrest : ∀ p ∈ log, p.waits ≠ some on := hr.rest fun hn => by
      rw [he] at hn
      cases hn
    simp only [Bool.false_eq_true, if_false]
    rcases h.connection.open?_cases with ⟨fault, c, ho, hu, -⟩ | ⟨c, ho, hu, -, hw⟩
    · rw [ho]
      have hc := (hu.trans (Connection.rollback_unseen c)).committed
      exact ⟨hc ▸ hr.committed, fun hn => (by cases hn), fun _ => hrest⟩
    · rw [ho]
      refine ⟨hu.committed ▸ hr.committed, fun _ db hdb => ?_, fun _ => hrest⟩
      cases hw.symm.trans hdb
      rw [Post.seen_of_none hrest]
      exact hr.committed

theorem left {entry : World.Entry} (outcome : Option Failure)
    (he : ∀ opening, entry = .outermost opening → h.entered = true) :
    let log' := Post.afterLeave on entry (h.leave entry outcome).2 log
    Reflects log' on (h.leave entry outcome).1 ∧ Post.Beside on h.connection log log' := by
  intro log'
  cases entry with
  | joined => exact ⟨hr, Post.beside_refl on h.connection log⟩
  | outermost opening =>
    have hin := he opening rfl
    have hdropped : ∀ {c : Connection}, c.committed = h.connection.committed →
        Reflects (Post.drop on log) on ⟨h.opening, false, c⟩ ∧
          Post.Beside on h.connection log (Post.drop on log) := fun hc =>
      ⟨hr.dropped false hc fun hn => (by cases hn), Post.beside_drop on h.connection log⟩
    simp only [log', Handle.leave]
    split
    · exact hdropped rfl
    · rcases h.connection.settle_cases outcome with ⟨hf, hcommit, hw⟩ | ⟨⟨failure, hf⟩, hc⟩
      · simp only [hf, Post.afterLeave]
        refine ⟨⟨?_, fun hn => (by cases hn), fun _ p hp => (Post.waits_of_release hp).1⟩,
          ⟨fun k _ p hp hk => (Post.waits_of_release hp).2 (by simp [hk]), fun hstalled k _ => ?_⟩⟩
        · rw [Post.settled_release]
          exact hr.working hin _ hw
        · -- A transaction beside others is committed only by who reads, and then nothing waits.
          have hreader : h.connection.mayWrite = false := by
            by_contra hm
            rw [Bool.not_eq_false] at hm
            exact Connection.not_stalled hm (Connection.observed_of_commit hcommit hm)
              (fun hidle => by cases hidle.symm.trans hw) hstalled
          rw [Post.release_of_none (hr.rest fun _ => .inl hreader)]
      · simp only [hf, Post.afterLeave]
        exact hdropped hc

end Reflects

end PubSub
