import PubSub.Proofs.Enrolment
import PubSub.Proofs.NumberHistory
import PubSub.Proofs.Locality
import PubSub.Proofs.Written

/-!
# Details that are read back

What subscribers bring with them is written out as one text of printable characters, and no
two lists of texts are written alike. So a membership that has just come has the details that
were given (`Inserted`), for whoever looks at it and for as long as it has its number
(`details_read_back`).
-/

namespace PubSub

/-! ## What is written -/

namespace Json

/-- Characters that are written as they are. -/
def Printable (c : Char) : Prop := 32 ≤ c.toNat ∧ c.toNat < 127

instance (c : Char) : Decidable (Printable c) := inferInstanceAs (Decidable (_ ∧ _))

theorem printable_hexDigit : ∀ n < 16, Printable (hexDigit n) := by decide

theorem printable_escapeUnit (unit : Nat) : ∀ c ∈ escapeUnit unit, Printable c := by
  have hshort : ∀ p ∈ shortEscapes, Printable p.2 := by decide
  have hback : Printable '\\' := by decide
  unfold escapeUnit
  split
  · rename_i letter hl
    obtain ⟨before, after, hp, -⟩ := List.lookup_eq_some_iff.mp hl
    have hletter : Printable letter := hshort (unit, letter) (by simp [hp])
    simp [hback, hletter]
  · split
    · rename_i hp
      have hp : 32 ≤ unit ∧ unit < 127 := by simpa using hp
      have hn := toNat_ofNat unit hp.2
      simp only [List.mem_singleton, forall_eq, Printable]
      omega
    · have hu : Printable 'u' := by decide
      have hdigit : ∀ n, Printable (hexDigit (n % 16)) := fun n =>
        printable_hexDigit _ (Nat.mod_lt _ (by decide))
      simp [hback, hu, hdigit]

theorem printable_quoted (s : String) : ∀ c ∈ quoted s, Printable c := by
  intro c hc
  have hquote : Printable '"' := by decide
  simp only [quoted, quotedPoints, List.mem_append, List.mem_cons, List.not_mem_nil, or_false] at hc
  rcases hc with (rfl | hc) | rfl
  · exact hquote
  · obtain ⟨unit, -, hu⟩ := List.mem_flatMap.mp hc
    exact printable_escapeUnit unit c hu
  · exact hquote

theorem printable_listed (texts : List String) : ∀ c ∈ listed texts, Printable c := by
  have hbetween : Printable ',' ∧ Printable ' ' := by decide
  induction texts with
  | nil => exact fun c hc => by cases hc
  | cons s texts ih =>
    cases texts with
    | nil => exact printable_quoted s
    | cons s' texts =>
      intro c hc
      simp only [listed_cons, List.mem_append, List.mem_cons] at hc
      rcases hc with hc | rfl | rfl | hc
      · exact printable_quoted s c hc
      · exact hbetween.1
      · exact hbetween.2
      · exact ih c hc

end Json

namespace Details

theorem printable_encodeTexts (texts : List String) :
    ∀ c ∈ (encodeTexts texts).toList, Json.Printable c := by
  have hbrackets : Json.Printable '[' ∧ Json.Printable ']' := by decide
  intro c hc
  simp only [encodeTexts, Json.text, String.toList_ofList, Json.write_texts, List.mem_cons,
    List.mem_append, List.not_mem_nil, or_false] at hc
  rcases hc with rfl | hc | rfl
  · exact hbrackets.1
  · exact Json.printable_listed texts c hc
  · exact hbrackets.2

theorem encodeTexts_injective : Function.Injective encodeTexts := by
  intro texts texts' h
  have hread : (Except.ok (texts.map .text) : Except Failure (List Document)) =
      .ok (texts'.map .text) := by
    rw [← decode_encodeTexts, ← decode_encodeTexts, h]
  refine List.map_injective_iff.mpr (fun s s' hs => ?_) (Except.ok.inj hread)
  exact Document.text.inj hs

theorem items_eq {items : List (Option String)} (h : none ∉ items) :
    items = (items.filterMap id).map some := by
  induction items with
  | nil => rfl
  | cons item items ih =>
    simp only [List.mem_cons, not_or] at h
    obtain ⟨s, rfl⟩ := Option.ne_none_iff_exists'.mp (Ne.symm h.1)
    simpa using ih h.2

theorem encode_injective {items items' : List (Option String)} (h : none ∉ items)
    (h' : none ∉ items') (he : (Details.list items).encode = (Details.list items').encode) :
    items = items' := by
  have htexts : items.filterMap id = items'.filterMap id := encodeTexts_injective (Except.ok.inj he)
  rw [items_eq h, items_eq h', htexts]

end Details

/-! ## Calls on what a store sees -/

theorem Handle.returns_of_perform {h : Handle} {call : Call} {reply : Reply}
    (hr : (h.perform call.operation).result = .ok reply) :
    call.operation.Returns h.connection.view reply (h.perform call.operation).connection.view := by
  unfold Handle.perform at hr ⊢
  cases he : h.entered with
  | false =>
    simp only [he, Bool.false_eq_true, if_false] at hr ⊢
    obtain ⟨hn, hn'⟩ := Connection.working_of_transact hr
    rcases h.connection.transact_call call with ⟨failure, hf, -⟩ | ⟨reply', hok, hret⟩
    · cases hf.symm.trans hr
    · cases hok.symm.trans hr
      rwa [Connection.view_of_idle hn, Connection.view_of_idle hn']
  | true =>
    simp only [he, if_true] at hr ⊢
    cases hrefusal : call.operation.refusal with
    | some failure =>
      unfold Connection.join at hr
      rw [hrefusal] at hr
      cases hr
    | none =>
      rw [Connection.join_connection _ hrefusal]
      unfold Connection.join at hr
      simp only [hrefusal] at hr
      cases hx : (h.connection.exec call.operation.body).result with
      | error failure =>
        have hfail := Connection.fails_of_exec hx
        simp only [hx, Connection.conclude] at hr
        rw [call.recovers (hfail.imp_right fun he => ⟨_, he⟩) (.inl rfl)] at hr
        cases hr
      | ok last =>
        simp only [hx, Connection.conclude] at hr
        exact Operation.returns_iff.mpr ⟨hrefusal, last, Connection.eval_of_exec hx, hr⟩

/-! ## Records that are told -/

def Reply.records : Reply → List MemberRecord
  | .member record => record.toList
  | .members records => records
  | _ => []

theorem MemberRow.of_record {row : MemberRow} {record : MemberRecord} (h : row.record = .ok record) :
    record.id = row.id ∧ record.topic = row.topic ∧ record.subscriber = row.subscriber ∧
      Details.decode row.details = .ok record.details := by
  unfold MemberRow.record at h
  cases hd : Details.decode row.details with
  | error failure =>
    rw [hd] at h
    cases h
  | ok details =>
    rw [hd] at h
    cases h
    exact ⟨rfl, rfl, rfl, rfl⟩

theorem Membership.concludeOne_records {row? : Option MemberRow} {record? : Option MemberRecord}
    (h : (concludeOne row?).result = .ok record?) :
    ∀ record ∈ record?.toList, ∃ row ∈ row?, row.record = .ok record := by
  cases row? with
  | none =>
    cases h
    exact fun record hr => by cases hr
  | some row =>
    cases hrow : row.record with
    | error failure =>
      rw [concludeOne, hrow] at h
      cases h
    | ok record =>
      rw [concludeOne, hrow] at h
      cases h
      rintro _ hr
      cases List.mem_singleton.mp hr
      exact ⟨row, rfl, hrow⟩

theorem mem_of_mapM {rows : List MemberRow} {records : List MemberRecord}
    (h : rows.mapM MemberRow.record = .ok records) :
    ∀ record ∈ records, ∃ row ∈ rows, row.record = .ok record := by
  induction rows generalizing records with
  | nil =>
    cases h
    exact fun record hr => by cases hr
  | cons row rows ih =>
    rw [List.mapM_cons] at h
    cases hrow : row.record with
    | error failure =>
      rw [hrow] at h
      cases h
    | ok first =>
      cases hrest : rows.mapM MemberRow.record with
      | error failure =>
        rw [hrow, hrest] at h
        cases h
      | ok rest =>
        rw [hrow, hrest] at h
        cases h
        intro record hr
        rcases List.mem_cons.mp hr with rfl | hr
        · exact ⟨row, .head _, hrow⟩
        · obtain ⟨row', hmem, he⟩ := ih hrest record hr
          exact ⟨row', .tail _ hmem, he⟩

section
variable {db db' : Database}

theorem Membership.fetch_records {wanted : MemberRow → Bool} {records : List MemberRecord}
    (h : (fetch wanted).Returns db records db') :
    ∀ record ∈ records, ∃ row ∈ db.members, row.record = .ok record := by
  obtain ⟨-, last, hb, hl⟩ := Operation.returns_iff.mp h
  obtain ⟨rows, _, hrows, hlast⟩ := Script.eval_bind_ok.mp hb
  obtain ⟨-, rfl, rfl⟩ := Script.eval_see_ok.mp hrows
  cases hlast
  intro record hr
  obtain ⟨row, hrow, he⟩ := mem_of_mapM hl record hr
  exact ⟨row, (List.mem_filter.mp hrow).1, he⟩

theorem Call.records_of_returns {call : Call} {reply : Reply}
    (h : call.operation.Returns db reply db') :
    ∀ record ∈ reply.records, ∃ row ∈ db.members, row.record = .ok record := by
  have hone : ∀ {op : Operation (Option MemberRecord)} {p : Database → Option MemberRow}
      {record? : Option MemberRecord}, (∀ row, p db = some row → row ∈ db.members) →
      op.body = ((Script.see .subscribers p).bind fun row => .done (Membership.concludeOne row)) →
      op.Returns db record? db' →
      ∀ record ∈ record?.toList, ∃ row ∈ db.members, row.record = .ok record := by
    intro op p record? hp hbody ho record hr
    obtain ⟨-, last, hb, hl⟩ := Operation.returns_iff.mp ho
    rw [hbody] at hb
    obtain ⟨row?, _, hrow, hlast⟩ := Script.eval_bind_ok.mp hb
    obtain ⟨-, rfl, rfl⟩ := Script.eval_see_ok.mp hrow
    cases hlast
    obtain ⟨row, hrow, he⟩ := Membership.concludeOne_records hl record hr
    exact ⟨row, hp row hrow, he⟩
  cases call <;> obtain ⟨answer, ho, rfl⟩ := Operation.returns_map.mp h
  case firstSubscriber topic =>
    exact hone (fun row hrow => List.mem_of_find?_eq_some hrow) rfl ho
  case getSubscriber topic subscriber =>
    exact hone (fun row hrow => List.mem_of_find?_eq_some hrow) rfl ho
  case fetchByTopic topic => exact Membership.fetch_records ho
  case fetchBySubscriber subscriber => exact Membership.fetch_records ho
  case allMembers => exact Membership.fetch_records ho
  all_goals exact fun record hr => by cases hr

end

/-! ## Memberships that have just come -/

/-- A membership that came last, with its details, and is the only one of its pair. -/
structure Database.Inserted (topic subscriber : String) (texts : List String) (db : Database)
    (row : MemberRow) : Prop where
  mem : row ∈ db.members
  number : row.id = db.lastMember
  pair : row.topic = topic ∧ row.subscriber = subscriber
  details : row.details = Details.encodeTexts texts
  alone : ∀ row' ∈ db.members, row'.topic = topic → row'.subscriber = subscriber → row' = row

theorem Database.inserted_of_addMember {db db' : Database} {topic subscriber : String}
    {texts : List String} {expiry : Option Int} {requestId : Option String} {rows : Nat}
    (h : db.addMember ⟨topic, subscriber, Details.encodeTexts texts, expiry, requestId⟩ =
      .ok (rows, db')) (hrows : 0 < rows) : ∃ row, db'.Inserted topic subscriber texts row := by
  unfold addMember at h
  split at h
  · cases h
  · split at h
    · rename_i expiry hm
      cases h
      refine ⟨_, List.mem_append_right _ (.head _), by push_cast; rfl, ⟨rfl, rfl⟩, rfl,
        fun row' hr ht hs => ?_⟩
      rcases List.mem_append.mp hr with hr | hr
      · have hno := List.find?_eq_none.mp hm row' hr
        simp [ht, hs] at hno
      · exact List.mem_singleton.mp hr
    · cases h
      exact absurd hrows (Nat.lt_irrefl 0)

theorem Call.inserted_of_returns {db db' : Database} (h : db.WellFormed) {topic subscriber : String}
    {items : List (Option String)} {expiry : Option Int} {requestId : Option String}
    (hr : (Call.addSubscriber topic subscriber (.list items) expiry requestId).operation.Returns db
      (.truth true) db') : ∃ row, db'.Inserted topic subscriber (items.filterMap id) row := by
  obtain ⟨new, ho, he⟩ := Operation.returns_map.mp hr
  cases he
  obtain ⟨-, -, -, written, rows, hw, hnew, hrun⟩ := (Membership.add_returns h).mp ho
  cases hw
  exact Database.inserted_of_addMember hrun (of_decide_eq_true hnew.symm)

section
variable {topic subscriber : String} {texts : List String} {db : Database} {row : MemberRow}
  (h : db.Inserted topic subscriber texts row)

include h

namespace Database.Inserted

theorem member? : db.member? topic subscriber = some row := by
  cases hm : db.member? topic subscriber with
  | none =>
    have hno := List.find?_eq_none.mp hm row h.mem
    simp [h.pair] at hno
  | some row' =>
    obtain ⟨hmem, ht, hs⟩ := mem_of_member? hm
    rw [h.alone row' hmem ht hs]

theorem record : row.record = .ok ⟨row.id, topic, subscriber, texts.map .text, row.expiry,
    row.requestId⟩ := by
  rw [MemberRow.record_eq h.details, h.pair.1, h.pair.2]

theorem now {row' : MemberRow} (hr : row' ∈ db.members) {record : MemberRecord}
    (he : row'.record = .ok record) (ht : record.topic = topic) (hs : record.subscriber = subscriber) :
    record.id = row.id ∧ record.details = texts.map .text := by
  obtain ⟨-, ht', hs', -⟩ := MemberRow.of_record he
  obtain rfl := h.alone row' hr (ht'.symm.trans ht) (hs'.symm.trans hs)
  cases he.symm.trans h.record
  exact ⟨rfl, rfl⟩

theorem later (hn : db.Numbered) {db' : Database} (hl : db.Later db') {row' : MemberRow}
    (hr : row' ∈ db'.members) {record : MemberRecord} (he : row'.record = .ok record)
    (hid : record.id = row.id) : record.topic = topic ∧ record.subscriber = subscriber ∧
      record.details = texts.map .text := by
  have hid' : row'.id = row.id := (MemberRow.of_record he).1.symm.trans hid
  have hold := hl.rows row' hr (Int.le_of_eq (hid'.trans h.number))
  -- The number is none that was given out since, so the row was there, and numbers are given once.
  have hnodup : (db.members.map (·.id)).Nodup := hn.ascending.imp Int.ne_of_lt
  obtain rfl := List.inj_on_of_nodup_map hnodup hold h.mem hid'
  cases he.symm.trans h.record
  exact ⟨rfl, rfl, rfl⟩

end Database.Inserted

end

theorem Connection.Orderly.later_view {c : Connection} (h : c.Orderly) : c.committed.Later c.view := by
  cases hw : c.working with
  | none => exact view_of_idle hw ▸ .refl _
  | some db => exact view_of_working hw ▸ (h.working db hw).2.1

theorem Database.Ascends.later {db db' : Database} {states : List Database}
    (h : db.Ascends states db') : db.Later db' := by
  induction h with
  | nil hl => exact hl
  | cons hl _ _ ih => exact hl.trans ih

/-! ## On stores -/

namespace World

def Tells (w : World) (k : Nat) (record : MemberRecord) : Prop :=
  ∃ (call : Call) (reply : Reply), (w.call k call.operation).2 = .ok reply ∧ record ∈ reply.records

theorem Tells.row {w : World} {k : Nat} {record : MemberRecord} (ht : w.Tells k record) {h : Handle}
    (hh : w.handle? k = some h) : ∃ row ∈ h.connection.view.members, row.record = .ok record := by
  obtain ⟨call, reply, hr, hrec⟩ := ht
  rw [(handle_call hh call.operation).1] at hr
  exact Call.records_of_returns (Handle.returns_of_perform hr) record hrec

theorem Tells.opened {w : World} {k : Nat} {record : MemberRecord} (ht : w.Tells k record) :
    w.home? k ≠ none := by
  intro hn
  obtain ⟨call, reply, hr, hrec⟩ := ht
  have hnone : ∀ failure, (w.callUnlinked k call.operation failure).2 = .ok reply →
      reply.records = [] := by
    intro failure hu
    unfold callUnlinked at hu
    split at hu
    · cases hu
    · cases call with
      -- The publish gate turns one failure into an answer, which holds no records.
      | checkPublish topic =>
        cases failure <;> cases hu
        rfl
      | _ => cases hu
  have hempty : reply.records = [] := by
    unfold World.call at hr
    split at hr
    · exact hnone _ hr
    · rename_i s hs
      simp only [link_of_closed hs hn] at hr
      exact hnone _ hr
  rw [hempty] at hrec
  cases hrec

def afterErrands (w : World) : List Errand → World
  | [] => w
  | errand :: errands => (w.errand errand).world.afterErrands errands

theorem Stands.later {w : World} {G : List Nat} {on? : Option Path} {db : Database}
    (hs : w.Stands G on? db) {errands : List Errand} (hon : ∀ e ∈ errands, e.on ∈ G)
    (hfile : ∀ on, .close on ∈ errands → on?.isSome) :
    ∃ db', (w.afterErrands errands).Stands G on? db' ∧ db.Later db' := by
  induction errands generalizing w db with
  | nil => exact ⟨db, hs, .refl db⟩
  | cons errand errands ih =>
    obtain ⟨db₁, hs₁, hasc⟩ := hs.errand (hon _ (.head _)) fun on he => hfile on (he ▸ .head _)
    obtain ⟨db', hs', hl⟩ := ih hs₁ (fun e he => hon e (.tail _ he)) fun on he => hfile on (.tail _ he)
    exact ⟨db', hs', hasc.later.trans hl⟩

/-- What stores tell of a membership that has just come, by its pair and, once others may have done
something with the database, by its number. -/
structure ReadBack (w w' : World) (i : Nat) (topic subscriber : String) (texts : List String)
    (number : Int) : Prop where
  now : ∀ record, w'.Tells i record → record.topic = topic → record.subscriber = subscriber →
    record.id = number ∧ record.details = texts.map .text
  found : ∀ (v : World) (k : Nat), v.Calm k → v.committed? k = some (w'.view i) →
    (∀ record, v.Tells k record → record.topic = topic → record.subscriber = subscriber →
      record.id = number ∧ record.details = texts.map .text) ∧
    ∃ record, (v.call k (Call.getSubscriber topic subscriber).operation).2 =
        .ok (.member (some record)) ∧ record.topic = topic ∧ record.subscriber = subscriber
  later : ∀ (G : List Nat) (on? : Option Path) (db : Database), w.Stands G on? db → i ∈ G →
    ∀ errands : List Errand, (∀ e ∈ errands, e.on ∈ G) → (∀ on, .close on ∈ errands → on?.isSome) →
      ∀ k ∈ G, ∀ record, (w'.afterErrands errands).Tells k record → record.id = number →
        record.topic = topic ∧ record.subscriber = subscriber ∧ record.details = texts.map .text

theorem readBack_of_added {w : World} {i : Nat} {h : Handle} (hh : w.handle? i = some h)
    (hwell : h.connection.view.WellFormed) {topic subscriber : String}
    {items : List (Option String)} {expiry : Option Int} {requestId : Option String} {call : Call}
    (hcall : call = .addSubscriber topic subscriber (.list items) expiry requestId)
    (hr : (w.call i call.operation).2 = .ok (.truth true)) :
    ∃ number, w.ReadBack (w.call i call.operation).1 i topic subscriber (items.filterMap id) number := by
  obtain ⟨hres, hh'⟩ := handle_call hh call.operation
  rw [hres] at hr
  have hret := Handle.returns_of_perform hr
  obtain ⟨row, hrow⟩ : ∃ row, (h.perform call.operation).connection.view.Inserted topic subscriber
      (items.filterMap id) row := by
    subst hcall
    exact Call.inserted_of_returns hwell hret
  have hview := view_of_handle hh'
  refine ⟨row.id, fun record ht htopic hsub => ?_, fun v k hc hd => ?_,
    fun G on? db hs hi errands hon hfile k hk record ht hid => ?_⟩
  · obtain ⟨row', hmem, he⟩ := ht.row hh'
    exact hrow.now hmem he htopic hsub
  · obtain ⟨d, hd', -, hcalm⟩ := id hc
    have hsame : d.connection.view = (h.perform call.operation).connection.view := by
      rw [Connection.view_of_idle hcalm.working, ← hview]
      exact Option.some.inj ((committed?_of_handle hd').symm.trans hd)
    refine ⟨fun record ht htopic hsub => ?_, ⟨row.id, topic, subscriber,
      (items.filterMap id).map .text, row.expiry, row.requestId⟩, ?_, rfl, rfl⟩
    · obtain ⟨row', hmem, he⟩ := ht.row hd'
      exact hrow.now (hsame ▸ hmem) he htopic hsub
    · rw [hview] at hd
      exact (answers_of_calm hc hd).mpr ⟨_, Operation.returns_map.mpr
        ⟨_, Membership.get_returns (hwell.returns hret) hrow.member? hrow.record, rfl⟩⟩
  · obtain ⟨db₁, hs₁, -⟩ := hs.call hi call.operation
    obtain ⟨h', hh'', -, hcom, -⟩ := hs₁.handle hi (home?_of_handle hh')
    obtain rfl := Option.some.inj (hh'.symm.trans hh'')
    -- Outside of blocks what the store sees is committed.
    have hidle : h.entered = false := by
      obtain ⟨d, hd, he, -⟩ := hs.handle hi (home?_of_handle hh)
      exact Option.some.inj (hh.symm.trans hd) ▸ he
    have hp : h.perform call.operation = h.connection.transact call.operation := by
      simp [Handle.perform, hidle]
    have hn := (Connection.working_of_transact (hp ▸ hr)).2
    rw [← hp] at hn
    rw [Connection.view_of_idle hn, hcom] at hrow
    obtain ⟨db₂, hs₂, hl⟩ := hs₁.later hon hfile
    obtain ⟨d, hd, -, rfl, ho⟩ := hs₂.handle hk ht.opened
    obtain ⟨row', hmem, he⟩ := ht.row hd
    exact hrow.later hs₁.kin.numbered (hl.trans ho.later_view) hmem he hid

/-- A list of texts with gaps is written with printable characters and read back without the gaps,
so that no two lists without gaps are written alike. A membership that has just come has these
details for whoever reads it, and keeps them under its number. -/
theorem details_read_back (items : List (Option String)) :
    (∃ written, (Details.list items).encode = .ok written ∧
      Details.decode written = .ok ((items.filterMap id).map .text) ∧
      ∀ c ∈ written.toList, 32 ≤ c.toNat ∧ c.toNat < 127) ∧
    (∀ items', none ∉ items → none ∉ items' →
      (Details.list items).encode = (Details.list items').encode → items = items') ∧
    ∀ (w : World) (i : Nat) (h : Handle), w.handle? i = some h → h.connection.view.WellFormed →
      ∀ (topic subscriber : String) (expiry : Option Int) (requestId : Option String),
        let add := Call.addSubscriber topic subscriber (.list items) expiry requestId
        (w.call i add.operation).2 = .ok (.truth true) →
          ∃ number, w.ReadBack (w.call i add.operation).1 i topic subscriber (items.filterMap id)
            number := by
  refine ⟨⟨_, rfl, Details.decode_encodeTexts _, Details.printable_encodeTexts _⟩,
    fun items' hfull hfull' he => ?_, fun w i h hh hwell topic subscriber expiry requestId hr => ?_⟩
  · exact Details.encode_injective hfull hfull' he
  · exact readBack_of_added hh hwell rfl hr

theorem stands_lone : (lone .fresh []).Stands [0] none .fresh := by
  have hclosed : ∀ {j}, j ∉ [0] → (lone .fresh []).home? j = none := by
    intro j hj
    have hout : (lone .fresh []).stores[j]? = none := List.getElem?_eq_none (by
      have hlen : (lone .fresh []).stores.length = 1 := rfl
      simp at hj
      omega)
    simp [home?, hout]
  refine stands_new (fun j k hj hk => ?_) (fun j hj k hk ha => ?_) (fun k hk => ?_) fun place hp => ?_
  · exact apart_of_closed (hclosed hj) fun he => hj (he ▸ hk)
  · obtain rfl := List.mem_singleton.mp hj
    obtain rfl := List.mem_singleton.mp hk
    exact ha.1 rfl
  · obtain rfl := List.mem_singleton.mp hk
    exact ⟨_, lone_handle .fresh [], rfl, rfl, rfl⟩
  · cases hp

def strange : List (Option String) := [some "\x00\"\\", none, some "é😀\n"]

theorem details_read_back_strange :
    let add := Call.addSubscriber "t" "s" (.list strange) (some 0) none
    let w := ((lone .fresh []).call 0 add.operation).1
    (Details.list strange).encode = .ok "[\"\\u0000\\\"\\\\\", \"\\u00e9\\ud83d\\ude00\\n\"]" ∧
      ∃ record, (w.call 0 (Call.getSubscriber "t" "s").operation).2 = .ok (.member (some record)) ∧
        record.details = [.text "\x00\"\\", .text "é😀\n"] ∧
        ∀ record', (w.afterErrands [.call 0 (subscribing "x")]).Tells 0 record' →
          record'.id = record.id → record'.details = record.details := by
  intro add w
  obtain ⟨-, -, hadded⟩ := details_read_back strange
  obtain ⟨number, hnow, hfound, hlater⟩ := hadded (lone .fresh []) 0 _ (lone_handle .fresh [])
    Database.wellFormed_fresh "t" "s" (some 0) none rfl
  obtain ⟨-, record, hget, htopic, hsub⟩ := hfound w 0 (calm_call (lone_calm .fresh) add) rfl
  obtain ⟨hid, hdetails⟩ := hnow record ⟨_, _, hget, .head _⟩ htopic hsub
  refine ⟨congrArg Except.ok (by decide +kernel), record, hget, hdetails, fun record' ht hid' => ?_⟩
  obtain ⟨-, -, hdetails'⟩ := hlater [0] none .fresh stands_lone (by simp)
    [.call 0 (subscribing "x")] (by decide) (by simp) 0 (by simp) record' ht (hid'.trans hid)
  exact hdetails'.trans hdetails.symm

end World

end PubSub
