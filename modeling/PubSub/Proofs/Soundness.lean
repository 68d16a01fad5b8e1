import PubSub.Proofs.Confirmations
import PubSub.Proofs.Safety

/-!
# Sound databases

What callers rely on when they read a store: one row a topic and one a membership, no
empty names, states that are states, requests on record where one was made, and details
that can be read. All that calls and blocks make of a new database is sound, whatever
was refused and whatever failures were passed over (`sound_follow`).
-/

namespace PubSub

def State.requested : State → Bool
  | .subscribePending | .subscribed | .unsubscribePending => true
  | .unsubscribed | .deprecated => false

theorem State.requested_of_resolution? {s : State} {r : Resolution} (h : s.resolution? = some r) :
    s.requested = true := by
  rcases State.resolution?_cases h with ⟨rfl, -⟩ | ⟨rfl, -⟩ <;> rfl

def Identified (requestId : Option String) : Prop := ∃ name, requestId = some name ∧ name ≠ ""

namespace Database

structure Sound (db : Database) : Prop where
  tables : db.hasAll = true
  topics : (db.topics.map (·.topic)).Nodup
  published : ∀ row ∈ db.topics, row.topic ≠ "" ∧ row.publisher ≠ ""
  subscriptions : (db.subscriptions.map (·.topic)).Nodup
  negotiated : ∀ row ∈ db.subscriptions, ∃ state : State, row.code = state.code ∧
    (state.requested = true → Identified row.requestId)
  members : (db.members.map fun row => (row.topic, row.subscriber)).Nodup
  joined : ∀ row ∈ db.members, row.topic ≠ "" ∧ row.subscriber ≠ "" ∧
    Write.fits row.expiry = true ∧ ∃ texts : List String, Details.decode row.details = .ok (texts.map .text)

theorem sound_fresh : fresh.Sound :=
  ⟨rfl, .nil, (fun _ hr => by cases hr), .nil, (fun _ hr => by cases hr), .nil,
    fun _ hr => by cases hr⟩

namespace Sound

section
variable {db db' : Database} (h : db.Sound)

include h

theorem wellFormed : db.WellFormed :=
  ⟨h.tables, fun row hr => (h.negotiated row hr).imp fun _ hs => hs.1⟩

theorem identified_of_requested {topic : String} (hs : (db.stateOf topic).requested = true) :
    Identified (db.requestOf topic) := by
  unfold stateOf requestOf at *
  cases hrow : db.subscription? topic with
  | none =>
    rw [hrow] at hs
    cases hs
  | some row =>
    obtain ⟨state, hc, hn⟩ := h.negotiated row (List.mem_of_find?_eq_some hrow)
    simp only [hrow, hc, State.ofCode?_code, Option.getD_some] at hs
    exact hn hs

/-! ## Writes -/

theorem putTopic {row : TopicRow} (ht : row.topic ≠ "") (hp : row.publisher ≠ "") :
    (db.putTopic row).Sound :=
  { h with
    topics := nodup_put TopicRow.topic h.topics row
    published := fun row' hr => by
      rcases List.mem_append.mp hr with hold | hnew
      · exact h.published row' (List.mem_filter.mp hold).1
      · rw [List.mem_singleton.mp hnew]
        exact ⟨ht, hp⟩ }

theorem dropTopic (topic : String) : (db.dropTopic topic).2.Sound :=
  { h with
    topics := h.topics.sublist (List.filter_sublist.map _)
    published := fun row hr => h.published row (List.mem_filter.mp hr).1 }

theorem setNotification (topic : String) (code : Int) : (db.setNotification topic code).2.Sound := by
  have hkey : (db.setNotification topic code).2.topics.map (·.topic) = db.topics.map (·.topic) := by
    simp only [Database.setNotification, List.map_map]
    refine List.map_congr_left fun row _ => ?_
    simp only [Function.comp]
    split <;> rfl
  refine { h with topics := hkey ▸ h.topics, published := fun row hr => ?_ }
  obtain ⟨old, ho, rfl⟩ := List.mem_map.mp hr
  split <;> exact h.published old ho

theorem addMember {new : NewMember} {rows : Nat} (ht : new.topic ≠ "") (hs : new.subscriber ≠ "")
    (hfit : (new.expiry.map Write.fits).getD true = true)
    (hdet : ∃ texts, new.details = Details.encodeTexts texts)
    (hrun : db.addMember new = .ok (rows, db')) : db'.Sound := by
  obtain ⟨htop, hsub, -⟩ := addMember_frame hrun
  have htab := (wellFormed_run (w := .addMember new) hrun h.wellFormed).tables
  rcases addMember_members hrun with ⟨row, hrt, hrs, hrd, hre, -, hnone, hm⟩ | ⟨-, hm⟩
  · refine ⟨htab, htop ▸ h.topics, htop ▸ h.published, hsub ▸ h.subscriptions, hsub ▸ h.negotiated,
      ?_, fun old ho => ?_⟩
    · rw [hm, List.map_append, List.nodup_append]
      refine ⟨h.members, by simp, ?_⟩
      rintro _ hp _ hq rfl
      obtain ⟨old, ho, rfl⟩ := List.mem_map.mp hp
      obtain ⟨hto, hso⟩ : old.topic = row.topic ∧ old.subscriber = row.subscriber := by
        simpa using hq
      have := List.find?_eq_none.mp hnone old ho
      simp [hto, hso, hrt, hrs] at this
    · rw [hm] at ho
      rcases List.mem_append.mp ho with ho | ho
      · exact h.joined old ho
      · rw [List.mem_singleton.mp ho, hrt, hrs, hrd]
        obtain ⟨texts, hdet⟩ := hdet
        refine ⟨ht, hs, ?_, texts, hdet ▸ Details.decode_encodeTexts texts⟩
        rwa [← hre] at hfit
  · exact ⟨htab, htop ▸ h.topics, htop ▸ h.published, hsub ▸ h.subscriptions, hsub ▸ h.negotiated,
      hm ▸ h.members, hm ▸ h.joined⟩

theorem filterMembers (p : MemberRow → Bool) :
    ({ db with members := db.members.filter p } : Database).Sound :=
  { h with
    members := h.members.sublist (List.filter_sublist.map _)
    joined := fun row hr => h.joined row (List.mem_filter.mp hr).1 }

theorem putSubscription {topic : String} {state : State} {requestId : Option String}
    (hn : state.requested = true → Identified requestId) :
    (db.putSubscription ⟨topic, state.code, requestId⟩).Sound :=
  { h with
    subscriptions := nodup_putSubscription h.subscriptions _
    negotiated := fun row hr => by
      rcases mem_putSubscription.mp hr with ⟨hold, -⟩ | rfl
      · exact h.negotiated row hold
      · exact ⟨state, rfl, hn⟩ }

theorem setState {topic : String} (hn : Identified (db.requestOf topic)) (state : State) :
    (db.setState topic state).2.Sound := by
  refine { h with subscriptions := topics_setState db topic state ▸ h.subscriptions, negotiated := ?_ }
  intro row hr
  obtain ⟨old, ho, -, hid, ⟨ht, hc⟩ | ⟨-, hc⟩⟩ := mem_setState hr
  · refine ⟨state, hc, fun _ => ?_⟩
    have hrow := subscription?_of_mem h.subscriptions ho
    rw [ht] at hrow
    simpa [hid, requestOf, hrow] using hn
  · rw [hid, hc]
    exact h.negotiated old ho

theorem filterSubscriptions (p : SubscriptionRow → Bool) :
    ({ db with subscriptions := db.subscriptions.filter p } : Database).Sound :=
  { h with
    subscriptions := h.subscriptions.sublist (List.filter_sublist.map _)
    negotiated := fun row hr => h.negotiated row (List.mem_filter.mp hr).1 }

end

end Sound

end Database

/-- Writes that leave every sound database sound. A change of state is not one of them: it rests on
what was read before. -/
def Write.Checked : Write → Prop
  | .putTopic row => row.topic ≠ "" ∧ row.publisher ≠ ""
  | .addMember new =>
    new.topic ≠ "" ∧ new.subscriber ≠ "" ∧ ∃ texts, new.details = Details.encodeTexts texts
  | .putSubscription _ state requestId => state.requested = true → Identified requestId
  | .setState .. => False
  | _ => True

theorem Database.Sound.run {w : Write} {db db' : Database} {rows : Nat} (h : db.Sound)
    (hw : w.Checked) (hst : w.storable = true) (hrun : w.run db = .ok (rows, db')) : db'.Sound := by
  cases w with
  | putTopic row =>
    cases hrun
    exact h.putTopic hw.1 hw.2
  | dropTopic topic =>
    cases hrun
    exact h.dropTopic topic
  | setNotification topic code =>
    cases hrun
    exact h.setNotification topic code
  | addMember new => exact h.addMember hw.1 hw.2.1 hst hw.2.2 hrun
  | dropMember topic subscriber =>
    cases hrun
    exact h.filterMembers _
  | dropMembers topic =>
    cases hrun
    exact h.filterMembers _
  | putSubscription topic state requestId =>
    cases hrun
    exact h.putSubscription hw
  | setState topic state => exact hw.elim
  | dropSubscription topic =>
    cases hrun
    exact h.filterSubscriptions _
  | dropInState state =>
    cases hrun
    exact h.filterSubscriptions _

/-! ## What may fail -/

/-- A failure that does not tell of a row that cannot be read. -/
def Failure.Legible : Failure → Prop
  | .unknownCode _ | .unreadableDetails _ => False
  | _ => True

theorem Failure.Legible.of_statement {failure : Failure} (h : failure.FromStatement) :
    failure.Legible := by
  cases failure <;> trivial

theorem Failure.Legible.leaving {failure : Failure} (h : failure.Legible) :
    failure.leaving.Legible := by
  cases failure <;> trivial

theorem required_legible {what value : String} {failure : Failure}
    (h : required what value = some failure) : failure.Legible := by
  rw [eq_of_required h]
  trivial

theorem Flag.code_legible {flag : Flag} {failure : Failure} (h : flag.code = .error failure) :
    failure.Legible := by
  rw [Flag.eq_of_code_error h]
  trivial

theorem Details.encode_legible {details : Details} {failure : Failure}
    (h : details.encode = .error failure) : failure.Legible := by
  cases details with
  | absent =>
    cases h
    trivial
  | _ => cases h

section
variable {db : Database} (h : db.Sound)

include h

theorem Database.Sound.record_of_member {row : MemberRow} (hr : row ∈ db.members) :
    ∃ record, row.record = .ok record := by
  obtain ⟨-, -, -, texts, hdec⟩ := h.joined row hr
  exact ⟨_, by rw [MemberRow.record, hdec]; rfl⟩

theorem Database.Sound.record_of_subscription {row : SubscriptionRow} (hr : row ∈ db.subscriptions) :
    ∃ record, row.record = .ok record := by
  obtain ⟨state, hc, -⟩ := h.negotiated row hr
  exact ⟨_, by rw [SubscriptionRow.record, hc, State.ofCode?_code]⟩

theorem Database.Sound.issue_bind {α : Type} {w : Write} {f : Nat → Script α}
    {Q : α → Database → Prop} (hw : w.Checked)
    (hf : ∀ rows db', db'.Sound → (f rows).Safe Sound Failure.Legible Q db') :
    ((Script.issue w).bind f).Safe Sound Failure.Legible Q db :=
  ⟨h, fun hst rows db' hrun => hf rows db' (h.run hw hst hrun)⟩

end

/-! ## Operations -/

def Operation.Sound {α : Type} (op : Operation α) : Prop := op.Safe Database.Sound Failure.Legible

namespace Operation

section
variable {α : Type} {op : Operation α}

theorem Sound.of_body (hrec : ∀ cause, (op.recover cause).result = .error cause)
    (hr : ∀ failure, op.refusal = some failure → failure.Legible)
    (hb : op.refusal = none → ∀ db : Database, db.Sound →
      op.body.Safe Database.Sound Failure.Legible
        (fun last _ => ∀ failure, last.result = .error failure → failure.Legible) db) :
    op.Sound := by
  refine ⟨hr, hb, fun cause failure he => ?_⟩
  rw [hrec cause] at he
  cases he
  exact .inl rfl

theorem unrefused (hr : op.refusal = none) (failure : Failure) (h : op.refusal = some failure) :
    failure.Legible := by
  rw [hr] at h
  cases h

end

end Operation

theorem Script.safe_answer {α : Type} {db : Database} (h : db.Sound) (a : α) (notes : List Note) :
    (Script.done (Conclusion.answer a notes)).Safe Database.Sound Failure.Legible
      (fun last _ => ∀ failure, last.result = .error failure → failure.Legible) db :=
  ⟨h, fun _ he => by cases he⟩

open Script (safe_bind safe_answer)

namespace Directory

theorem register_sound (topic publisher : String) (details : Option String) (enabled : Flag) :
    (register topic publisher details enabled).Sound := by
  apply Operation.Sound.of_body fun _ => rfl
  · exact forall_orElse (fun _ => required_legible) fun _ => required_legible
  · intro hr db h
    obtain ⟨ht, hp⟩ := orElse_eq_none.mp hr
    apply safe_bind
    refine Script.safe_ofExcept h (fun code _ => ?_) fun _ => Flag.code_legible
    refine h.issue_bind ?_ fun _ _ h₁ => safe_answer h₁ _ _
    exact ⟨required_eq_none.mp ht, required_eq_none.mp hp⟩

theorem deregister_sound (topic : String) : (deregister topic).Sound := by
  apply Operation.Sound.of_body (fun _ => rfl) (Operation.unrefused rfl)
  intro _ db h
  refine h.issue_bind trivial fun topics db₁ h₁ => ?_
  exact h₁.issue_bind trivial fun members db₂ h₂ => safe_answer h₂ _ _

theorem setNotification_sound (topic : String) (enabled : Flag) :
    (setNotification topic enabled).Sound := by
  apply Operation.Sound.of_body (fun _ => rfl) (Operation.unrefused rfl)
  intro _ db h
  apply safe_bind
  refine Script.safe_ofExcept h (fun code _ => ?_) fun _ => Flag.code_legible
  refine h.issue_bind trivial fun rows db₁ h₁ => ?_
  split
  · exact safe_answer h₁ _ _
  · apply safe_bind
    apply Script.safe_see h₁
    split
    · exact safe_answer h₁ _ _
    · exact ⟨h₁, trivial⟩

theorem reading_sound {α : Type} (topic : String) (f : TopicRecord → α) :
    (reading topic f).Sound := by
  apply Operation.Sound.of_body (fun _ => rfl) (Operation.unrefused rfl)
  intro _ db h
  apply safe_bind
  apply Script.safe_see h
  split
  · exact safe_answer h _ _
  · refine ⟨h, fun failure he => ?_⟩
    cases he
    trivial

end Directory

namespace Membership

theorem add_sound (topic subscriber : String) (details : Details) (expiry : Option Int)
    (requestId : Option String) : (add topic subscriber details expiry requestId).Sound := by
  apply Operation.Sound.of_body fun _ => rfl
  · exact forall_orElse (fun _ => required_legible) fun _ => required_legible
  · intro hr db h
    obtain ⟨ht, hs⟩ := orElse_eq_none.mp hr
    apply safe_bind
    refine Script.safe_ofExcept h (fun written hw => ?_) fun _ => Details.encode_legible
    have hdet : ∃ texts, written = Details.encodeTexts texts := by
      unfold Details.encode at hw
      cases htexts : details.texts? with
      | error failure =>
        rw [htexts] at hw
        cases hw
      | ok texts =>
        rw [htexts] at hw
        cases hw
        exact ⟨texts, rfl⟩
    have hcheck : Write.Checked (.addMember ⟨topic, subscriber, written, expiry, requestId⟩) :=
      ⟨required_eq_none.mp ht, required_eq_none.mp hs, hdet⟩
    refine h.issue_bind hcheck fun rows db₁ h₁ => ?_
    split <;> exact safe_answer h₁ _ _

theorem remove_sound (topic subscriber : String) : (remove topic subscriber).Sound := by
  apply Operation.Sound.of_body (fun _ => rfl) (Operation.unrefused rfl)
  intro _ db h
  refine h.issue_bind trivial fun rows db₁ h₁ => ?_
  split <;> exact safe_answer h₁ _ _

theorem removeAll_sound (topic : String) : (removeAll topic).Sound := by
  apply Operation.Sound.of_body (fun _ => rfl) (Operation.unrefused rfl)
  intro _ db h
  exact h.issue_bind trivial fun rows db₁ h₁ => safe_answer h₁ _ _

theorem one_sound {op : Operation (Option MemberRecord)} {view : Database → Option MemberRow}
    (hr : op.refusal = none) (hrec : ∀ cause, (op.recover cause).result = .error cause)
    (hb : op.body = (Script.see .subscribers view).bind fun row => .done (concludeOne row))
    (hview : ∀ db row, view db = some row → row ∈ db.members) : op.Sound := by
  refine Operation.safe_of_look hr hb hrec fun db h failure he => ?_
  cases hrow : view db with
  | none =>
    rw [hrow] at he
    cases he
  | some row =>
    obtain ⟨record, hok⟩ := h.record_of_member (hview db row hrow)
    rw [hrow] at he
    simp only [concludeOne, hok] at he
    cases he

theorem first_sound (topic : String) : (first topic).Sound :=
  one_sound rfl (fun _ => rfl) rfl fun _ _ => List.mem_of_find?_eq_some

theorem get_sound (topic subscriber : String) : (get topic subscriber).Sound :=
  one_sound rfl (fun _ => rfl) rfl fun _ _ => List.mem_of_find?_eq_some

theorem fetch_sound (wanted : MemberRow → Bool) : (fetch wanted).Sound := by
  refine Operation.safe_of_look
    (f := fun rows : List MemberRow => ⟨[], rows.mapM MemberRow.record⟩) rfl rfl (fun _ => rfl) ?_
  intro db h failure he
  obtain ⟨row, hr, hrec⟩ := exists_of_mapM_error he
  obtain ⟨record, hok⟩ := h.record_of_member (List.mem_filter.mp hr).1
  rw [hok] at hrec
  cases hrec

end Membership

namespace Negotiation

theorem lookUp_safe {db : Database} (h : db.Sound) (topic : String) :
    (lookUp topic).Safe Database.Sound Failure.Legible
      (fun record db' => db' = db ∧ record = db.record? topic) db := by
  have heval := lookUp_eval h.wellFormed topic
  exact (Script.safe_of_eval (lookUp_only _ topic) h (congrArg Prod.fst heval)).mono
    fun record db' _ hr => ⟨hr.2, hr.1⟩

theorem get_sound (topic : String) : (get topic).Sound := by
  apply Operation.Sound.of_body (fun _ => rfl) (Operation.unrefused rfl)
  intro _ db h
  exact (lookUp_safe h topic).bind fun record db' h' _ => safe_answer h' _ _

theorem currentState_sound (topic : String) : (currentState topic).Sound := by
  apply Operation.Sound.of_body (fun _ => rfl) (Operation.unrefused rfl)
  intro _ db h
  apply safe_bind
  exact (lookUp_safe h topic).bind fun record db' h' _ => ⟨h', safe_answer h' _ _⟩

theorem pending_sound : pending.Sound := by
  refine Operation.safe_of_look
    (f := fun rows : List SubscriptionRow => ⟨[], rows.mapM SubscriptionRow.record⟩) rfl rfl
    (fun _ => rfl) ?_
  intro db h failure he
  obtain ⟨row, hr, hrec⟩ := exists_of_mapM_error he
  have hrow := List.mergeSort_perm _ _ |>.mem_iff.mp hr
  obtain ⟨record, hok⟩ := h.record_of_subscription (List.mem_filter.mp hrow).1
  rw [hok] at hrec
  cases hrec

theorem request_safe {db : Database} (h : db.Sound) (topic : String) (next : State)
    {requestId : String} (hid : requestId ≠ "") :
    (request topic next requestId).Safe Database.Sound Failure.Legible
      (fun last _ => ∀ failure, last.result = .error failure → failure.Legible) db := by
  apply safe_bind
  refine (lookUp_safe h topic).bind fun record db₁ h₁ _ => ⟨h₁, ?_⟩
  apply safe_bind
  unfold check
  split
  · refine ⟨h₁, ?_⟩
    have hcheck : Write.Checked (.putSubscription topic next (some requestId)) :=
      fun _ => ⟨requestId, rfl, hid⟩
    exact h₁.issue_bind hcheck fun _ _ h₂ => safe_answer h₂ _ _
  · exact ⟨h₁, trivial⟩

theorem requestSubscribe_sound (topic requestId : String) :
    (requestSubscribe topic requestId).Sound := by
  apply Operation.Sound.of_body (fun _ => rfl) fun _ => required_legible
  intro hr db h
  apply safe_bind
  apply Script.safe_see h
  split
  · exact request_safe h topic _ (required_eq_none.mp hr)
  · exact ⟨h, trivial⟩

theorem requestUnsubscribe_sound (topic requestId : String) :
    (requestUnsubscribe topic requestId).Sound := by
  apply Operation.Sound.of_body (fun _ => rfl) fun _ => required_legible
  intro hr db h
  exact request_safe h topic _ (required_eq_none.mp hr)

/-- What is pending was requested, and the look-up that finds it so stands right before the change. -/
theorem resolve_sound (topic : String) (accepted : Bool) : (resolve topic accepted).Sound := by
  apply Operation.Sound.of_body (fun _ => rfl) (Operation.unrefused rfl)
  intro _ db h
  apply safe_bind
  refine (lookUp_safe h topic).mono fun record db' _ hrec => ?_
  obtain ⟨rfl, rfl⟩ := hrec
  simp only [stateOf_record?]
  cases hres : (db'.stateOf topic).resolution? with
  | none => exact ⟨h, trivial⟩
  | some resolution =>
    have hid := h.identified_of_requested (State.requested_of_resolution? hres)
    simp only [check, State.canBecome_outcome hres, if_true, Script.bind_eq, Script.bind]
    refine ⟨h, fun _ rows db₁ hrun => ?_⟩
    cases hrun
    exact safe_answer (h.setState hid _) _ _

theorem retire_sound (topic : String) : (retire topic).Sound := by
  apply Operation.Sound.of_body (fun _ => rfl) (Operation.unrefused rfl)
  intro _ db h
  refine (lookUp_safe h topic).bind fun record db₁ h₁ _ => ?_
  have hcheck : Write.Checked (.putSubscription topic .deprecated (record.bind (·.requestId))) :=
    fun hn => by cases hn
  refine h₁.issue_bind hcheck fun _ _ h₂ => ?_
  split <;> exact safe_answer h₂ _ _

theorem purge_sound (topic : String) : (purge topic).Sound := by
  apply Operation.Sound.of_body (fun _ => rfl) (Operation.unrefused rfl)
  intro _ db h
  refine h.issue_bind trivial fun rows db₁ h₁ => ?_
  split <;> exact safe_answer h₁ _ _

theorem purgeDeprecated_sound : purgeDeprecated.Sound := by
  apply Operation.Sound.of_body (fun _ => rfl) (Operation.unrefused rfl)
  intro _ db h
  exact h.issue_bind trivial fun rows db₁ h₁ => safe_answer h₁ _ _

end Negotiation

namespace Response

theorem confirmWithMember_safe {db : Database} (h : db.Sound) (topic subscriber : String)
    (details : Details) (expiry : Option Int) :
    (confirmWithMember topic subscriber details expiry).Safe Database.Sound Failure.Legible
      (fun _ _ => True) db := by
  refine ((Negotiation.get_sound topic).inline h).bind fun record db₁ h₁ _ => ?_
  refine ((Negotiation.resolve_sound topic true).inline h₁).bind fun state db₂ h₂ _ => ?_
  split
  · exact ((Membership.add_sound ..).inline h₂).bind fun _ _ h₃ _ => ⟨h₃, trivial⟩
  · exact ((Membership.remove_sound ..).inline h₂).bind fun _ _ h₃ _ => ⟨h₃, trivial⟩

theorem applyConfirmation_sound (topic subscriber : String) (details : Details)
    (expiry : Option Int) : (applyConfirmation topic subscriber details expiry).Sound := by
  refine Operation.Safe.concluding ?_ fun result failure he => by rwa [counted_result] at he
  apply Operation.Sound.of_body (fun _ => rfl) (Operation.unrefused rfl)
  intro _ db h
  exact (confirmWithMember_safe h topic subscriber details expiry).bind fun _ _ h₁ _ =>
    safe_answer h₁ _ _

theorem handle_sound (requestId : Option String) (accepted : Bool) (subscriber : String)
    (details : Details) (expiry : Option Int) :
    (handle requestId accepted subscriber details expiry).Sound := by
  apply Operation.Sound.of_body (fun _ => rfl) (Operation.unrefused rfl)
  intro _ db h
  have hcarrier : (Negotiation.topicOfRequest requestId).Sound :=
    Operation.safe_of_look rfl rfl (fun _ => rfl) fun _ _ _ he => by cases he
  refine (hcarrier.inline h).bind fun topic db₁ h₁ _ => ?_
  cases topic with
  | none => exact safe_answer h₁ _ _
  | some topic =>
    have happly : (apply topic accepted subscriber details expiry).Safe Database.Sound
        Failure.Legible (fun _ _ => True) db₁ := by
      unfold apply
      split
      · exact confirmWithMember_safe h₁ topic subscriber details expiry
      · exact (Negotiation.resolve_sound topic false).inline h₁
    refine (happly.catching _).bind fun result db₂ h₂ _ => ?_
    cases result <;> exact safe_answer h₂ _ _

theorem handleWithdrawal_sound (topic : String) : (handleWithdrawal topic).Sound := by
  refine (Negotiation.retire_sound topic).concluding fun result failure he => ?_
  cases result with
  | ok a => cases he
  | error cause => exact he

end Response

theorem Publishing.check_sound (topic : String) : (check topic).Sound := by
  refine (Directory.reading_sound topic _).concluding fun result failure he => ?_
  split at he <;> cases he
  rfl

theorem Healing.heal_sound (topic subscriber : String) : (heal topic subscriber).Sound := by
  apply Operation.Sound.of_body (fun _ => rfl) (Operation.unrefused rfl)
  intro _ db h
  have hregistered : (Directory.isRegistered topic).Sound :=
    Operation.safe_of_look rfl rfl (fun _ => rfl) fun _ _ _ he => by cases he
  refine (hregistered.inline h).bind fun registered db₁ h₁ _ => ?_
  refine ((Negotiation.get_sound topic).inline h₁).bind fun record db₂ h₂ _ => ?_
  have hpresent : (Membership.isSubscribed topic subscriber).Sound :=
    (Membership.get_sound topic subscriber).map _
  refine (hpresent.inline h₂).bind fun present db₃ h₃ _ => ?_
  have hrepair : (repair topic subscriber registered record present).Safe Database.Sound
      Failure.Legible (fun _ _ => True) db₃ := by
    rcases repair_cases topic subscriber registered record present with he | he | ⟨-, _, he⟩
    · rw [he]
      exact ⟨h₃, trivial⟩
    · rw [he]
      exact (Membership.remove_sound topic subscriber).inline h₃
    · rw [he]
      exact (Membership.add_sound ..).inline h₃
  refine hrepair.bind fun changed db₄ h₄ _ => ?_
  split <;> exact safe_answer h₄ _ _

theorem Call.sound (call : Call) : call.operation.Sound := by
  have hlook : ∀ {α β : Type} {op : Operation α} {table : Table} {view : Database → β} {f : β → α}
      (g : α → Reply), op.refusal = none →
      op.body = ((Script.see table view).bind fun b => .done (.answer (f b))) →
      (∀ cause, (op.recover cause).result = .error cause) → (op.map g).Sound :=
    fun g hr hb hrec => (Operation.safe_of_look hr hb hrec fun _ _ _ he => by cases he).map g
  cases call with
  | registerTopic topic publisher details enabled =>
    exact (Directory.register_sound topic publisher details enabled).map _
  | deregisterTopic topic => exact (Directory.deregister_sound topic).map _
  | setNotification topic enabled => exact (Directory.setNotification_sound topic enabled).map _
  | getTopic topic => exact hlook _ rfl rfl fun _ => rfl
  | isRegistered topic => exact hlook _ rfl rfl fun _ => rfl
  | getPublisher topic => exact (Directory.reading_sound topic _).map _
  | isNotificationEnabled topic => exact (Directory.reading_sound topic _).map _
  | getActivePublisher topic => exact (Directory.reading_sound topic _).map _
  | countTopics => exact hlook _ rfl rfl fun _ => rfl
  | addSubscriber topic subscriber details expiry requestId =>
    exact (Membership.add_sound topic subscriber details expiry requestId).map _
  | removeSubscriber topic subscriber => exact (Membership.remove_sound topic subscriber).map _
  | removeAllForTopic topic => exact (Membership.removeAll_sound topic).map _
  | listSubscribers topic => exact hlook _ rfl rfl fun _ => rfl
  | listTopicsOf subscriber => exact hlook _ rfl rfl fun _ => rfl
  | firstSubscriber topic => exact (Membership.first_sound topic).map _
  | getSubscriber topic subscriber => exact (Membership.get_sound topic subscriber).map _
  | isSubscribed topic subscriber => exact ((Membership.get_sound topic subscriber).map _).map _
  | fetchByTopic topic => exact (Membership.fetch_sound _).map _
  | fetchBySubscriber subscriber => exact (Membership.fetch_sound _).map _
  | allMembers => exact (Membership.fetch_sound _).map _
  | countSubscribers => exact hlook _ rfl rfl fun _ => rfl
  | requestSubscribe topic requestId =>
    exact (Negotiation.requestSubscribe_sound topic requestId).map _
  | requestUnsubscribe topic requestId =>
    exact (Negotiation.requestUnsubscribe_sound topic requestId).map _
  | confirm topic => exact (Negotiation.resolve_sound topic true).map _
  | deny topic => exact (Negotiation.resolve_sound topic false).map _
  | retire topic => exact (Negotiation.retire_sound topic).map _
  | currentState topic => exact (Negotiation.currentState_sound topic).map _
  | getSubscription topic => exact (Negotiation.get_sound topic).map _
  | topicOfRequest requestId => exact hlook _ rfl rfl fun _ => rfl
  | listEffective => exact hlook _ rfl rfl fun _ => rfl
  | listPending => exact Negotiation.pending_sound.map _
  | countDeprecated => exact hlook _ rfl rfl fun _ => rfl
  | purge topic => exact (Negotiation.purge_sound topic).map _
  | purgeDeprecated => exact Negotiation.purgeDeprecated_sound.map _
  | checkPublish topic => exact (Publishing.check_sound topic).map _
  | applyConfirmation topic subscriber details expiry =>
    exact (Response.applyConfirmation_sound topic subscriber details expiry).map _
  | applyDenial topic =>
    refine Operation.Safe.map ?_ _
    exact (Negotiation.resolve_sound topic false).concluding fun result failure he => by
      rwa [Response.counted_result] at he
  | handleResponse requestId accepted subscriber details expiry =>
    exact (Response.handle_sound requestId accepted subscriber details expiry).map _
  | handleWithdrawal topic => exact (Response.handleWithdrawal_sound topic).map _
  | heal topic subscriber => exact (Healing.heal_sound topic subscriber).map _

/-! ## Runs -/

namespace World

/-- From new databases on, whatever calls and blocks do on some stores and whatever is refused: at
every moment what is committed and what is open in a transaction is sound, and no call fails because
a row cannot be read. -/
theorem sound_follow {w : World} {G : Nat → Prop} (hG : w.Secluded G)
    (hw : ∀ k, G k → ∃ h, w.handle? k = some h ∧ h.connection.committed = .fresh ∧
      h.connection.working = none) (body : Body) :
    ∀ w' ∈ (w.follow body).world :: (w.follow body).worlds, ∀ k, G k →
      ∃ h, w'.handle? k = some h ∧ h.connection.committed.Sound ∧
        (∀ db, h.connection.working = some db → db.Sound) ∧
        ∀ (call : Call) (failure : Failure), (w'.call k call.operation).2 = .error failure →
          (∀ code, failure ≠ .unknownCode code) ∧ ∀ fault, failure ≠ .unreadableDetails fault := by
  have hstart : w.Holds Database.Sound G := by
    intro k hk
    obtain ⟨h, hh, hc, hn⟩ := hw k hk
    refine ⟨h, hh, hc ▸ Database.sound_fresh, fun db hdb => ?_⟩
    rw [hn] at hdb
    cases hdb
  obtain ⟨hend, hway⟩ : (w.follow body).world.Holds Database.Sound G ∧
      ∀ w' ∈ (w.follow body).worlds, w'.Holds Database.Sound G :=
    hstart.follow hG fun call => call.sound.keeps
  intro w' hw' k hk
  have hat : w'.Holds Database.Sound G := by
    rcases List.mem_cons.mp hw' with rfl | hw'
    · exact hend
    · exact hway w' hw'
  obtain ⟨h, hh, hI⟩ := hat k hk
  refine ⟨h, hh, hI.committed, hI.working, fun call failure hf => ?_⟩
  rw [(handle_call hh call.operation).1] at hf
  have hlegible := Handle.fails_of_perform call.sound (fun _ => .of_statement)
    (fun _ => .leaving) hI hf
  constructor
  · rintro code rfl
    exact hlegible
  · rintro fault rfl
    exact hlegible

/-- A subscription that is granted to nobody, inside a block that goes on all the same. -/
def grantedToNobody : Body :=
  .block 0
    (.call 0 (.registerTopic "t" "p" none (.plain true)) fun _ =>
      .call 0 (.requestSubscribe "t" "r") fun _ =>
        .call 0 (.applyConfirmation "t" "" .empty (some 0)) fun _ => .done)
    fun _ => .done

theorem sound_follow_grantedToNobody :
    ∃ db, ((lone .fresh []).follow grantedToNobody).world.committed? 0 = some db ∧ db.Sound ∧
      db.stateOf "t" = .subscribed ∧ db.members = [] := by
  obtain ⟨h, hh, hs, -⟩ := sound_follow (w := lone .fresh []) (G := (· = 0))
    (fun j k hj hk => ⟨fun he => hj (he.trans hk), fun a ha b hb => by
      cases hk
      cases hb
      exact Home.meets_own a .fresh⟩)
    (fun k hk => by
      cases hk
      exact ⟨_, lone_handle .fresh [], rfl, rfl⟩)
    grantedToNobody _ List.mem_cons_self 0 rfl
  have hc := committed?_of_handle hh
  refine ⟨_, hc, hs, ?_, ?_⟩
  · rw [← committed_of_committed? hc]
    decide +kernel
  · rw [← committed_of_committed? hc]
    decide +kernel

end World

end PubSub
