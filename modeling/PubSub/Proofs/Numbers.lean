import PubSub.Proofs.Rows
import PubSub.Proofs.Stops

/-!
# The numbers of memberships

Numbers are given out in ascending order, and none is given out twice. An insert takes
the next one, also where it comes to nothing, and no write gives one back
(`run_members`). So of two databases that are committed one after the other, the later
one has the rows of the earlier one, as far as they are still there, and new rows with
higher numbers (`Later`). A connection commits nothing else, whatever runs on it
(`Onward`).
-/

namespace PubSub

namespace Database

/-! ## Writes -/

theorem run_members {w : Write} {db db' : Database} {rows : Nat} (h : w.run db = .ok (rows, db')) :
    db'.version = db.version ∧
      ((db'.lastMember = db.lastMember ∧ db'.members.Sublist db.members) ∨
        (db.lastMember < lastId ∧ db'.lastMember = db.lastMember + 1 ∧
          (db'.members = db.members ∨
            ∃ row : MemberRow, row.id = db.lastMember + 1 ∧ db'.members = db.members ++ [row]))) := by
  cases w with
  | addMember new =>
    simp only [Write.run, addMember] at h
    split at h
    · cases h
    · rename_i hl
      split at h
      · cases h
        exact ⟨rfl, .inr ⟨Nat.lt_of_not_le hl, rfl, .inr ⟨_, by push_cast; rfl, rfl⟩⟩⟩
      · cases h
        exact ⟨rfl, .inr ⟨Nat.lt_of_not_le hl, rfl, .inl rfl⟩⟩
  | dropMember topic subscriber =>
    cases h
    exact ⟨rfl, .inl ⟨rfl, List.filter_sublist⟩⟩
  | dropMembers topic =>
    cases h
    exact ⟨rfl, .inl ⟨rfl, List.filter_sublist⟩⟩
  | _ =>
    cases h
    exact ⟨rfl, .inl ⟨rfl, .refl _⟩⟩

/-- Memberships have ascending numbers, from one up to the counter. -/
structure Numbered (db : Database) : Prop where
  wellFormed : db.WellFormed
  version : db.version = schemaVersion
  ascending : (db.members.map (·.id)).Pairwise (· < ·)
  within : ∀ row ∈ db.members, 0 < row.id ∧ row.id ≤ db.lastMember
  room : db.lastMember ≤ lastId

theorem numbered_fresh : fresh.Numbered :=
  ⟨wellFormed_fresh, rfl, .nil, (fun _ hr => by cases hr), Nat.zero_le _⟩

theorem Numbered.run {w : Write} {db db' : Database} {rows : Nat} (h : db.Numbered)
    (hrun : w.run db = .ok (rows, db')) : db'.Numbered := by
  have hw := wellFormed_run hrun h.wellFormed
  obtain ⟨hv, ⟨hl, hm⟩ | ⟨hroom, hl, hm | ⟨row, hid, hm⟩⟩⟩ := run_members hrun
  · refine ⟨hw, hv.trans h.version, h.ascending.sublist (hm.map _), fun row hr => ?_, hl ▸ h.room⟩
    exact hl ▸ h.within row (hm.subset hr)
  · refine ⟨hw, hv.trans h.version, hm ▸ h.ascending, fun row hr => ?_, by omega⟩
    have := h.within row (hm ▸ hr)
    omega
  · refine ⟨hw, hv.trans h.version, ?_, fun row' hr => ?_, by omega⟩
    · rw [hm, List.map_append, List.pairwise_append]
      refine ⟨h.ascending, by simp, fun a ha b hb => ?_⟩
      obtain ⟨old, ho, rfl⟩ := List.mem_map.mp ha
      obtain rfl : b = row.id := by simpa using hb
      have := h.within old ho
      omega
    · rw [hm] at hr
      rcases List.mem_append.mp hr with ho | hn
      · have := h.within row' ho
        omega
      · obtain rfl := List.mem_singleton.mp hn
        omega

/-! ## Histories -/

/-- A database that another one has become: old rows may have gone, and what is new has new
numbers. -/
structure Later (db db' : Database) : Prop where
  counter : db.lastMember ≤ db'.lastMember
  rows : ∀ row ∈ db'.members, row.id ≤ db.lastMember → row ∈ db.members

theorem Later.refl (db : Database) : db.Later db := ⟨Nat.le_refl _, fun _ hr _ => hr⟩

theorem Later.trans {db db' db'' : Database} (h : db.Later db') (h' : db'.Later db'') :
    db.Later db'' where
  counter := Nat.le_trans h.counter h'.counter
  rows row hr hid := h.rows row (h'.rows row hr (by have := h.counter; omega)) hid

theorem later_run {w : Write} {db db' : Database} {rows : Nat} (hrun : w.run db = .ok (rows, db')) :
    db.Later db' := by
  obtain ⟨-, ⟨hl, hm⟩ | ⟨-, hl, hm | ⟨row, hid, hm⟩⟩⟩ := run_members hrun
  · exact ⟨Nat.le_of_eq hl.symm, fun row hr _ => hm.subset hr⟩
  · exact ⟨by omega, fun row hr _ => hm ▸ hr⟩
  · refine ⟨by omega, fun row' hr hle => ?_⟩
    rw [hm] at hr
    rcases List.mem_append.mp hr with ho | hn
    · exact ho
    · obtain rfl := List.mem_singleton.mp hn
      omega

/-- Databases on the way from one to another, one later than the other. -/
inductive Ascends : Database → List Database → Database → Prop where
  | nil {db db' : Database} (hl : db.Later db') : Ascends db [] db'
  | cons {db db' db'' : Database} {states : List Database} (hl : db.Later db') (hn : db'.Numbered)
    (h : Ascends db' states db'') : Ascends db (db' :: states) db''

theorem Later.ascends {db db' db'' : Database} {states : List Database} (hl : db.Later db')
    (h : Ascends db' states db'') : Ascends db states db'' := by
  cases h with
  | nil hl' => exact .nil (hl.trans hl')
  | cons hl' hn h => exact .cons (hl.trans hl') hn h

theorem Ascends.append {db db' db'' : Database} {states states' : List Database}
    (h : Ascends db states db') (h' : Ascends db' states' db'') :
    Ascends db (states ++ states') db'' := by
  induction h with
  | nil hl => exact hl.ascends h'
  | cons hl hn h ih => exact .cons hl hn (ih h')

theorem Ascends.numbered {db db' : Database} {states : List Database} (h : Ascends db states db') :
    ∀ d ∈ states, d.Numbered := by
  induction h with
  | nil => exact fun d hd => by cases hd
  | cons hl hn h ih =>
    intro d hd
    rcases List.mem_cons.mp hd with rfl | hd
    · exact hn
    · exact ih d hd

/-- The rows that came, one after the other, in the order of their numbers where several came at
once. -/
def insertions : Database → List Database → List MemberRow
  | _, [] => []
  | db, db' :: states => db'.members.filter (· ∉ db.members) ++ insertions db' states

theorem mem_insertions {db : Database} {row : MemberRow} (hr : row ∉ db.members)
    {states : List Database} {d : Database} (hd : d ∈ states) (hm : row ∈ d.members) :
    row ∈ insertions db states := by
  induction states generalizing db with
  | nil => cases hd
  | cons db' states ih =>
    by_cases hin : row ∈ db'.members
    · exact List.mem_append_left _ (by simp [hin, hr])
    · rcases List.mem_cons.mp hd with rfl | hd
      · exact absurd hm hin
      · exact List.mem_append_right _ (ih hin hd)

theorem insertions_ascending {db db' : Database} {states : List Database}
    (h : Ascends db states db') :
    (∀ row ∈ insertions db states, (db.lastMember : Int) < row.id) ∧
      ((insertions db states).map (·.id)).Pairwise (· < ·) := by
  induction h with
  | nil => exact ⟨(fun row hr => by cases hr), .nil⟩
  | @cons db db' db'' states hl hn h ih =>
    obtain ⟨hlow, hasc⟩ := ih
    have hnew : ∀ row ∈ db'.members.filter (· ∉ db.members), (db.lastMember : Int) < row.id := by
      intro row hr
      obtain ⟨hm, ho⟩ := List.mem_filter.mp hr
      exact Int.not_le.mp fun hle => absurd (hl.rows row hm hle) (by simpa using ho)
    have hcounter := hl.counter
    refine ⟨fun row hr => ?_, ?_⟩
    · rcases List.mem_append.mp hr with hr | hr
      · exact hnew row hr
      · have := hlow row hr
        omega
    · rw [insertions, List.map_append, List.pairwise_append]
      refine ⟨hn.ascending.sublist (List.filter_sublist.map _), hasc, fun a ha b hb => ?_⟩
      obtain ⟨row, hr, rfl⟩ := List.mem_map.mp ha
      obtain ⟨row', hr', rfl⟩ := List.mem_map.mp hb
      have := (hn.within row (List.mem_filter.mp hr).1).2
      have := hlow row' hr'
      omega

end Database

/-! ## Connections -/

namespace Connection

/-- What is open on a connection is later than what is committed, and who only reads has changed
nothing. -/
structure Orderly (c : Connection) : Prop where
  committed : c.committed.Numbered
  working : ∀ db, c.working = some db →
    db.Numbered ∧ c.committed.Later db ∧ (c.mayWrite = false → db = c.committed)

theorem orderly_of_idle {c : Connection} (hn : c.committed.Numbered) (hw : c.working = none) :
    c.Orderly :=
  ⟨hn, fun db hdb => by rw [hw] at hdb; cases hdb⟩

/-- Nothing can be committed through a connection, as others are inside their transactions. -/
def Stalled (c : Connection) : Prop :=
  c.mayWrite = false ∨ c.observed = true ∨ c.working = none ∧ c.blocked ≠ none

structure Onward (c c' : Connection) : Prop where
  around : c'.around = c.around
  begun : c'.working ≠ none → c.working ≠ none ∨ c.blocked = none
  orderly : c.Orderly → c'.Orderly
  later : c.Orderly → c.committed.Later c'.committed
  stalled : c.Orderly → c.Stalled → c'.committed = c.committed

section
variable {c c' c'' : Connection}

theorem Onward.stays_stalled (h : c.Onward c') (hs : c.Stalled) : c'.Stalled := by
  have ha := h.around
  simp only [Connection.around, Prod.mk.injEq] at ha
  obtain ⟨hb, ho, hm⟩ := ha
  rcases hs with hs | hs | ⟨hw, hs⟩
  · exact .inl (hm.trans hs)
  · exact .inr (.inl (ho.trans hs))
  · refine .inr (.inr ⟨?_, hb ▸ hs⟩)
    by_contra hn
    exact (h.begun hn).elim (fun hn => hn hw) hs

theorem Onward.trans (h : c.Onward c') (h' : c'.Onward c'') : c.Onward c'' where
  around := h'.around.trans h.around
  begun hw := by
    have hb : c'.blocked = c.blocked := congrArg (·.1) h.around
    exact (h'.begun hw).elim h.begun fun hn => .inr (hb.symm.trans hn)
  orderly hc := h'.orderly (h.orderly hc)
  later hc := (h.later hc).trans (h'.later (h.orderly hc))
  stalled hc hs := (h'.stalled (h.orderly hc) (h.stays_stalled hs)).trans (h.stalled hc hs)

theorem onward_unseen (hu : c.Unseen c') (hw : c'.working = c.working ∨ c'.working = none) :
    c.Onward c' where
  around := hu.around
  begun hn := .inl (hw.elim (fun hw => hw ▸ hn) fun hw => absurd hw hn)
  orderly hc := by
    rcases hw with hw | hw
    · have hm : c'.mayWrite = c.mayWrite := congrArg (·.2.2) hu.around
      refine ⟨hu.committed ▸ hc.committed, fun db hdb => ?_⟩
      rw [hu.committed, hm]
      exact hc.working db (hw ▸ hdb)
    · exact orderly_of_idle (hu.committed ▸ hc.committed) hw
  later _ := hu.committed ▸ .refl _
  stalled _ _ := hu.committed

theorem Onward.refl (c : Connection) : c.Onward c := onward_unseen (.refl c) (.inl rfl)

theorem onward_rollback (c : Connection) : c.Onward c.rollback.2 :=
  onward_unseen (rollback_unseen c) (rollback_working c)

theorem onward_open (c : Connection) : c.Onward c.open?.2 := by
  rcases open?_cases c with ⟨fault, d, ho, hu, hw⟩ | ⟨d, ho, hu, -, hw⟩
  · rw [ho]
    exact onward_unseen hu (.inl hw)
  · have hfree := blocked_of_open (c := c) (by rw [ho])
    rw [ho]
    refine ⟨hu.around, fun _ => .inr hfree, fun hc => ?_, fun _ => hu.committed ▸ .refl _,
      fun _ _ => hu.committed⟩
    refine ⟨hu.committed ▸ hc.committed, fun db hdb => ?_⟩
    obtain rfl : c.committed = db := Option.some.inj (hw.symm.trans hdb)
    exact ⟨hc.committed, hu.committed ▸ .refl _, fun _ => hu.committed.symm⟩

theorem onward_commit (c : Connection) : c.Onward c.commit.2 := by
  rcases commit_cases c with ⟨fault, d, hc, hu, hw⟩ | ⟨db, d, hc, hw, hw', rfl, ha⟩
  · rw [hc]
    exact onward_unseen hu (.inl hw)
  · have hcommit : c.commit.1 = none := by rw [hc]
    rw [hc]
    refine ⟨ha, fun hn => absurd hw' hn, fun ho => ?_, fun ho => (ho.working _ hw).2.1,
      fun ho hs => ?_⟩
    · exact orderly_of_idle (ho.working _ hw).1 hw'
    · cases hm : c.mayWrite with
      | false => exact (ho.working _ hw).2.2 hm
      | true =>
        rcases hs with hs | hs | ⟨hs, -⟩
        · rw [hm] at hs
          cases hs
        · rw [observed_of_commit hcommit hm] at hs
          cases hs
        · rw [hw] at hs
          cases hs

theorem onward_write (c : Connection) (w : Write) : c.Onward (c.write w).2 := by
  rcases write_cases c w with
    ⟨failure, d, hw, -, hu, hd⟩ | ⟨rows, d, hw, -, -, ha, db, hrun, hk, hc⟩
  · rw [hw]
    exact onward_unseen hu hd
  · have hl := Database.later_run hrun
    have hmay : c.mayWrite = true := by
      by_contra hm
      obtain ⟨failure, d', hf⟩ := write_cases_of_reader (Bool.eq_false_iff.mpr hm) w
      rw [hw] at hf
      cases hf
    have hmay' : d.mayWrite = true := (congrArg (·.2.2) ha).trans hmay
    cases hopen : c.working with
    | none =>
      have hfree := free_of_write hopen hw
      rw [hw]
      simp only [view, hopen, Option.map_none, Option.isSome_none, Bool.false_eq_true, if_false,
        Option.getD_none] at hrun hk hc hl
      refine ⟨ha, fun hn => absurd hk hn, fun ho => ?_, fun _ => hc ▸ hl, fun _ hs => ?_⟩
      · exact orderly_of_idle (hc ▸ ho.committed.run hrun) hk
      · obtain ⟨hm, hb, hobs⟩ := hfree
        rcases hs with hs | hs | ⟨-, hs⟩
        · rw [hm] at hs
          cases hs
        · rw [hobs] at hs
          cases hs
        · exact absurd hb hs
    | some old =>
      rw [hw]
      simp only [view_of_working hopen, hopen, Option.map_some, Option.isSome_some, if_true]
        at hrun hk hc hl
      refine ⟨ha, fun _ => .inl (by simp [hopen]), fun ho => ?_, fun _ => hc ▸ .refl _, fun _ _ => hc⟩
      obtain ⟨hn, hold, -⟩ := ho.working old hopen
      refine ⟨hc ▸ ho.committed, fun db' hdb => ?_⟩
      obtain rfl : db = db' := Option.some.inj (hk.symm.trans hdb)
      refine ⟨hn.run hrun, hc ▸ hold.trans hl, fun hr => ?_⟩
      rw [hmay'] at hr
      cases hr

theorem onward_exec {α : Type} (c : Connection) (s : Script α) : c.Onward (c.exec s).connection := by
  induction s generalizing c with
  | done value => exact .refl c
  | fail failure => exact .refl c
  | look table next ih =>
    unfold exec
    split
    · have hs : c.Onward c.succeeded := onward_unseen ⟨rfl, rfl⟩ (.inl rfl)
      exact hs.trans (ih _ c.succeeded)
    · exact onward_unseen ⟨rfl, rfl⟩ (.inl rfl)
  | write w next ih =>
    have hw := onward_write c w
    unfold exec
    rcases write_cases c w with ⟨failure, d, he, -⟩ | ⟨rows, d, he, -⟩
    · simpa only [he] using hw
    · rw [he] at hw
      simpa only [he] using hw.trans (ih rows d)
  | note n next ih => exact ih c

theorem onward_transact {α : Type} (c : Connection) (op : Operation α) :
    c.Onward (c.transact op).connection := by
  unfold transact
  cases op.refusal with
  | some failure => exact .refl c
  | none =>
    have ho := onward_open c
    simp only
    split
    · rename_i fault d heq
      rw [heq] at ho
      exact ho.trans (onward_rollback d)
    · rename_i d heq
      rw [heq] at ho
      have hx := ho.trans (onward_exec d op.body)
      split
      · exact hx.trans (onward_rollback _)
      · have hc := hx.trans (onward_commit (d.exec op.body).connection)
        split
        · rename_i fault e heq'
          rw [heq'] at hc
          exact hc.trans (onward_rollback e)
        · rename_i heq'
          rwa [heq'] at hc

theorem onward_join {α : Type} (c : Connection) (op : Operation α) :
    c.Onward (c.join op).connection := by
  cases hr : op.refusal with
  | some failure =>
    unfold join
    rw [hr]
    exact .refl c
  | none =>
    rw [join_connection c hr]
    exact onward_exec c op.body

theorem onward_settle (c : Connection) (outcome : Option Failure) :
    c.Onward (World.settle c outcome).1 := by
  unfold World.settle
  cases outcome with
  | some failure => exact onward_rollback c
  | none =>
    have hc := onward_commit c
    simp only
    split
    · rename_i heq
      rwa [heq] at hc
    · rename_i fault d heq
      rw [heq] at hc
      exact hc.trans (onward_rollback d)

end

end Connection

/-! ## Handles -/

namespace Handle

theorem onward_perform {α : Type} (h : Handle) (op : Operation α) :
    h.connection.Onward (h.perform op).connection := by
  unfold perform
  split
  · exact Connection.onward_join _ op
  · exact Connection.onward_transact _ op

theorem onward_enter (h : Handle) : h.connection.Onward h.enter.1.connection := by
  have ho := Connection.onward_open h.connection
  unfold enter
  split
  · exact .refl _
  · split
    · rename_i heq
      rwa [heq] at ho
    · rename_i fault d heq
      rw [heq] at ho
      exact ho.trans (Connection.onward_rollback d)

theorem onward_leave (h : Handle) (entry : World.Entry) (outcome : Option Failure) :
    h.connection.Onward (h.leave entry outcome).1.connection := by
  cases entry with
  | joined => exact .refl _
  | outermost opening =>
    unfold leave
    simp only
    split
    · exact .refl _
    · exact Connection.onward_settle h.connection outcome

end Handle

end PubSub
