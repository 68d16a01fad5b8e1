import PubSub.Proofs.SharedNumbers
import PubSub.Proofs.Reopening

/-!
# Stores outside every block

Stores that are for one database, between the things that callers do with them (`Stands`).
Some of those on a file may be closed. A statement that is to be refused, a call and a
block, a store that is closed and one that is opened again: each leaves them standing, and
what it commits on the way is a history.
-/

namespace PubSub

namespace World

/-- Stores that are for the database in a file, also where none of them is open. -/
structure OnFile (w : World) (G : List Nat) (place : Path) (db : Database) : Prop where
  named : ∀ k ∈ G, w.place? k = some place
  home : ∀ k ∈ G, ∀ a, w.home? k = some a → a = .file place
  beside : ∀ k, k ∉ G → ∀ a, w.home? k = some a → a.meets (.file place) = false
  file : w.files.node? place = some (.database db)
  keeps : (Home.file place).keeps = true

/-- Stores for one database outside every block. Only those on a file are closed at times. -/
structure Stands (w : World) (G : List Nat) (on? : Option Path) (db : Database) : Prop where
  kin : w.Kin G db
  idle : ∀ k ∈ G, ∃ text, w.face? k = some (text, false)
  opened : on? = none → ∀ k ∈ G, w.home? k ≠ none
  filed : ∀ place, on? = some place → w.OnFile G place db

section
variable {w w' : World} {G : List Nat} {on? : Option Path} {place : Path} {db db' : Database}
  {on : Nat}

theorem store_of_face {k : Nat} {text : List Text.Point} {entered : Bool}
    (h : w.face? k = some (text, entered)) :
    ∃ s, w.stores[k]? = some s ∧ s.path = text ∧ s.entered = entered := by
  obtain ⟨s, hs, he⟩ := Option.map_eq_some_iff.mp h
  cases he
  exact ⟨s, hs, rfl, rfl⟩

theorem link_of_closed {s : Store} (hs : w.stores[on]? = some s) (hn : w.home? on = none) :
    s.link = none := by
  simpa [home?, hs] using hn

theorem files_database (h : w.files.node? place = some (.database db)) :
    w.files.database place = .ok db := by
  unfold Files.database
  rw [h]

theorem blank_of_numbered (hn : db.Numbered) : db ≠ .blank := fun he => by
  have hv := hn.version
  rw [he] at hv
  cases hv

theorem Settled.mark_eq (hset : w.Settled w') {k : Nat} {a' : Home} (h : w'.home? k = some a') :
    ∃ a, w.home? k = some a ∧ a.mark = a'.mark := by
  have hm := hset k
  rw [h] at hm
  exact Option.map_eq_some_iff.mp hm.symm

theorem OnFile.settled (hf : w.OnFile G place db) (hset : w.Settled w')
    (hface : ∀ k, w'.face? k = w.face? k) (hfile : w'.files.node? place = some (.database db')) :
    w'.OnFile G place db' where
  named k hk := by rw [place?, hface k, ← place?, hf.named k hk]
  home k hk a' ha' := by
    obtain ⟨a, ha, hm⟩ := hset.mark_eq ha'
    obtain rfl := hf.home k hk a ha
    cases a' <;> simp_all [Home.mark]
  beside k hk a' ha' := by
    obtain ⟨a, ha, hm⟩ := hset.mark_eq ha'
    rw [← Home.meets_mark, ← hm, Home.meets_mark]
    exact hf.beside k hk a ha
  file := hfile
  keeps := hf.keeps

theorem Stands.handle (hs : w.Stands G on? db) (hon : on ∈ G) (hopen : w.home? on ≠ none) :
    ∃ h, w.handle? on = some h ∧ h.entered = false ∧ h.connection.committed = db ∧
      h.connection.Orderly := by
  obtain ⟨h, hh, hc, ho⟩ := hs.kin.handle on hon hopen
  obtain ⟨text, hface⟩ := hs.idle on hon
  obtain ⟨s, hst, -, he⟩ := store_of_face hface
  obtain ⟨s', link, db', hs', -, -, -, rfl⟩ := handle?_eq_some.mp hh
  obtain rfl : s = s' := Option.some.inj (hst.symm.trans hs')
  exact ⟨_, hh, he, hc, ho⟩

theorem Stands.went (hs : w.Stands G on? db) (hset : w.Settled w')
    (hface : ∀ k, w'.face? k = w.face? k) (hon : on ∈ G) (hopen : w.home? on ≠ none)
    (hk : w'.Kin G db') : w'.Stands G on? db' where
  kin := hk
  idle k hin := by
    rw [hface k]
    exact hs.idle k hin
  opened hn k hin := fun hn' => hs.opened hn k hin ((hset.home?_none k).mp hn')
  filed place hp := by
    have hf := hs.filed place hp
    obtain ⟨h, hh, hc, -⟩ := hk.handle on hon fun hn => hopen ((hset.home?_none on).mp hn)
    have hfiled : w'.Filed on place := by
      refine ⟨by rw [place?, hface on, ← place?, hf.named on hon], ?_⟩
      obtain ⟨a', ha'⟩ := Option.ne_none_iff_exists'.mp (home?_of_handle hh)
      obtain ⟨a, ha, hm⟩ := hset.mark_eq ha'
      obtain rfl := hf.home on hon a ha
      rw [ha']
      cases a' <;> simp_all [Home.mark]
    have hd := (database_of_filed hfiled hh).1
    rw [hc] at hd
    exact hf.settled hset hface (Files.node?_of_database hd (blank_of_numbered hk.numbered))

theorem Stands.stayed (hs : w.Stands G on? db) (hset : w.Settled w')
    (hface : ∀ k, w'.face? k = w.face? k) (hh : ∀ k, w'.handle? k = w.handle? k)
    (hfiles : w'.files = w.files) : w'.Stands G on? db where
  kin := hs.kin.still hset fun k _ => hh k
  idle k hin := by
    rw [hface k]
    exact hs.idle k hin
  opened hn k hin := fun hn' => hs.opened hn k hin ((hset.home?_none k).mp hn')
  filed place hp :=
    (hs.filed place hp).settled hset hface (by rw [hfiles]; exact (hs.filed place hp).file)

section
variable (hk : w.Kin G db) (hf : w.OnFile G place db) (hon : on ∈ G)
  (hst : ∀ k, k ≠ on → w'.stores[k]? = w.stores[k]?) (hface : w'.face? on = w.face? on)
  (hfile : w'.files.node? place = some (.database db))
  (hnow : w'.home? on = none ∨ w'.home? on = some (.file place) ∧
    ∃ h, w'.handle? on = some h ∧ h.connection.committed = db ∧ h.connection.working = none)

include hf hon hst hface hfile hnow in
theorem OnFile.changed : w'.OnFile G place db := by
  have hhome : ∀ k, k ≠ on → w'.home? k = w.home? k := fun k hne => by
    rw [home?, hst k hne, ← home?]
  refine ⟨fun k hin => ?_, fun k hin a ha => ?_, fun k hout a ha => ?_, hfile, hf.keeps⟩
  · by_cases hne : k = on
    · rw [hne, place?, hface, ← place?, hf.named on hon]
    · rw [place?, face?, hst k hne, ← face?, ← place?, hf.named k hin]
  · by_cases hne : k = on
    · subst hne
      rcases hnow with hn | ⟨hn, -⟩
      · rw [hn] at ha
        cases ha
      · exact (Option.some.inj (hn.symm.trans ha)).symm
    · exact hf.home k hin a ((hhome k hne).symm.trans ha)
  · have hne : k ≠ on := fun he => hout (he ▸ hon)
    exact hf.beside k hout a ((hhome k hne).symm.trans ha)

include hk hf hst hfile

theorem Kin.kept {k : Nat} (hin : k ∈ G) (hne : k ≠ on) (hopen : w'.home? k ≠ none) :
    ∃ d d', w.handle? k = some d ∧ w'.handle? k = some d' ∧ d.Alike d' ∧
      d.connection.committed = db ∧ d'.connection.committed = db ∧ d.connection.Orderly := by
  obtain ⟨d, hd, hc, ho⟩ := hk.handle k hin fun hn => hopen (by rw [home?, hst k hne, ← home?, hn])
  have hsame : ∀ a, w.home? k = some a → w'.database a = w.database a := fun a ha => by
    obtain rfl := hf.home k hin a ha
    exact (files_database hfile).trans (files_database hf.file).symm
  obtain ⟨d', hd', ha, hc'⟩ := handle_beside (hst k hne) hsame hd
  exact ⟨d, d', hd, hd', ha, hc, hc'.trans hc, ho⟩

include hon hface hnow

theorem Kin.changed : w'.Kin G db := by
  have hf' := hf.changed hon hst hface hfile hnow
  have hidle : ∀ h, w'.handle? on = some h → h.connection.working = none := fun h hh => by
    rcases hnow with hn | ⟨-, h', hh', -, hw⟩
    · exact absurd hn (home?_of_handle hh)
    · obtain rfl : h' = h := Option.some.inj (hh'.symm.trans hh)
      exact hw
  refine ⟨hk.numbered, fun k hin hopen => ?_, fun j hj k hin hj' hk' ha => ?_,
    fun j k hout hin => ?_, fun j hj k hin hne h h' hh hh' hw hw' => ?_⟩
  · by_cases hne : k = on
    · subst hne
      obtain ⟨-, h, hh, hc, hw⟩ := hnow.resolve_left hopen
      exact ⟨h, hh, hc, Connection.orderly_of_idle (hc ▸ hk.numbered) hw⟩
    · obtain ⟨d, d', hd, hd', ha, hc₀, hc, ho⟩ := hk.kept hf hst hfile hin hne hopen
      refine ⟨d', hd', hc, hc ▸ hk.numbered, fun x hx => ?_⟩
      rw [hc, ha.mayWrite, ← hc₀]
      exact ho.working x (ha.working ▸ hx)
  · obtain ⟨a, hja⟩ := Option.ne_none_iff_exists'.mp hj'
    obtain ⟨b, hkb⟩ := Option.ne_none_iff_exists'.mp hk'
    have := ha.2 a hja b hkb
    rw [hf'.home j hj a hja, hf'.home k hin b hkb] at this
    simp [Home.meets] at this
  · refine ⟨fun he => hout (he ▸ hin), fun a ha b hb => ?_⟩
    rw [hf'.home k hin b hb]
    exact hf'.beside j hout a ha
  · by_cases hj' : j = on
    · subst hj'
      exact absurd (hidle h hh) hw
    · by_cases hk' : k = on
      · subst hk'
        exact absurd (hidle h' hh') hw'
      · obtain ⟨d, d', hd, hd', ha, -⟩ := hk.kept hf hst hfile hj hj' (home?_of_handle hh)
        obtain ⟨e, e', he, he', ha', -⟩ := hk.kept hf hst hfile hin hk' (home?_of_handle hh')
        obtain rfl : d' = h := Option.some.inj (hd'.symm.trans hh)
        obtain rfl : e' = h' := Option.some.inj (he'.symm.trans hh')
        rw [ha.mayWrite, ha'.mayWrite]
        exact hk.writer j hj k hin hne d e hd he (ha.working ▸ hw) (ha'.working ▸ hw')

end

theorem Stands.changed (hs : w.Stands G (some place) db) (hon : on ∈ G)
    (hst : ∀ k, k ≠ on → w'.stores[k]? = w.stores[k]?) (hface : w'.face? on = w.face? on)
    (hfile : w'.files.node? place = some (.database db))
    (hnow : w'.home? on = none ∨ w'.home? on = some (.file place) ∧
      ∃ h, w'.handle? on = some h ∧ h.connection.committed = db ∧ h.connection.working = none) :
    w'.Stands G (some place) db where
  kin := hs.kin.changed (hs.filed place rfl) hon hst hface hfile hnow
  idle k hin := by
    by_cases hne : k = on
    · rw [hne, hface]
      exact hs.idle on hon
    · rw [face?, hst k hne, ← face?]
      exact hs.idle k hin
  opened hn := by cases hn
  filed place' hp := by
    cases hp
    exact (hs.filed place rfl).changed hon hst hface hfile hnow

end

section
variable {w w' : World} {G : List Nat} {on? : Option Path} {place : Path} {db db' : Database}
  {on : Nat}

/-! ## Steps -/

theorem settled_refusing (w : World) (on : Nat) (refusals : List Refusal) :
    w.Settled (w.refusing on refusals) := by
  unfold refusing
  split
  · exact .refl w
  · rename_i s hs
    refine settled_setStore hs ?_
    cases s.link <;> rfl

theorem files_takeNotes (w : World) (on : Nat) (notes : List Note) :
    (w.takeNotes on notes).files = w.files := by
  unfold takeNotes
  induction notes generalizing w with
  | nil => rfl
  | cons n notes ih =>
    refine (ih (takeNote on w n)).trans ?_
    cases n with
    | event e => rfl
    | count name =>
      simp only [takeNote]
      split <;> rfl

theorem call_closed {α : Type} (hn : w.home? on = none) (op : Operation α) :
    ∃ notes, (w.call on op).1 = w.takeNotes on notes := by
  have hu : ∀ failure, ∃ notes, (w.callUnlinked on op failure).1 = w.takeNotes on notes := by
    intro failure
    unfold callUnlinked
    split
    · exact ⟨[], rfl⟩
    · exact ⟨_, rfl⟩
  unfold call
  split
  · exact hu _
  · rename_i s hs
    simp only [link_of_closed hs hn]
    exact hu _

theorem block_closed (hn : w.home? on = none) {text : List Text.Point}
    (hface : w.face? on = some (text, false)) (body : World → Trace) :
    w.block on body = .still w (some (.store (.notOpen text))) := by
  obtain ⟨s, hs, rfl, he⟩ := store_of_face hface
  have hent : w.enter on = (w, .error (.store (.notOpen s.path))) := by
    unfold enter
    simp only [hs, he, link_of_closed hs hn, Bool.false_eq_true, if_false]
  unfold block
  rw [hent]

theorem alike_refusing {k : Nat} (hne : k ≠ on) (refusals : List Refusal) {d : Handle}
    (hd : w.handle? k = some d) :
    ∃ d', (w.refusing on refusals).handle? k = some d' ∧ d.Alike d' := by
  have hsame : (w.refusing on refusals).stores[k]? = w.stores[k]? := by
    unfold refusing
    split
    · rfl
    · rename_i s hst
      rw [getElem?_setStore w on hst, if_neg hne]
  obtain ⟨d', hd', ha, -⟩ := handle_beside hsame (fun home _ => by
    unfold refusing
    split <;> rfl) hd
  exact ⟨d', hd', ha⟩

theorem Stands.refuse (hs : w.Stands G on? db) (hon : on ∈ G) (refusals : List Refusal) :
    (w.refusing on refusals).Stands G on? db := by
  have hset := settled_refusing w on refusals
  by_cases hopen : w.home? on = none
  · refine hs.stayed hset (face?_refusing w on refusals) (fun k => ?_) ?_
    · unfold refusing
      split
      · rfl
      · rename_i s hst
        rw [handle_setStore hst _ (by simp [link_of_closed hst hopen]) (by rfl)]
        split
        · rename_i hk
          rw [hk, handle?_of_closed hopen, Option.map_none]
        · rfl
    · unfold refusing
      split <;> rfl
  · obtain ⟨h, hh, -, rfl, -⟩ := hs.handle hon hopen
    have hothers : ∀ k, k ≠ on → ∀ d, w.handle? k = some d →
        ∃ d', (w.refusing on refusals).handle? k = some d' ∧ d.Alike d' :=
      fun k hne d hd => alike_refusing hne refusals hd
    have hgo : h.connection.Onward { h.connection with refusals := refusals } :=
      Connection.onward_unseen ⟨rfl, rfl⟩ (.inl rfl)
    exact hs.went hset (face?_refusing w on refusals) hon hopen
      (hs.kin.step hset hothers hon hh (handle_refusing hh refusals) hgo).1

theorem Stands.call (hs : w.Stands G on? db) (hon : on ∈ G) (op : Operation Reply) :
    ∃ db', (w.call on op).1.Stands G on? db' ∧ db.Later db' := by
  have hset := settled_call w on op
  by_cases hopen : w.home? on = none
  · refine ⟨db, hs.stayed hset (face?_call w on op) (fun k => ?_) ?_, .refl db⟩
    · obtain ⟨notes, hn⟩ := call_closed hopen op
      rw [hn, handle_takeNotes]
    · obtain ⟨notes, hn⟩ := call_closed hopen op
      rw [hn, files_takeNotes]
  · obtain ⟨db', hk, hl⟩ := hs.kin.call on op
    exact ⟨db', hs.went hset (face?_call w on op) hon hopen hk, hl⟩

theorem Stands.block (hs : w.Stands G on? db) (hon : on ∈ G) (body : Body) :
    ∃ db', (w.block on fun w => w.follow body).world.Stands G on? db' ∧
      db.Ascends (shownIn G (w.block on fun w => w.follow body)) db' := by
  by_cases hopen : w.home? on = none
  · obtain ⟨text, hface⟩ := hs.idle on hon
    rw [block_closed hopen hface]
    exact ⟨db, hs, ascends_shownIn (.nil (.refl db)) hs.kin⟩
  · obtain ⟨db', hasc, hk⟩ := hs.kin.block on fun w₁ d hk₁ => hk₁.follow body
    have hset : w.Settled (w.block on fun w => w.follow body).world :=
      settled_block fun w₁ => settled_follow w₁ body
    exact ⟨db', hs.went hset (fun k => face?_block w on fun w₁ => face?_follow w₁ body k) hon hopen hk,
      ascends_shownIn hasc hk⟩

theorem Stands.close (hs : w.Stands G on? db) (hon : on ∈ G) (hfile : on?.isSome) :
    (w.closeStore on).Stands G on? db := by
  obtain ⟨place, rfl⟩ := Option.isSome_iff_exists.mp hfile
  have hf := hs.filed place rfl
  obtain ⟨text, hface⟩ := hs.idle on hon
  obtain ⟨s, hst, -, -⟩ := store_of_face hface
  cases hopen : s.isOpen with
  | false =>
    have hsame : w.closeStore on = w := by simp [closeStore, hst, hopen]
    rwa [hsame]
  | true =>
    have hgone : w.closeStore on =
        ((w.setStore on { s with link := none }).report (.storeClosed s.path)).tidy := by
      simp [closeStore, hst, hopen]
    rw [hgone]
    refine hs.changed hon (fun k hne => ?_) ?_ hf.file (.inl ?_)
    · exact (getElem?_setStore w on hst _ k).trans (if_neg hne)
    · exact face?_setStore_same hst { s with link := none } rfl rfl on
    · have hat := getElem?_setStore w on hst { s with link := none } on
      rw [if_pos rfl] at hat
      change (w.setStore on { s with link := none }).home? on = none
      simp [home?, hat]

theorem Stands.reopen (hs : w.Stands G on? db) (hon : on ∈ G) :
    (w.openStore on).1.Stands G on? db := by
  by_cases hopen : w.home? on = none
  · obtain ⟨place, rfl⟩ := Option.ne_none_iff_exists'.mp fun hn => hs.opened hn on hon hopen
    have hf := hs.filed place rfl
    have ho := openStore_opened (hf.named on hon) hopen hf.file hs.kin.numbered.version hf.keeps
    refine hs.changed hon ho.others ho.face ho.file ?_
    cases hr : (w.openStore on).2 with
    | error failure =>
      rcases ho.store with ⟨-, hn⟩ | ⟨hok, -⟩
      · exact .inl (hn.trans hopen)
      · rw [hr] at hok
        cases hok
    | ok value =>
      rw [hr] at ho
      exact .inr (handle_of_opened ho hf.keeps)
  · obtain ⟨text, hface⟩ := hs.idle on hon
    obtain ⟨s, hst, -, -⟩ := store_of_face hface
    have hisOpen : s.isOpen = true := by
      rw [Store.isOpen, Option.isSome_iff_ne_none]
      exact fun hl => hopen (by simp [home?, hst, hl])
    have hsame : (w.openStore on).1 = w := by simp [openStore, hst, hisOpen]
    rwa [hsame]

end

end World

end PubSub
