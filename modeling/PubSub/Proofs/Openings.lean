import PubSub.Proofs.Numbers
import PubSub.Proofs.Reachable
import PubSub.Proofs.Recovery
import PubSub.Proofs.Schema
import PubSub.Proofs.IdleStores
import PubSub.Proofs.Stops
import PubSub.Proofs.PathResolution

/-!
# Openings

An opening goes the way to a database first and then brings its schema up to date. On the way
it adds folders and files that nothing was written to, and at the end no row is another one
than before. A store on a file that is closed and opened again comes to the same database in
the same surroundings, so calls answer what they did (`opening_keeps_contents`).
-/

namespace PubSub

open Text (Point)

/-- The same rows in the same order, and the same next number. -/
structure Database.SameRows (db db' : Database) : Prop where
  topics : db'.topics = db.topics
  members : db'.members = db.members
  subscriptions : db'.subscriptions = db.subscriptions
  counter : db'.lastMember = db.lastMember

theorem Database.SameRows.refl (db : Database) : db.SameRows db := ⟨rfl, rfl, rfl, rfl⟩

theorem Database.sameRows_upgraded (db : Database) : db.SameRows db.upgraded := ⟨rfl, rfl, rfl, rfl⟩

def Store.bearing? (s : Store) : Option (List Point × Bool × Home × Bool × Bool) :=
  s.link.map fun link => (s.path, s.entered, link.home.mark, link.mayWrite, link.shares)

/-- A text that does not begin like an address names a file by its place. -/
def Path.IsPlain (text : List Point) : Prop :=
  ∀ bytes, Files.bytesOf text = .ok bytes → Address.start.isPrefixOf bytes = false

namespace World

/-! ## The way to a database -/

/-- An opening up to where it has a connection. -/
def approach (w : World) (s : Store) : World × Except Failure (Address × Home) :=
  let (files, obstacle) := w.files.makeFolders true (Path.folderText s.path)
  let w := { w with files := files }
  match obstacle, Files.bytesOf s.path with
  | some obstacle, _ | none, .error obstacle => (w, .error (.obstructed obstacle))
  | none, .ok bytes =>
    match Address.ofBytes bytes with
    | .error fault => (w, .error (.store (.unopenable s.path (.address fault))))
    | .ok a =>
      match w.openAddress a with
      | (w, .error fault) => (w, .error (.store (.unopenable s.path fault)))
      | (w, .ok opened) => (w, .ok opened)

theorem openClosed_eq (w : World) (i : Nat) (s : Store) :
    w.openClosed i s = match w.approach s with
      | (w, .error failure) => (w, .error failure)
      | (w, .ok (a, home)) => w.openHome i s a home := by
  unfold openClosed approach
  rcases w.files.makeFolders true (Path.folderText s.path) with ⟨files, obstacle⟩
  simp only
  cases obstacle with
  | some obstacle => rfl
  | none =>
    cases Files.bytesOf s.path with
    | error obstacle => rfl
    | ok bytes =>
      simp only
      cases Address.ofBytes bytes with
      | error fault => rfl
      | ok a =>
        simp only
        rcases openAddress _ a with ⟨w', result⟩
        cases result <;> rfl

theorem openStore_eq {w : World} {i : Nat} {s : Store} (hs : w.stores[i]? = some s)
    (hl : s.link = none) : w.openStore i = match w.approach s with
      | (w, .error failure) => (w, .error failure)
      | (w, .ok (a, home)) => w.openHome i s a home := by
  have hopen : s.isOpen = false := by simp [Store.isOpen, hl]
  unfold openStore
  simp only [hs, hopen, Bool.false_eq_true, if_false]
  exact openClosed_eq w i s

theorem granted_of_alone (w : World) {a : Address} (h : a.shares = false) (home : Home) :
    w.granted a home = a := by
  unfold granted
  simp only
  rw [List.find?_eq_none.mpr fun link _ => by simp [h]]

/-- What a world keeps on the way to a database. -/
structure Approached (w w' : World) : Prop where
  files : w.files.Grows w'.files
  stores : w'.stores = w.stores
  locked : w'.locked = w.locked

theorem approached_homeOf (w : World) (a : Address) : w.Approached (w.homeOf a).1 := by
  unfold homeOf
  split
  · exact ⟨.refl _, rfl, rfl⟩
  · split <;> exact ⟨.refl _, rfl, rfl⟩
  · split
    · exact ⟨.refl _, rfl, rfl⟩
    · split
      · exact ⟨.refl _, rfl, rfl⟩
      · rename_i h
        exact ⟨Files.grows_openDatabase h, rfl, rfl⟩

theorem keeps_of_homeOf {w w' : World} {a : Address} {home : Home}
    (h : w.homeOf a = (w', .ok home)) : home.keeps = true := by
  unfold homeOf at h
  split at h
  · cases h
    rfl
  · split at h <;> cases h <;> rfl
  · split at h
    · cases h
    · split at h
      · cases h
      · rename_i ho
        cases h
        exact Files.keeps_of_openDatabase ho

theorem approach_eq {w : World} {s : Store} {files : Files} {bytes : List UInt8} {a : Address}
    (hm : w.files.makeFolders true (Path.folderText s.path) = (files, none))
    (hb : Files.bytesOf s.path = .ok bytes) (ha : Address.ofBytes bytes = .ok a) :
    w.approach s = match ({ w with files := files } : World).homeOf a with
      | (w, .error fault) => (w, .error (.store (.unopenable s.path fault)))
      | (w, .ok home) => (w, .ok (w.granted a home, home)) := by
  unfold approach
  simp only [hm, hb, ha, openAddress]
  rcases homeOf _ a with ⟨w', result⟩
  cases result <;> rfl

theorem approach_cases (w : World) (s : Store) : ∃ files, w.files.Grows files ∧
    ((∃ failure, w.approach s = ({ w with files := files }, .error failure)) ∨
      ∃ bytes a, Files.bytesOf s.path = .ok bytes ∧ Address.ofBytes bytes = .ok a ∧
        w.approach s = match ({ w with files := files } : World).homeOf a with
          | (w, .error fault) => (w, .error (.store (.unopenable s.path fault)))
          | (w, .ok home) => (w, .ok (w.granted a home, home))) := by
  have hgrows := w.files.grows_makeFolders true (Path.folderText s.path)
  cases hm : w.files.makeFolders true (Path.folderText s.path) with
  | mk files obstacle =>
    rw [hm] at hgrows
    refine ⟨files, hgrows, ?_⟩
    cases obstacle with
    | some obstacle => exact .inl ⟨_, by simp only [approach, hm]; rfl⟩
    | none =>
      cases hb : Files.bytesOf s.path with
      | error obstacle => exact .inl ⟨_, by simp only [approach, hm, hb]; rfl⟩
      | ok bytes =>
        cases ha : Address.ofBytes bytes with
        | error fault => exact .inl ⟨_, by simp only [approach, hm, hb, ha]; rfl⟩
        | ok a => exact .inr ⟨bytes, a, rfl, ha, approach_eq hm hb ha⟩

theorem approached (w : World) (s : Store) : w.Approached (w.approach s).1 := by
  obtain ⟨files, hgrows, ⟨failure, h⟩ | ⟨bytes, a, -, -, h⟩⟩ := approach_cases w s
  · rw [h]
    exact ⟨hgrows, rfl, rfl⟩
  · have hhome := approached_homeOf { w with files := files } a
    rw [h]
    generalize ({ w with files := files } : World).homeOf a = found at hhome
    obtain ⟨v, result⟩ := found
    have hv : w.Approached v := ⟨hgrows.trans hhome.files, hhome.stores, hhome.locked⟩
    cases result <;> exact hv

theorem approach_ok {w w' : World} {s : Store} {a : Address} {home : Home}
    (h : w.approach s = (w', .ok (a, home))) : ∃ bytes address v,
      Files.bytesOf s.path = .ok bytes ∧ Address.ofBytes bytes = .ok address ∧
      homeOf v address = (w', .ok home) ∧ a = w'.granted address home := by
  obtain ⟨files, -, ⟨failure, he⟩ | ⟨bytes, address, hb, ha, he⟩⟩ := approach_cases w s
  · rw [he] at h
    cases h
  · rw [he] at h
    rcases hh : ({ w with files := files } : World).homeOf address with ⟨v, result⟩
    rw [hh] at h
    cases result with
    | error fault => cases h
    | ok home' =>
      cases h
      exact ⟨bytes, address, _, hb, ha, hh, rfl⟩

/-! ## The schema -/

/-- What stands in the way of the schema when a store opens a home. -/
def openingObstacle (w : World) (i : Nat) (a : Address) (home : Home) : Option Fault :=
  if !home.hasJournal then some .unopenable
  else if !a.mayWrite then some .readOnly
  else w.blockedFor i home true a.shares <|> if w.isObserved i home then some .locked else none

section
variable {w : World} (i : Nat) (path : List Point) (a : Address) {home : Home} {db : Database}
  (hd : w.database home = .ok db)

include hd

theorem prepare_ahead (hv : schemaVersion < db.version) :
    ∃ failure, w.prepare i path a home = .error (.store failure) := by
  unfold prepare
  cases home.hasJournal with
  | false => exact ⟨_, rfl⟩
  | true =>
    simp only [hd, applySchema, if_pos hv]
    exact ⟨_, rfl⟩

theorem prepare_current (hv : db.version = schemaVersion) (hj : home.hasJournal = true) :
    w.prepare i path a home = .ok (db, []) := by
  unfold prepare
  simp only [hj, Bool.not_true, Bool.false_eq_true, if_false, hd]
  exact applySchema_current hv

theorem prepare_behind (hv : db.version < schemaVersion) :
    w.prepare i path a home = applySchema path (w.openingObstacle i a home) db := by
  have hnot : ¬schemaVersion < db.version := by omega
  unfold prepare openingObstacle
  cases hj : home.hasJournal with
  | false => simp [applySchema, hnot, hv]
  | true => simp [hd]

end

theorem prepare_ok {w : World} {i : Nat} {path : List Point} {a : Address} {home : Home}
    {db : Database} {events : List Event} (h : w.prepare i path a home = .ok (db, events)) :
    home.hasJournal = true ∧ ∃ found, w.database home = .ok found ∧ found.SameRows db ∧
      db.version = schemaVersion := by
  unfold prepare at h
  simp only at h
  split at h
  · cases h
  · rename_i hj
    refine ⟨by simpa using hj, ?_⟩
    cases hd : w.database home with
    | error fault => simp [hd] at h
    | ok found =>
      refine ⟨found, rfl, ?_⟩
      simp only [hd, applySchema] at h
      split at h
      · cases h
      · rename_i hnew
        split at h
        · split at h
          · cases h
          · cases h
            exact ⟨found.sameRows_upgraded, rfl⟩
        · cases h
          exact ⟨.refl _, by omega⟩

/-! ## The end of an opening -/

theorem foldl_report (events : List Event) (w : World) :
    events.foldl report w = { w with log := w.log ++ events } := by
  induction events generalizing w with
  | nil => simp
  | cons e events ih => simp [ih, report]

def linked (s : Store) (home : Home) (a : Address) : Store :=
  { s with link := some (.new home a), openings := s.openings + 1 }

theorem openHome_ok {w : World} {i : Nat} {s : Store} {a : Address} {home : Home} {db : Database}
    {events : List Event} (h : w.prepare i s.path a home = .ok (db, events)) :
    ∃ log, w.openHome i s a home =
      ({ (w.keep home db).1.setStore i (linked s (w.keep home db).2 a) with log := log }, .ok ()) := by
  refine ⟨(w.keep home db).1.log ++ events ++ [.storeOpened s.path], ?_⟩
  unfold openHome
  simp only [h, foldl_report]
  rfl

theorem openHome_error {w : World} {i : Nat} {s : Store} {a : Address} {home : Home}
    {failure : Failure} (h : w.prepare i s.path a home = .error failure) :
    w.openHome i s a home = (w.tidy, .error failure) := by
  unfold openHome
  rw [h]

theorem sameRows_keep (w : World) {home : Home} (hk : home.keeps = true) {found db : Database}
    (hd : w.database home = .ok found) (hsame : found.SameRows db) {place : Path} {old : Database}
    (hold : w.files.database place = .ok old) :
    ∃ db', (w.keep home db).1.files.database place = .ok db' ∧ old.SameRows db' := by
  cases hm : (Home.file place).meets home with
  | false => exact ⟨old, (database_keep_of_apart w hm db).trans hold, .refl old⟩
  | true =>
    obtain rfl := Home.eq_of_meets hm
    obtain rfl : found = old := Except.ok.inj (hd.symm.trans hold)
    have hput := database_keep w hk hd db
    have hhome : (w.keep (.file place) db).2 = .file place := (keep_home w _ db).resolve_right (by simp)
    rw [hhome] at hput
    exact ⟨db, hput, hsame⟩

theorem sameRows_openHome {w : World} {i : Nat} {s : Store} {a : Address} {home : Home}
    (hk : home.keeps = true) {place : Path} {old : Database}
    (hold : w.files.database place = .ok old) :
    ∃ db', (w.openHome i s a home).1.files.database place = .ok db' ∧ old.SameRows db' := by
  cases h : w.prepare i s.path a home with
  | error failure =>
    rw [openHome_error h]
    exact ⟨old, hold, .refl old⟩
  | ok prepared =>
    obtain ⟨db, events⟩ := prepared
    obtain ⟨-, found, hd, hsame, -⟩ := prepare_ok h
    obtain ⟨log, ho⟩ := openHome_ok h
    rw [ho]
    exact sameRows_keep w hk hd hsame hold

section
variable {w : World} {i : Nat} {s : Store} (hs : w.stores[i]? = some s) (hl : s.link = none)

include hs hl

/-- Whatever comes of an opening, no row of a database in a file is another one. -/
theorem sameRows_openStore {place : Path} {db : Database} (hd : w.files.database place = .ok db) :
    ∃ db', (w.openStore i).1.files.database place = .ok db' ∧ db.SameRows db' := by
  have happ := approached w s
  rw [openStore_eq hs hl]
  cases h : w.approach s with
  | mk v result =>
    rw [h] at happ
    have hv : v.files.database place = .ok db := (happ.files.database place).trans hd
    cases result with
    | error failure => exact ⟨db, hv, .refl db⟩
    | ok opened =>
      obtain ⟨a, home⟩ := opened
      obtain ⟨_, address, u, -, -, hh, -⟩ := approach_ok h
      exact sameRows_openHome (keeps_of_homeOf hh) hv

theorem openStore_error {failure : Failure} (h : (w.openStore i).2 = .error failure) :
    (w.openStore i).1.stores = w.stores ∧
      ∀ place, (w.openStore i).1.files.database place = w.files.database place := by
  have happ := approached w s
  rw [openStore_eq hs hl] at h ⊢
  cases ha : w.approach s with
  | mk v result =>
    rw [ha] at happ h
    cases result with
    | error failure => exact ⟨happ.stores, happ.files.database⟩
    | ok opened =>
      obtain ⟨a, home⟩ := opened
      simp only at h ⊢
      cases hp : v.prepare i s.path a home with
      | error failure =>
        rw [openHome_error hp]
        exact ⟨happ.stores, happ.files.database⟩
      | ok prepared =>
        obtain ⟨log, ho⟩ := openHome_ok hp
        rw [ho] at h
        cases h

theorem openStore_ok (h : (w.openStore i).2 = .ok ()) : ∃ v a home db events log,
    w.approach s = (v, .ok (a, home)) ∧ home.keeps = true ∧
      v.prepare i s.path a home = .ok (db, events) ∧ w.openStore i =
        ({ (v.keep home db).1.setStore i (linked s (v.keep home db).2 a) with log := log }, .ok ()) := by
  rw [openStore_eq hs hl] at h ⊢
  cases ha : w.approach s with
  | mk v result =>
    rw [ha] at h
    cases result with
    | error failure => cases h
    | ok opened =>
      obtain ⟨a, home⟩ := opened
      obtain ⟨_, _, _, -, -, hh, -⟩ := approach_ok ha
      cases hp : v.prepare i s.path a home with
      | error failure =>
        simp only [openHome_error hp] at h
        cases h
      | ok prepared =>
        obtain ⟨db, events⟩ := prepared
        obtain ⟨log, ho⟩ := openHome_ok hp
        exact ⟨v, a, home, db, events, log, rfl, keeps_of_homeOf hh, hp, ho⟩

end

theorem handle_linked {v : World} {i : Nat} {s : Store} (hs : v.stores[i]? = some s) {home : Home}
    (hk : home.keeps = true) {found : Database} (hd : v.database home = .ok found) (db : Database)
    (a : Address) (log : List Event) :
    let w := { (v.keep home db).1.setStore i (linked s (v.keep home db).2 a) with log := log }
    w.stores[i]? = some (linked s (v.keep home db).2 a) ∧
      w.database (v.keep home db).2 = .ok db ∧
      w.handle? i = some ⟨s.openings + 1, s.entered, w.connection i (.new (v.keep home db).2 a)⟩ ∧
      w.committed? i = some db := by
  intro w
  have hst : (v.keep home db).1.stores[i]? = some s := by rw [(keep_stores v home db).1, hs]
  have hat : w.stores[i]? = some (linked s (v.keep home db).2 a) :=
    (getElem?_setStore _ i hst _ i).trans (if_pos rfl)
  have hdb : w.database (v.keep home db).2 = .ok db := database_keep v hk hd db
  have hh : w.handle? i = some ⟨s.openings + 1, s.entered, w.connection i (.new (v.keep home db).2 a)⟩ :=
    handle?_eq_some.mpr ⟨_, _, db, hat, rfl, hdb, (keep_keeps v home db).trans hk, rfl⟩
  refine ⟨hat, hdb, hh, ?_⟩
  rw [committed?_of_handle hh]
  simp [connection, Link.new, hdb, Except.toOption]

/-! ## The database that an opening comes to -/

section
variable {w v : World} {i : Nat} {s : Store} {a : Address} {place : Path} {db : Database}
  (ha : w.approach s = (v, .ok (a, .file place))) (hd : w.files.database place = .ok db)

include ha hd

theorem database_of_approach : v.database (.file place) = .ok db := by
  have happ := approached w s
  rw [ha] at happ
  exact (happ.files.database place).trans hd

variable (hs : w.stores[i]? = some s) (hl : s.link = none)

include hs hl

theorem openStore_ahead (hv : schemaVersion < db.version) :
    (∃ failure, (w.openStore i).2 = .error (.store failure)) ∧
      (w.openStore i).1.files.database place = .ok db := by
  have hd' := database_of_approach ha hd
  obtain ⟨failure, hp⟩ := prepare_ahead i s.path a hd' hv
  rw [openStore_eq hs hl, ha]
  simp only [openHome_error hp]
  exact ⟨⟨failure, rfl⟩, hd'⟩

theorem openStore_prepared {db' : Database} {events : List Event}
    (hp : v.prepare i s.path a (.file place) = .ok (db', events)) :
    (w.openStore i).2 = .ok () ∧ (w.openStore i).1.files.database place = .ok db' ∧
      (w.openStore i).1.committed? i = some db' := by
  have hd' := database_of_approach ha hd
  have happ := approached w s
  rw [ha] at happ
  obtain ⟨_, _, _, -, -, hh, -⟩ := approach_ok ha
  obtain ⟨log, ho⟩ := openHome_ok hp
  obtain ⟨-, hdb, -, hc⟩ := handle_linked (happ.stores ▸ hs) (keeps_of_homeOf hh) hd' db' a log
  have hhome : (v.keep (.file place) db').2 = .file place := (keep_home v _ db').resolve_right (by simp)
  rw [openStore_eq hs hl, ha]
  simp only [ho, true_and]
  rw [hhome] at hdb hc ⊢
  exact ⟨hdb, hc⟩

theorem openStore_current (hv : db.version = schemaVersion)
    (hj : (Home.file place).hasJournal = true) : (w.openStore i).2 = .ok () ∧
      (w.openStore i).1.files.database place = .ok db ∧
      (w.openStore i).1.committed? i = some db :=
  openStore_prepared ha hd hs hl (prepare_current i s.path a (database_of_approach ha hd) hv hj)

/-- What a script comes to in which one statement or another meets the obstacle of an opening. -/
theorem openStore_behind (hv : db.version < schemaVersion) {plan : SchemaStatement → Option Fault}
    (hp : schemaScript.findSome? plan = v.openingObstacle i a (.file place)) :
    let r := Draft.run plan ⟨db, none⟩ schemaScript
    (w.openStore i).1.files.database place = .ok r.2.committed ∧
      (r.1 = none → (w.openStore i).2 = .ok () ∧
        (w.openStore i).1.committed? i = some r.2.committed ∧ r.2.committed = db.upgraded) ∧
      ∀ fault, r.1 = some fault →
        (w.openStore i).2 = .error (.store (.schema s.path fault)) ∧ r.2.committed = db := by
  intro r
  have hd' := database_of_approach ha hd
  have hprep := prepare_behind i s.path a hd' hv
  have hstopped : r.1 = schemaScript.findSome? plan := Draft.fault_of_run schemaScript
  rw [← hp, applySchema_eq_run s.path plan hv] at hprep
  cases hr : r.1 with
  | some fault =>
    have hc : r.2.committed = db := Draft.committed_of_stopped hr
    have herr : v.prepare i s.path a (.file place) = .error (.store (.schema s.path fault)) := by
      rw [hprep]
      simp only [show Draft.run plan ⟨db, none⟩ schemaScript = (some fault, r.2) from Prod.ext hr rfl]
    rw [openStore_eq hs hl, ha]
    simp only [openHome_error herr, hc]
    exact ⟨hd', by simp, fun fault' hf => ⟨by rw [Option.some.inj hf], trivial⟩⟩
  | none =>
    have hc : r.2 = ⟨db.upgraded, none⟩ := Draft.committed_of_done (hstopped.symm.trans hr)
    have hok : v.prepare i s.path a (.file place) =
        .ok (r.2.committed, [.schemaApplied s.path db.version]) := by
      rw [hprep]
      simp only [show Draft.run plan ⟨db, none⟩ schemaScript = (none, r.2) from Prod.ext hr rfl]
    obtain ⟨hres, hfile, hcom⟩ := openStore_prepared ha hd hs hl hok
    exact ⟨hfile, fun _ => ⟨hres, hcom, by rw [hc]⟩, fun fault hf => by cases hf⟩

end

/-! ## Runs on an open store -/

def bearing? (w : World) (i : Nat) : Option (List Point × Bool × Home × Bool × Bool) :=
  w.stores[i]?.bind Store.bearing?

section
variable {w : World} {i : Nat}

theorem bearing?_setStore {s : Store} (hs : w.stores[i]? = some s) (s' : Store) :
    (w.setStore i s').bearing? i = s'.bearing? := by
  unfold bearing?
  rw [getElem?_setStore w i hs, if_pos rfl]
  rfl

theorem bearing?_takeNotes (w : World) (i : Nat) (notes : List Note) :
    (w.takeNotes i notes).bearing? i = w.bearing? i := by
  unfold takeNotes
  induction notes generalizing w with
  | nil => rfl
  | cons n notes ih =>
    refine (ih (takeNote i w n)).trans ?_
    cases n with
    | event e => rfl
    | count name =>
      simp only [takeNote]
      split
      · rename_i s hs
        rw [bearing?_setStore hs, bearing?, hs]
        rfl
      · rfl

theorem bearing?_putBack {s : Store} {link : Link} (hs : w.stores[i]? = some s)
    (hl : s.link = some link) (c : Connection) : (w.putBack i s link c).bearing? i = w.bearing? i := by
  have hs' : (w.keep link.home c.committed).1.stores[i]? = some s := by
    rw [(keep_stores w link.home c.committed).1, hs]
  have hm := keep_mark w link.home c.committed
  unfold putBack
  simp only
  rw [bearing?_setStore hs', bearing?, hs]
  simp [Store.bearing?, hl, hm]

theorem bearing?_turn (t : Turn) : (w.turn i t).1.bearing? i = w.bearing? i := by
  have hr : (w.refusing i t.refusals).bearing? i = w.bearing? i := by
    unfold refusing
    split
    · rfl
    · rename_i s hs
      rw [bearing?_setStore hs, bearing?, hs]
      cases h : s.link <;> simp [Store.bearing?, h]
  refine Eq.trans ?_ hr
  have hn : ∀ (w : World) failure,
      (w.callUnlinked i t.call.operation failure).1.bearing? i = w.bearing? i := by
    intro w failure
    unfold callUnlinked
    split
    · rfl
    · exact bearing?_takeNotes w i _
  unfold turn call
  split
  · exact hn _ _
  · rename_i s hs
    split
    · exact hn _ _
    · rename_i link hl
      exact (bearing?_takeNotes _ i _).trans (bearing?_putBack hs hl _)

theorem bearing?_run (turns : List Turn) : (w.run i turns).bearing? i = w.bearing? i := by
  induction turns generalizing w with
  | nil => rfl
  | cons t turns ih => exact ih.trans (bearing?_turn t)

end

end World

theorem Call.keeps_version (call : Call) (n : Int) :
    call.operation.Keeps fun db => db.version = n := fun _ _ _ hv hs =>
  call.regular.stops (fun _ _ _ _ _ hv hrun => (Database.run_members hrun).1.trans hv) hs hv

namespace World

theorem has_run {w : World} {i : Nat} {h : Handle} (hh : w.handle? i = some h) {I : Database → Prop}
    (hI : ∀ call : Call, call.operation.Keeps I) (hc : h.connection.Has I) (turns : List Turn) :
    ∃ h', (w.run i turns).handle? i = some h' ∧ h'.connection.Has I := by
  induction turns generalizing w h with
  | nil => exact ⟨h, hh, hc⟩
  | cons t turns ih =>
    have hr := handle_refusing hh t.refusals
    have hc' : ({ h.connection with refusals := t.refusals } : Connection).Has I := ⟨hc.1, hc.2⟩
    exact ih (handle_call hr t.call.operation).2 (Handle.has_perform (hI t.call) hc')

/-! ## Closing and opening again -/

section
variable {w : World} {t : Store} {place : Path} {db : Database} {bytes : List UInt8} {a : Address}
  (hr : w.files.reach t.path = .ok place) (hn : w.files.node? place = some (.database db))
  (hb : Files.bytesOf t.path = .ok bytes) (ha : Address.ofBytes bytes = .ok a)
  (hkeep : a.keeping = .file bytes) (hshares : a.shares = false)

include hr hn hb ha hkeep hshares

theorem approach_standing : ∃ files, w.files.Grows files ∧
    w.approach t = ({ w with files := files }, .ok (a, .file place)) := by
  have hmade := Files.makeFolders_standing hr
  have hgrows := w.files.grows_makeFolders true (Path.folderText t.path)
  generalize hm : w.files.makeFolders true (Path.folderText t.path) = made at hmade hgrows
  obtain ⟨files, obstacle⟩ := made
  obtain rfl : obstacle = none := hmade
  refine ⟨files, hgrows, ?_⟩
  have hn' := hgrows.node hn
  have hr' := hgrows.reach hr
  have hne : place ≠ [] := by
    rintro rfl
    cases hn
  have hplace : files.databasePlace? bytes = some place :=
    Files.databasePlace?_of_reach hr' (by simp [hn']) hb
  have hopen : files.openDatabase a place = .ok files :=
    Files.openDatabase_standing (Files.folder_of_reach hr' hne) hn' a
  have hhome : ({ w with files := files } : World).homeOf a =
      ({ w with files := files }, .ok (.file place)) := by
    simp only [homeOf, hkeep, hplace, hopen]
  rw [approach_eq hm hb ha, hhome]
  simp only [granted_of_alone _ hshares]

end

theorem around_linked {w u : World} {i : Nat} {t closed : Store} {link : Link} {place : Path}
    {a : Address} {db : Database} (ht : w.stores[i]? = some t)
    (hst : u.stores = (w.setStore i closed).stores) (hlock : u.locked = w.locked)
    (hhome : link.home = .file place) (hmay : link.mayWrite = a.mayWrite)
    (hshare : link.shares = a.shares) (hd : w.database (.file place) = .ok db)
    (hd' : u.database (.file place) = .ok db) (hk : (Home.file place).keeps = true)
    (log : List Event) :
    let v := { (u.keep (.file place) db).1.setStore i (linked closed (.file place) a) with log := log }
    (v.connection i (.new (.file place) a)).around = (w.connection i link).around := by
  intro v
  have hkept := keep_stores u (.file place) db
  have hclosed : (w.setStore i closed).stores[i]? = some closed :=
    (getElem?_setStore w i ht closed i).trans (if_pos rfl)
  have hbeside : v.linksBeside i (.file place) = w.linksBeside i (.file place) := by
    have hv : v.stores = ((w.setStore i closed).setStore i (linked closed (.file place) a)).stores := by
      change (u.keep (.file place) db).1.stores.set i _ = _
      rw [hkept.1, hst]
      rfl
    rw [linksBeside_congr hv i fun _ => rfl, linksBeside_setStore hclosed (.inl rfl),
      linksBeside_setStore ht (.inl rfl)]
  have hlocked : v.isLocked (.file place) = w.isLocked (.file place) := by
    change (u.keep (.file place) db).1.locked.contains place = _
    rw [hkept.2, hlock]
    rfl
  have hdb : v.database (.file place) = .ok db := by
    have hput := database_keep u hk hd' db
    rwa [(keep_home u (.file place) db).resolve_right (by simp)] at hput
  refine connection_congr (hhome ▸ hd) hdb ?_ ?_ hmay.symm hshare.symm
  · rw [hhome]
    exact hbeside
  · rw [hhome]
    exact hlocked

theorem reopened {w : World} {i : Nat} {t : Store} {link : Link} {place : Path} {h : Handle}
    {bytes : List UInt8} {a : Address} (ht : w.stores[i]? = some t) (hl : t.link = some link)
    (hout : t.entered = false) (hhome : link.home = .file place) (hr : w.files.reach t.path = .ok place)
    (hb : Files.bytesOf t.path = .ok bytes) (ha : Address.ofBytes bytes = .ok a)
    (hkeep : a.keeping = .file bytes) (hshares : a.shares = false)
    (hmay : link.mayWrite = a.mayWrite) (hshare : link.shares = a.shares)
    (hj : (Home.file place).hasJournal = true) (hh : w.handle? i = some h)
    (hv : h.connection.committed.version = schemaVersion) :
    ((w.closeStore i).openStore i).2 = .ok () ∧
      ((w.closeStore i).openStore i).1.JustOpened i h.connection := by
  obtain ⟨t', link', db, ht', hl', hd, hk, rfl⟩ := handle?_eq_some.mp hh
  obtain rfl : t = t' := Option.some.inj (ht.symm.trans ht')
  obtain rfl : link = link' := Option.some.inj (hl.symm.trans hl')
  have hc : (w.connection i link).committed = db := by simp [connection, hd, Except.toOption]
  rw [hhome] at hd hk
  simp only [hc] at hv
  have hn : w.files.node? place = some (.database db) :=
    Files.node?_of_database hd fun he => by
      rw [he] at hv
      cases hv
  let closed : Store := { t with link := none }
  have hisOpen : t.isOpen = true := by simp [Store.isOpen, hl]
  have hgone : w.closeStore i = ((w.setStore i closed).report (.storeClosed t.path)).tidy := by
    simp [closeStore, ht, hisOpen, closed]
  have hst : (w.closeStore i).stores = (w.setStore i closed).stores := by rw [hgone]; rfl
  have hclosed : (w.closeStore i).stores[i]? = some closed := by
    rw [hst]
    exact (getElem?_setStore w i ht closed i).trans (if_pos rfl)
  -- The way leads to the same database again, and there is nothing to be done about its schema.
  obtain ⟨u, hus, hul, happ⟩ : ∃ u : World, u.stores = (w.setStore i closed).stores ∧
      u.locked = w.locked ∧ (w.closeStore i).approach closed = (u, .ok (a, .file place)) := by
    obtain ⟨files, -, happ⟩ := approach_standing (w := w.closeStore i) (t := closed)
      (by rw [hgone]; exact hr) (by rw [hgone]; exact hn) hb ha hkeep hshares
    exact ⟨{ w.closeStore i with files := files }, hst, by rw [hgone]; rfl, happ⟩
  have hud := database_of_approach happ (by rw [hgone]; exact hd)
  have hui : u.stores[i]? = some closed := by rw [hus, ← hst, hclosed]
  obtain ⟨log, hopened⟩ :=
    openHome_ok (s := closed) (prepare_current i t.path a hud hv hj)
  obtain ⟨-, -, hh', hcom⟩ := handle_linked hui hk hud db a log
  have haround := around_linked ht hus hul hhome hmay hshare hd hud hk log
  rw [(keep_home u (.file place) db).resolve_right (by simp)] at hopened hh' hcom
  rw [committed?_of_handle hh', Option.some.injEq] at hcom
  have hopen : (w.closeStore i).openStore i = u.openHome i closed a (.file place) := by
    rw [openStore_eq hclosed rfl, happ]
  rw [hopen, hopened]
  refine ⟨rfl, w.closeStore i, closed, _, hclosed, rfl, hout, hopen.trans hopened, hh', ?_, haround⟩
  exact hcom.trans hc.symm

section
variable {w : World} {i : Nat} {s : Store} (hs : w.stores[i]? = some s) (hl : s.link = none)
  (hplain : Path.IsPlain s.path) (ho : (w.openStore i).2 = .ok ())

include hs hl hplain ho

theorem opened_plain : ∃ (bytes : List UInt8) (home : Home) (h : Handle),
    Files.bytesOf s.path = .ok bytes ∧ Address.ofBytes bytes = .ok (.plain bytes) ∧
    home.hasJournal = true ∧
    (∀ place, home = .file place → (Address.plain bytes).keeping = .file bytes) ∧
    (w.openStore i).1.bearing? i = some (s.path, s.entered, home.mark, true, false) ∧
    (w.openStore i).1.handle? i = some h ∧ h.entered = s.entered ∧
    h.connection.committed.version = schemaVersion ∧ h.connection.working = none := by
  obtain ⟨v, a, home, db, events, log, happ, hk, hp, hopened⟩ := openStore_ok hs hl ho
  obtain ⟨bytes, address, u, hb, haddr, hof, ha⟩ := approach_ok happ
  obtain ⟨hj, found, hd, -, hv⟩ := prepare_ok hp
  have happroached := approached w s
  rw [happ] at happroached
  have hnot := hplain bytes hb
  obtain rfl : Address.plain bytes = address := by simpa [Address.ofBytes, hnot] using haddr
  obtain rfl : a = .plain bytes := ha.trans (granted_of_alone v rfl home)
  obtain ⟨hat, -, hh, hcom⟩ :=
    handle_linked (happroached.stores ▸ hs) hk hd db (Address.plain bytes) log
  rw [committed?_of_handle hh, Option.some.injEq] at hcom
  rw [hopened]
  refine ⟨bytes, home, _, hb, haddr, hj, fun place hplace => ?_, ?_, hh, rfl,
    by rw [hcom]; exact hv, rfl⟩
  · subst hplace
    unfold Address.plain at hof ⊢
    by_cases halone : (bytes.isEmpty || decide (bytes = Address.memoryWord)) = true
    · simp only [homeOf, if_pos halone] at hof
      cases hof
    · simp only [if_neg halone]
  · unfold bearing?
    simp only
    rw [hat]
    simp [Store.bearing?, linked, Link.new, keep_mark, Address.plain, Address.mayWrite]

variable (hout : s.entered = false) {turns : List Turn} {place : Path}
  (hhome : ((w.openStore i).1.run i turns).home? i = some (.file place))
  (hr : ((w.openStore i).1.run i turns).files.reach s.path = .ok place)

include hout hhome hr

theorem like_reopened : ∃ h, ((w.openStore i).1.run i turns).handle? i = some h ∧
    h.entered = false ∧
    (h.connection.working.isSome → ∃ t ∈ turns, .rollback ∈ t.refusals.map (·.verb)) ∧
    ((((w.openStore i).1.run i turns).closeStore i).openStore i).2 = .ok () ∧
    ((((w.openStore i).1.run i turns).closeStore i).openStore i).1.Like i h.connection.anew := by
  obtain ⟨bytes, home, h₀, hb, haddr, hj, hkeep, hbear, hh₀, he₀, hv, hw⟩ :=
    opened_plain hs hl hplain ho
  obtain ⟨h, hh, he, hleft⟩ := run_leaves hh₀ (he₀.trans hout) turns
  obtain ⟨h', hh', hhas⟩ := has_run hh₀ (fun call => call.keeps_version schemaVersion)
    ⟨hv, fun db hdb => by rw [hw] at hdb; cases hdb⟩ turns
  obtain rfl : h = h' := Option.some.inj (hh.symm.trans hh')
  rw [← bearing?_run turns] at hbear
  generalize (w.openStore i).1.run i turns = v at *
  obtain ⟨t, link, hst, hlink, hsame⟩ : ∃ t link, v.stores[i]? = some t ∧ t.link = some link ∧
      (t.path, t.entered, link.home.mark, link.mayWrite, link.shares) =
        (s.path, s.entered, home.mark, true, false) := by
    simpa [bearing?, Store.bearing?, Option.bind_eq_some_iff, Option.map_eq_some_iff] using hbear
  simp only [Prod.mk.injEq] at hsame
  obtain ⟨hpath, hentered, hmark, hmay, hshare⟩ := hsame
  have hlinkHome : link.home = .file place := by simpa [home?, hst, hlink] using hhome
  obtain rfl : home = .file place := by
    rw [hlinkHome] at hmark
    cases home <;> simp_all [Home.mark]
  obtain ⟨hok, hjust⟩ := reopened hst hlink (hentered.trans hout) hlinkHome (hpath ▸ hr) (hpath ▸ hb)
    haddr (hkeep place rfl) rfl hmay hshare hj hh hhas.committed
  refine ⟨h, hh, he, fun hopen => ?_, hok, hjust.like⟩
  exact (hleft hopen).resolve_left (by simp [hw])

end

theorem answers_of_like {v v' : World} {i : Nat} {h : Handle} (hh : v.handle? i = some h)
    (hout : h.entered = false) (hl : v'.Like i h.connection.anew) {call : Call} {reply : Reply}
    (hr : (v.turn i (.quiet call)).2 = .ok reply) : (v'.turn i (.quiet call)).2 = .ok reply := by
  have hbare : v.Like i h.connection := ⟨h, hh, hout, rfl⟩
  rw [(hbare.turn call).1] at hr
  rw [(hl.turn call).1]
  cases hw : h.connection.working with
  | none =>
    have hsame : h.connection.anew.bare = h.connection.bare := by
      simp [Connection.anew, Connection.bare, hw]
    rw [hsame, hr]
  -- On a connection with a transaction that was left open no call gets an answer.
  | some db =>
    cases hn : call.operation.refusal with
    | some failure => simp [Connection.transact, hn] at hr
    | none =>
      have hopen : h.connection.bare.working.isSome := by simp [Connection.bare, hw]
      rw [(Connection.transact_leftover rfl hopen hn).1] at hr
      cases hr

end World

end PubSub
