import PubSub.Proofs.Bodies
import PubSub.Proofs.Runs

/-!
# Stores that are opened again

A store leads to the file that its path names, as often as it is opened. What it finds
there is what was committed when it was closed (`openStore_opened`): folders that are made
on the way stand in for nothing, and the schema is there already.
-/

namespace PubSub

open Text (Point)

/-! ## Files that are left alone -/

namespace Files

theorem node?_put_of_missing {files : Files} {path p : Path} {n : Node} (hm : files.node? path = none)
    (hp : files.node? p = some n) (node : Node) : (files.put path node).node? p = some n := by
  have hne : p ≠ path := fun he => by
    rw [he, hm] at hp
    cases hp
  unfold node? at hp ⊢
  rwa [lookup_put_of_ne files hne]

section
variable {files files' : Files} {p : Path} {n : Node} (hp : files.node? p = some n)

include hp

theorem makeOne_node {text : List Point} (h : files.makeOne text = .ok files') :
    files'.node? p = some n := by
  simp only [makeOne, bind, Except.bind, pure, Except.pure, throw, throwThe, MonadExceptOf.throw] at h
  split at h
  · cases h
  · split at h
    · cases h
    · split at h
      · cases h
      · split at h
        · cases h
        · rename_i hm
          cases h
          exact node?_put_of_missing (by simpa using hm) hp _

theorem makeLast_node (mayStand : Bool) (text : List Point) :
    (files.makeLast mayStand text).1.node? p = some n := by
  unfold makeLast
  split
  · rename_i h
    exact makeOne_node hp h
  · split <;> exact hp

theorem makeAll_node (mayStand : Bool) (fuel : Nat) (text : List Point) :
    (files.makeAll mayStand fuel text).1.node? p = some n := by
  induction fuel generalizing text with
  | zero => exact hp
  | succ fuel ih =>
    have hhead := ih (Path.splitLast text).1
    unfold makeAll
    simp only
    split
    · exact makeLast_node hp mayStand text
    · split
      · rename_i heq
        rw [heq] at hhead
        split
        · exact hhead
        · exact makeLast_node hhead mayStand text
      · rename_i heq
        rw [heq] at hhead
        split
        · exact hhead
        · exact makeLast_node hhead mayStand text
      · rename_i heq
        rwa [heq] at hhead

theorem makeFolders_node (mayStand : Bool) (text : List Point) :
    (files.makeFolders mayStand text).1.node? p = some n :=
  makeAll_node hp mayStand _ text

theorem openDatabase_node {a : Address} {path : Path} (h : files.openDatabase a path = .ok files') :
    files'.node? p = some n := by
  unfold openDatabase at h
  split at h
  · rename_i hm
    split at h
    · cases h
      exact node?_put_of_missing hm hp _
    · cases h
  · cases h
  · cases h
    exact hp
  · cases h
    exact hp
  · cases h

end

theorem settle?_eq {files : Files} {names path place : Path}
    (h : files.settle? path names = some place) :
    place = names.foldl Path.step path := by
  induction names generalizing path with
  | nil => exact (Option.some.inj h).symm
  | cons name rest ih =>
    unfold settle? at h
    simp only at h
    split at h
    · exact ih h
    · cases h

theorem node?_of_database {files : Files} {path : Path} {db : Database}
    (h : files.database path = .ok db) (hb : db ≠ .blank) : files.node? path = some (.database db) := by
  unfold database at h
  split at h
  · rename_i hn
    cases h
    exact hn
  · split at h
    · cases h
      exact absurd rfl hb
    · cases h
  · cases h
    exact absurd rfl hb

end Files

/-! ## The place that a text names -/

/-- The place of the database file that a text names, whatever stands there. -/
def Path.ofText? (text : List Point) : Option Path :=
  match Files.bytesOf text with
  | .error _ => none
  | .ok bytes =>
    match Address.ofBytes bytes with
    | .error _ => none
    | .ok a =>
      match a.keeping with
      | .file name => some ((Path.names name).foldl Path.step (Path.origin name))
      | _ => none

theorem Path.ofText?_eq_some {text : List Point} {place : Path} (h : Path.ofText? text = some place) :
    ∃ bytes a name, Files.bytesOf text = .ok bytes ∧ Address.ofBytes bytes = .ok a ∧
      a.keeping = .file name ∧ (Path.names name).foldl Path.step (Path.origin name) = place := by
  unfold Path.ofText? at h
  split at h
  · cases h
  · rename_i bytes hbytes
    split at h
    · cases h
    · rename_i a ha
      split at h
      · rename_i name hkeep
        exact ⟨bytes, a, name, hbytes, ha, hkeep, Option.some.inj h⟩
      · cases h

namespace World

def face? (w : World) (i : Nat) : Option (List Point × Bool) :=
  w.stores[i]?.map fun s => (s.path, s.entered)

def place? (w : World) (i : Nat) : Option Path := (w.face? i).bind fun face => Path.ofText? face.1

section
variable {w : World} {i : Nat} {s : Store}

theorem face?_setStore (hs : w.stores[i]? = some s) (s' : Store) (hp : s'.path = s.path) (k : Nat) :
    (w.setStore i s').face? k =
      if k = i then (w.face? k).map fun face => (face.1, s'.entered) else w.face? k := by
  unfold face?
  rw [getElem?_setStore w i hs]
  split
  · rename_i hk
    rw [hk, hs, Option.map_some, Option.map_some, Option.map_some, hp]
  · rfl

theorem face?_setStore_same (hs : w.stores[i]? = some s) (s' : Store) (hp : s'.path = s.path)
    (he : s'.entered = s.entered) (k : Nat) : (w.setStore i s').face? k = w.face? k := by
  rw [face?_setStore hs s' hp]
  split
  · rename_i hk
    subst hk
    simp [face?, hs, he]
  · rfl

theorem face?_takeNotes (w : World) (i : Nat) (notes : List Note) (k : Nat) :
    (w.takeNotes i notes).face? k = w.face? k := by
  unfold takeNotes
  induction notes generalizing w with
  | nil => rfl
  | cons n notes ih =>
    refine (ih (takeNote i w n)).trans ?_
    cases n with
    | event e => rfl
    | count name =>
      simp only [takeNote]
      split
      · rename_i s hs
        exact face?_setStore_same hs { s with metrics := s.metrics.add name 1 } rfl rfl k
      · rfl

theorem face?_setEntered (w : World) (i : Nat) (entered : Bool) (k : Nat) :
    (w.setEntered i entered).face? k =
      if k = i then (w.face? k).map fun face => (face.1, entered) else w.face? k := by
  unfold setEntered
  split
  · rename_i s hs
    exact face?_setStore hs { s with entered := entered } rfl k
  · rename_i hs
    split
    · rename_i hk
      subst hk
      simp [face?, hs]
    · rfl

theorem face?_putBack (hs : w.stores[i]? = some s) (link : Link) (c : Connection) (k : Nat) :
    (w.putBack i s link c).face? k = w.face? k := by
  have hst := (keep_stores w link.home c.committed).1
  have hs' : (w.keep link.home c.committed).1.stores[i]? = some s := by rw [hst, hs]
  have hsame : (w.keep link.home c.committed).1.face? k = w.face? k := by
    unfold face?
    rw [hst]
  exact (face?_setStore_same hs' _ (by rfl) (by rfl) k).trans hsame

theorem face?_call {α : Type} (w : World) (i : Nat) (op : Operation α) (k : Nat) :
    (w.call i op).1.face? k = w.face? k := by
  have hn : ∀ failure, (w.callUnlinked i op failure).1.face? k = w.face? k := by
    intro failure
    unfold callUnlinked
    split
    · rfl
    · exact face?_takeNotes w i _ k
  unfold call
  split
  · exact hn _
  · rename_i s hs
    split
    · exact hn _
    · exact (face?_takeNotes _ i _ k).trans (face?_putBack hs _ _ k)

theorem face?_refusing (w : World) (i : Nat) (refusals : List Refusal) (k : Nat) :
    (w.refusing i refusals).face? k = w.face? k := by
  unfold refusing
  split
  · rfl
  · rename_i s hs
    exact face?_setStore_same hs _ (by rfl) (by rfl) k

theorem face?_enter {w w' : World} {i : Nat} {result : Except Failure Entry}
    (h : w.enter i = (w', result)) (k : Nat) :
    w'.face? k = match result with
      | .ok (.outermost _) => if k = i then (w.face? k).map fun face => (face.1, true) else w.face? k
      | _ => w.face? k := by
  unfold enter at h
  split at h
  · cases h
    rfl
  · rename_i s hs
    split at h
    · cases h
      rfl
    · split at h
      · cases h
        rfl
      · split at h
        · cases h
          simp only [face?_setEntered, face?_putBack hs]
        · cases h
          simp only [face?_takeNotes, face?_putBack hs]

theorem entered_of_enter {w w' : World} {i opening : Nat}
    (h : w.enter i = (w', .ok (.outermost opening))) : (w.face? i).map (·.2) = some false := by
  unfold enter at h
  split at h
  · cases h
  · rename_i s hs
    split at h
    · cases h
    · rename_i he
      simpa [face?, hs] using he

theorem face?_leave (w : World) (i : Nat) (entry : Entry) (outcome : Option Failure) (k : Nat) :
    (w.leave i entry outcome).1.face? k = match entry with
      | .outermost _ => if k = i then (w.face? k).map fun face => (face.1, false) else w.face? k
      | .joined => w.face? k := by
  unfold leave
  split
  · rfl
  · refine Eq.trans ?_ (face?_setEntered w i false k)
    generalize w.setEntered i false = w
    simp only
    split
    · rfl
    · rename_i s hs
      split
      · rfl
      · split
        · rfl
        · exact (face?_takeNotes _ i _ k).trans (face?_putBack hs _ _ k)

theorem face?_block (w : World) (i : Nat) {body : World → Trace} {k : Nat}
    (hbody : ∀ w₁ : World, (body w₁).world.face? k = w₁.face? k) :
    (w.block i body).world.face? k = w.face? k := by
  unfold block
  split
  · rename_i w₁ failure heq
    exact face?_enter heq k
  · rename_i w₁ entry heq
    have hin := face?_enter heq k
    refine (face?_leave _ i entry _ k).trans ?_
    cases entry with
    | joined => exact (hbody w₁).trans hin
    | outermost opening =>
      simp only at hin ⊢
      rw [hbody w₁, hin]
      split
      · rename_i hk
        subst hk
        have hout := entered_of_enter heq
        cases hf : w.face? k with
        | none => rfl
        | some face =>
          simp only [hf, Option.map_some, Option.some.injEq] at hout
          simp [← hout]
      · rfl

theorem face?_follow (w : World) (body : Body) (k : Nat) :
    (w.follow body).world.face? k = w.face? k := by
  induction body generalizing w with
  | done => rfl
  | abort failure => rfl
  | call on call next ih => exact (ih _ _).trans (face?_call w on call.operation k)
  | block on inner next ihInner ihNext =>
    exact (ihNext _ _).trans (face?_block w on fun w₁ => ihInner w₁)

end

/-! ## Closing and opening -/

/-- A store that is open on the file that its path names. -/
structure Filed (w : World) (i : Nat) (place : Path) : Prop where
  named : w.place? i = some place
  home : w.home? i = some (.file place)

/-- What comes of opening a store whose file holds a database: it is open on that or it stays closed,
and nothing happens to the file and to other stores. -/
structure Opened (w w' : World) (i : Nat) (place : Path) (db : Database)
    (result : Except Failure Unit) : Prop where
  file : w'.files.node? place = some (.database db)
  others : ∀ k, k ≠ i → w'.stores[k]? = w.stores[k]?
  face : w'.face? i = w.face? i
  store : (∃ failure, result = .error failure) ∧ w'.home? i = w.home? i ∨
    result = .ok () ∧ ∃ s link, w'.stores[i]? = some s ∧ s.link = some link ∧
      link.home = .file place ∧ link.working = none

section
variable {w w' : World} {i : Nat} {place : Path} {db : Database} {h : Handle}

theorem database_of_filed (hf : w.Filed i place) (hh : w.handle? i = some h) :
    w.files.database place = .ok h.connection.committed ∧ (Home.file place).keeps = true := by
  obtain ⟨s, link, db, hs, hl, hd, hk, rfl⟩ := handle?_eq_some.mp hh
  have hhome : link.home = .file place := by simpa [home?, hs, hl] using hf.home
  rw [hhome] at hd hk
  have hc : (w.connection i link).committed = db := by
    simp [connection, hhome, hd, Except.toOption]
  exact ⟨hd.trans (congrArg Except.ok hc.symm), hk⟩

theorem homeOf_stores (w : World) (a : Address) : (w.homeOf a).1.stores = w.stores := by
  unfold homeOf
  split
  · rfl
  · split <;> rfl
  · split
    · rfl
    · split <;> rfl

theorem homeOf_node {p : Path} {n : Node} (hp : w.files.node? p = some n) (a : Address) :
    (w.homeOf a).1.files.node? p = some n := by
  unfold homeOf
  split
  · exact hp
  · split <;> exact hp
  · split
    · exact hp
    · split
      · exact hp
      · rename_i h
        exact Files.openDatabase_node hp h

theorem applySchema_current {path : List Point} {obstacle : Option Fault}
    (hv : db.version = schemaVersion) : applySchema path obstacle db = .ok (db, []) := by
  simp [applySchema, hv]

theorem opened_of_error (hst : w'.stores = w.stores)
    (hfile : w'.files.node? place = some (.database db)) (failure : Failure) :
    Opened w w' i place db (.error failure) where
  file := hfile
  others k _ := by rw [hst]
  face := by rw [face?, hst, ← face?]
  store := .inl ⟨⟨failure, rfl⟩, by rw [home?, hst, ← home?]⟩

theorem openHome_opened {s : Store} (hs : w.stores[i]? = some s)
    (hfile : w.files.node? place = some (.database db)) (hv : db.version = schemaVersion)
    (hk : (Home.file place).keeps = true) (a : Address) :
    Opened w (w.openHome i s a (.file place)).1 i place db (w.openHome i s a (.file place)).2 := by
  have hd : w.database (.file place) = .ok db := by
    change w.files.database place = .ok db
    unfold Files.database
    rw [hfile]
  have hd' : (w.keep (.file place) db).1.files.node? place = some (.database db) := by
    simp only [keep, show w.files.database place = .ok db from hd]
    unfold Files.node?
    simp only [Home.keeps, ne_eq, decide_not, Bool.and_eq_true, Bool.not_eq_true',
      decide_eq_false_iff_not] at hk
    rw [if_neg (by simp [hk]), Files.lookup_put_self]
  have hkeep : (w.keep (.file place) db).2 = .file place := (keep_home w _ db).resolve_right (by simp)
  have hst := (keep_stores w (.file place) db).1
  unfold openHome
  cases hprep : w.prepare i s.path a (.file place) with
  | error failure => exact opened_of_error (show w.tidy.stores = w.stores from rfl) hfile failure
  | ok prepared =>
    have hsame : prepared = (db, []) := by
      unfold prepare at hprep
      simp only [hd, applySchema_current hv] at hprep
      split at hprep
      · cases hprep
      · exact (Except.ok.inj hprep).symm
    subst hsame
    simp only [List.foldl_nil]
    generalize w.keep (.file place) db = p at hkeep hd' hst
    obtain ⟨w', home'⟩ := p
    simp only at hkeep hd' hst ⊢
    subst hkeep
    let s' : Store := { s with link := some (.new (.file place) a), openings := s.openings + 1 }
    have hs' : w'.stores[i]? = some s := by rw [hst, hs]
    have hat : (w'.setStore i s').stores[i]? = some s' := by
      rw [getElem?_setStore w' i hs', if_pos rfl]
    refine ⟨hd', fun k hne => ?_, ?_, .inr ⟨rfl, s', .new (.file place) a, hat, rfl, rfl, rfl⟩⟩
    · refine (getElem?_setStore w' i hs' s' k).trans ?_
      rw [if_neg hne, hst]
    · refine (face?_setStore_same hs' s' rfl rfl i).trans ?_
      rw [face?, hst, ← face?]

theorem home_of_homeOf {a : Address} {name : List UInt8} {home : Home} (ha : a.keeping = .file name)
    (h : w.homeOf a = (w', .ok home)) :
    home = .file ((Path.names name).foldl Path.step (Path.origin name)) := by
  unfold homeOf at h
  simp only [ha] at h
  split at h
  · cases h
  · rename_i place' hplace
    split at h
    · cases h
    · cases h
      rw [Files.settle?_eq hplace]

theorem Opened.of_stores {w₀ : World} {result : Except Failure Unit} (ho : Opened w w' i place db result)
    (hst : w.stores = w₀.stores) : Opened w₀ w' i place db result where
  file := ho.file
  others k hne := (ho.others k hne).trans (by rw [hst])
  face := by rw [ho.face, face?, hst, ← face?]
  store := by
    have hhome : w.home? i = w₀.home? i := by rw [home?, hst, ← home?]
    exact hhome ▸ ho.store

theorem openStore_opened (hp : w.place? i = some place) (hn : w.home? i = none)
    (hfile : w.files.node? place = some (.database db)) (hv : db.version = schemaVersion)
    (hk : (Home.file place).keeps = true) :
    Opened w (w.openStore i).1 i place db (w.openStore i).2 := by
  obtain ⟨s, hs, hname⟩ : ∃ s, w.stores[i]? = some s ∧ Path.ofText? s.path = some place := by
    unfold place? face? at hp
    cases hs : w.stores[i]? with
    | none => simp [hs] at hp
    | some s => exact ⟨s, rfl, by simpa [hs] using hp⟩
  have hopen : s.isOpen = false := by
    have hl : s.link = none := by simpa [home?, hs] using hn
    simp [Store.isOpen, hl]
  obtain ⟨bytes, a, name, hbytes, ha, hkeep, rfl⟩ := Path.ofText?_eq_some hname
  unfold openStore
  simp only [hs, hopen, Bool.false_eq_true, if_false, openClosed, hbytes]
  -- The folders of the file are made, and nothing stands at its place but the database.
  have hmade := Files.makeFolders_node hfile true (Path.folderText s.path)
  generalize w.files.makeFolders true (Path.folderText s.path) = p at hmade
  obtain ⟨files, obstacle⟩ := p
  simp only at hmade ⊢
  have hst₁ : ({ w with files := files } : World).stores = w.stores := rfl
  have hfile₁ : ({ w with files := files } : World).files.node? _ = some (.database db) := hmade
  generalize ({ w with files := files } : World) = w₁ at hst₁ hfile₁
  cases obstacle with
  | some obstacle => exact opened_of_error hst₁ hfile₁ _
  | none =>
    have hst₂ := (homeOf_stores w₁ a).trans hst₁
    have hfile₂ := homeOf_node hfile₁ a
    simp only [ha, openAddress]
    cases hhome : w₁.homeOf a with
    | mk w₂ result =>
      rw [hhome] at hst₂ hfile₂
      cases result with
      | error fault => exact opened_of_error hst₂ hfile₂ _
      | ok home =>
        obtain rfl := home_of_homeOf hkeep hhome
        exact (openHome_opened (hst₂ ▸ hs) hfile₂ hv hk _).of_stores hst₂

theorem handle_of_opened (ho : Opened w w' i place db (.ok ()))
    (hk : (Home.file place).keeps = true) :
    w'.home? i = some (.file place) ∧ ∃ h, w'.handle? i = some h ∧ h.connection.committed = db ∧
      h.connection.working = none := by
  obtain ⟨⟨failure, hf⟩, -⟩ | ⟨-, s, link, hs, hl, hhome, hw⟩ := ho.store
  · cases hf
  · have hd : w'.database link.home = .ok db := by
      rw [hhome]
      change w'.files.database place = .ok db
      unfold Files.database
      rw [ho.file]
    refine ⟨by simp [home?, hs, hl, hhome], ⟨s.openings, s.entered, w'.connection i link⟩, ?_, ?_, hw⟩
    · exact handle?_eq_some.mpr ⟨s, link, db, hs, hl, hd, hhome ▸ hk, rfl⟩
    · simp [connection, hd, Except.toOption]

theorem handle_beside {k : Nat} (hst : w'.stores[k]? = w.stores[k]?)
    (hd : ∀ home, w.home? k = some home → w'.database home = w.database home) {d : Handle}
    (hh : w.handle? k = some d) : ∃ d', w'.handle? k = some d' ∧ d.Alike d' ∧
      d'.connection.committed = d.connection.committed := by
  obtain ⟨s, link, db, hs, hl, hd₀, hk, rfl⟩ := handle?_eq_some.mp hh
  have hd' := hd link.home (by simp [home?, hs, hl])
  refine ⟨_, handle?_eq_some.mpr ⟨s, link, db, hst.trans hs, hl, hd'.trans hd₀, hk, rfl⟩,
    ⟨rfl, rfl, rfl, rfl⟩, ?_⟩
  simp [connection, hd']

end

end World

end PubSub
