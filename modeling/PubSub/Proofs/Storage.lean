import PubSub.World

/-!
# Homes of databases

A database that is put back at its home is found there again, and a database at
another home is not touched by that. A folder is no home that keeps anything.
-/

namespace PubSub

namespace Files

theorem lookup_put_self (files : Files) (path : Path) (node : Node) :
    (files.put path node).lookup path = some node := by
  induction files with
  | nil => simp [put]
  | cons entry rest ih =>
    obtain ⟨p, n⟩ := entry
    simp only [put]
    split
    · rename_i h
      subst h
      simp
    · rename_i h
      rw [List.lookup_cons, beq_eq_false_iff_ne.mpr (Ne.symm h)]
      exact ih

theorem lookup_put_of_ne (files : Files) {path other : Path} (h : other ≠ path) (node : Node) :
    (files.put path node).lookup other = files.lookup other := by
  induction files with
  | nil => simp [put, h]
  | cons entry rest ih =>
    obtain ⟨p, n⟩ := entry
    simp only [put]
    split
    · rename_i hp
      subst hp
      simp [List.lookup_cons, beq_eq_false_iff_ne.mpr h]
    · simp only [List.lookup_cons, ih]

theorem database_put_self (files : Files) {path : Path} (h : path ≠ [] ∧ path ≠ Path.top)
    (db : Database) : (files.put path (.database db)).database path = .ok db := by
  have hn : ¬(path = [] ∨ path = Path.top) := fun hp => hp.elim h.1 h.2
  unfold database node?
  rw [if_neg hn, lookup_put_self]

theorem database_put_of_ne (files : Files) {path other : Path} (h : other ≠ path) (node : Node) :
    (files.put path node).database other = files.database other := by
  unfold database node?
  rw [lookup_put_of_ne files h]

end Files

/-- Whether a home holds what is put there. -/
def Home.keeps : Home → Bool
  | .file place => place ≠ [] && place ≠ Path.top
  | _ => true

theorem Home.meets_own (home : Home) (db : Database) : home.meets (.own db) = false := by
  cases home <;> rfl

theorem Home.meets_comm (a b : Home) : a.meets b = b.meets a := by
  cases a <;> cases b <;> simp [Home.meets, eq_comm]

theorem Home.eq_of_meets {a b : Home} (h : a.meets b = true) : a = b := by
  cases a <;> cases b <;> simp_all [Home.meets]

/-- What of a home does not change with its database. -/
def Home.mark : Home → Home
  | .own _ => .own .blank
  | home => home

theorem Home.meets_mark (a b : Home) : a.mark.meets b.mark = a.meets b := by
  cases a <;> cases b <;> rfl

namespace World

theorem keep_home (w : World) (home : Home) (db : Database) :
    (w.keep home db).2 = home ∨ ∃ old, home = .own old ∧ (w.keep home db).2 = .own db := by
  cases home with
  | own old => exact .inr ⟨old, rfl, rfl⟩
  | common name => exact .inl rfl
  | file place =>
    refine .inl ?_
    simp only [keep]
    split <;> rfl

theorem keep_mark (w : World) (home : Home) (db : Database) :
    (w.keep home db).2.mark = home.mark := by
  rcases keep_home w home db with h | ⟨old, h, h'⟩
  · rw [h]
  · rw [h', h]
    rfl

theorem keep_stores (w : World) (home : Home) (db : Database) :
    (w.keep home db).1.stores = w.stores ∧ (w.keep home db).1.locked = w.locked := by
  cases home with
  | own old => exact ⟨rfl, rfl⟩
  | common name => exact ⟨rfl, rfl⟩
  | file place =>
    simp only [keep]
    split <;> exact ⟨rfl, rfl⟩

theorem keep_meets (w : World) (home other : Home) (db : Database) :
    other.meets (w.keep home db).2 = other.meets home := by
  rcases keep_home w home db with h | ⟨old, h, h'⟩
  · rw [h]
  · rw [h', h, Home.meets_own, Home.meets_own]

theorem keep_isLocked (w : World) (home : Home) (db : Database) :
    (w.keep home db).1.isLocked (w.keep home db).2 = w.isLocked home := by
  rcases keep_home w home db with h | ⟨old, h, h'⟩
  · rw [h]
    unfold isLocked
    rw [(keep_stores w home db).2]
  · rw [h', h]
    rfl

theorem keep_keeps (w : World) (home : Home) (db : Database) :
    (w.keep home db).2.keeps = home.keeps := by
  rcases keep_home w home db with h | ⟨old, h, h'⟩
  · rw [h]
  · rw [h', h]
    rfl

theorem database_keep (w : World) {home : Home} (hk : home.keeps = true) {old : Database}
    (h : w.database home = .ok old) (db : Database) :
    (w.keep home db).1.database (w.keep home db).2 = .ok db := by
  cases home with
  | own d => rfl
  | common name => simp [keep, database]
  | file place =>
    simp only [database] at h
    simp only [keep, h, database]
    simp only [Home.keeps, ne_eq, decide_not, Bool.and_eq_true, Bool.not_eq_true',
      decide_eq_false_iff_not] at hk
    exact Files.database_put_self _ hk db

theorem lookup_filter_ne {β : Type} {name other : List UInt8} (h : other ≠ name) :
    ∀ l : List (List UInt8 × β), (l.filter fun (n, _) => n ≠ name).lookup other = l.lookup other
  | [] => rfl
  | (n, b) :: l => by
    rw [List.filter_cons, List.lookup_cons]
    by_cases hn : n = name
    · subst hn
      simpa [beq_eq_false_iff_ne.mpr h] using lookup_filter_ne h l
    · simp only [hn, ne_eq, not_false_eq_true, decide_true, if_true, List.lookup_cons]
      rw [lookup_filter_ne h l]

theorem database_keep_of_apart (w : World) {home other : Home} (h : other.meets home = false)
    (db : Database) : (w.keep home db).1.database other = w.database other := by
  cases home with
  | own d => rfl
  | common name =>
    cases other with
    | own d => rfl
    | common name' =>
      have hn : name' ≠ name := by simpa [Home.meets] using h
      simp only [keep, database, List.lookup_cons, beq_eq_false_iff_ne.mpr hn]
      rw [lookup_filter_ne hn]
    | file place => rfl
  | file place =>
    simp only [keep]
    split
    · cases other with
      | own d => rfl
      | common name => rfl
      | file place' =>
        have hp : place' ≠ place := by simpa [Home.meets] using h
        exact Files.database_put_of_ne _ hp _
    · rfl

theorem database_keep_ok (w : World) (home : Home) {other : Home} (hk : other.keeps = true)
    {old : Database} (h : w.database other = .ok old) (db : Database) :
    ∃ db', (w.keep home db).1.database other = .ok db' := by
  cases hm : other.meets home with
  | false => exact ⟨old, (database_keep_of_apart w hm db).trans h⟩
  | true =>
    obtain rfl : other = home := Home.eq_of_meets hm
    have hd := database_keep w hk h db
    rcases keep_home w other db with he | ⟨d, rfl, -⟩
    · rw [he] at hd
      exact ⟨db, hd⟩
    · exact ⟨d, rfl⟩

/-! ## Stores on different databases -/

def home? (w : World) (i : Nat) : Option Home := (w.stores[i]?.bind (·.link)).map (·.home)

/-- Two stores that are not open on one database. -/
def Apart (w : World) (i k : Nat) : Prop :=
  i ≠ k ∧ ∀ a ∈ w.home? i, ∀ b ∈ w.home? k, a.meets b = false

def Settled (w w' : World) : Prop := ∀ k, (w'.home? k).map Home.mark = (w.home? k).map Home.mark

theorem Settled.refl (w : World) : w.Settled w := fun _ => rfl

theorem Settled.symm {w w' : World} (h : w.Settled w') : w'.Settled w := fun k => (h k).symm

theorem Settled.trans {w w' w'' : World} (h : w.Settled w') (h' : w'.Settled w'') : w.Settled w'' :=
  fun k => (h' k).trans (h k)

theorem Apart.symm {w : World} {i k : Nat} (h : w.Apart i k) : w.Apart k i :=
  ⟨h.1.symm, fun b hb a ha => (Home.meets_comm b a).trans (h.2 a ha b hb)⟩

theorem Settled.apart {w w' : World} (h : w.Settled w') {i k : Nat} (ha : w.Apart i k) :
    w'.Apart i k := by
  refine ⟨ha.1, fun a hi b hk => ?_⟩
  obtain ⟨a', hi', he⟩ : ∃ a', w.home? i = some a' ∧ a'.mark = a.mark := by
    have := h i
    rw [hi] at this
    exact Option.map_eq_some_iff.mp this.symm
  obtain ⟨b', hk', he'⟩ : ∃ b', w.home? k = some b' ∧ b'.mark = b.mark := by
    have := h k
    rw [hk] at this
    exact Option.map_eq_some_iff.mp this.symm
  rw [← Home.meets_mark, ← he, ← he', Home.meets_mark]
  exact ha.2 a' hi' b' hk'

theorem getElem?_setStore (w : World) (i : Nat) {s : Store} (hs : w.stores[i]? = some s)
    (s' : Store) (k : Nat) :
    (w.setStore i s').stores[k]? = if k = i then some s' else w.stores[k]? := by
  unfold setStore
  simp only [List.getElem?_set]
  by_cases h : k = i
  · subst h
    simp [(List.getElem?_eq_some_iff.mp hs).1]
  · simp [h, Ne.symm h]

theorem settled_setStore {w : World} {i : Nat} {s s' : Store} (hs : w.stores[i]? = some s)
    (h : s'.link.map (·.home.mark) = s.link.map (·.home.mark)) : w.Settled (w.setStore i s') := by
  intro k
  unfold home?
  rw [getElem?_setStore w i hs]
  split
  · rename_i hk
    subst hk
    rw [hs]
    simpa [Function.comp_def] using h
  · rfl

theorem settled_takeNote (w : World) (i : Nat) (n : Note) : w.Settled (takeNote i w n) := by
  cases n with
  | event e => exact .refl w
  | count name =>
    simp only [takeNote]
    split
    · rename_i s hs
      exact settled_setStore hs rfl
    · exact .refl w

theorem settled_takeNotes (w : World) (i : Nat) (notes : List Note) :
    w.Settled (w.takeNotes i notes) := by
  unfold takeNotes
  induction notes generalizing w with
  | nil => exact .refl w
  | cons n notes ih => exact (settled_takeNote w i n).trans (ih (takeNote i w n))

theorem settled_setEntered (w : World) (i : Nat) (entered : Bool) :
    w.Settled (w.setEntered i entered) := by
  unfold setEntered
  split
  · rename_i s hs
    exact settled_setStore hs rfl
  · exact .refl w

theorem settled_putBack {w : World} {i : Nat} {s : Store} {link : Link}
    (hs : w.stores[i]? = some s) (hl : s.link = some link) (c : Connection) :
    w.Settled (w.putBack i s link c) := by
  have hst := (keep_stores w link.home c.committed).1
  have hkeep : w.Settled (w.keep link.home c.committed).1 := by
    intro k
    simp only [home?, hst]
  refine hkeep.trans (settled_setStore (s := s) (by rw [hst, hs]) ?_)
  simp only [hl, Option.map_some]
  exact congrArg some (keep_mark w link.home c.committed)

theorem settled_callUnlinked {α : Type} (w : World) (i : Nat) (op : Operation α)
    (failure : Failure) : w.Settled (w.callUnlinked i op failure).1 := by
  unfold callUnlinked
  split
  · exact .refl w
  · exact settled_takeNotes w i _

theorem settled_call {α : Type} (w : World) (i : Nat) (op : Operation α) :
    w.Settled (w.call i op).1 := by
  unfold call
  split
  · exact settled_callUnlinked w i op _
  · rename_i s hs
    split
    · exact settled_callUnlinked w i op _
    · rename_i link hl
      exact (settled_putBack hs hl _).trans (settled_takeNotes _ i _)

theorem settled_enter (w : World) (i : Nat) : w.Settled (w.enter i).1 := by
  unfold enter
  split
  · exact .refl w
  · rename_i s hs
    split
    · exact .refl w
    · split
      · exact .refl w
      · rename_i link hl
        split
        · exact (settled_putBack hs hl _).trans (settled_setEntered _ i true)
        · exact (settled_putBack hs hl _).trans (settled_takeNotes _ i _)

theorem settled_leave (w : World) (i : Nat) (entry : Entry) (outcome : Option Failure) :
    w.Settled (w.leave i entry outcome).1 := by
  unfold leave
  split
  · exact .refl w
  · refine (settled_setEntered w i false).trans ?_
    generalize w.setEntered i false = w
    simp only
    split
    · exact .refl w
    · rename_i s hs
      split
      · exact .refl w
      · rename_i link hl
        split
        · exact .refl w
        · exact (settled_putBack hs hl _).trans (settled_takeNotes _ i _)

end World

end PubSub
