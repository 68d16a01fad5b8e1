import PubSub.Proofs.Blocks
import PubSub.Proofs.Neighbours

/-!
# Fleets

Stores of one world, each with tasks of its own, whose steps come in any order. A `Fleet`
remembers what was committed, and from where. Stores of one database take turns (`InTurn`),
which every step keeps, of whichever task of whichever store. So what is committed is what
comes of the transactions one after another, each as if it were alone (`Serial`), as long as
they end by COMMIT or ROLLBACK only (`Fleet.Keeps`).
-/

namespace PubSub

variable {α : Type}

/-! ## Several stores with tasks -/

/-- The tasks of one store, without its connection. -/
structure Crew (α : Type) where
  holder : Option TaskName
  owner : Option TaskName
  threads : Pool (Thread α)
  deeds : List (TaskName × Deed)

def Crew.start (main : Routine α) : Crew α := ⟨none, none, .first main.start, []⟩

def Crew.on (crew : Crew α) (c : Connection) : Machine α :=
  ⟨c, crew.holder, crew.owner, crew.threads, crew.deeds⟩

def Machine.crew (m : Machine α) : Crew α := ⟨m.holder, m.owner, m.threads, m.deeds⟩

/-- What was committed on a store by a task of it: a transaction, or a write outside of any. -/
inductive Commit (α : Type) where
  | whole (store : Nat) (task : TaskName) (b : Beginning α)
  | stray (store : Nat) (task : TaskName) (w : Write)

namespace Commit

def store : Commit α → Nat
  | .whole i _ _ | .stray i _ _ => i

def IsWhole : Commit α → Prop
  | .whole .. => True
  | .stray .. => False

end Commit

/-- What a step commits. The transaction that ends is the one that began last on its store. -/
def Act.commits (e : Act α) (i : Nat) (k : TaskName) (b : Option (Beginning α)) :
    List (Commit α) :=
  match e with
  | .committed => b.toList.map (.whole i k)
  | .strayed w => [.stray i k w]
  | _ => []

structure Fleet (α : Type) where
  world : World
  crews : Nat → Crew α
  /-- For each store the transaction that began last. -/
  latest : Nat → Option (Beginning α)
  commits : List (Commit α)

namespace Fleet

def start (w : World) (tasks : Nat → Routine α) : Fleet α :=
  ⟨w, fun i => .start (tasks i), fun _ => none, []⟩

def go (f : Fleet α) (i : Nat) (k : TaskName) (s : Store) (link : Link) : Fleet α :=
  let m := (f.crews i).on (f.world.connection i link)
  { world := f.world.putBack i s link (m.step k).connection
    crews := Function.update f.crews i (m.step k).crew
    latest := Function.update f.latest i ((m.act k).latest m.connection (f.latest i))
    commits := f.commits ++ (m.act k).commits i k (f.latest i) }

def step (f : Fleet α) (i : Nat) (k : TaskName) : Fleet α :=
  match f.world.stores[i]? with
  | none => f
  | some s =>
    match s.link with
    | none => f
    | some link => f.go i k s link

def run (f : Fleet α) (schedule : List (Nat × TaskName)) : Fleet α :=
  schedule.foldl (fun f turn => f.step turn.1 turn.2) f

def commitsOn (f : Fleet α) (G : Nat → Bool) : List (Commit α) :=
  f.commits.filter fun c => G c.store

def Drops (f : Fleet α) (i : Nat) (k : TaskName) : Prop :=
  ∃ h, f.world.handle? i = some h ∧ ((f.crews i).on h.connection).Drops k

/-- Along the schedule, only COMMIT and ROLLBACK end a transaction of the stores in `G`. -/
def Keeps (f : Fleet α) (G : Nat → Bool) : (schedule : List (Nat × TaskName)) → Prop
  | [] => True
  | turn :: rest => (G turn.1 = true → ¬f.Drops turn.1 turn.2) ∧ (f.step turn.1 turn.2).Keeps G rest

end Fleet

/-- What is committed comes of one call or block after another. Each begins on the database that
the one before has left, and leaves what it leaves by itself. -/
inductive Serial (start : Database) : List (Commit α) → Database → Prop where
  | start : Serial start [] start
  | whole {commits : List (Commit α)} {b : Beginning α} (i : Nat) (k : TaskName)
    (hb : ∃ r : Routine α, r.Opens b.thread) (h : Serial start commits b.connection.committed) :
    Serial start (commits ++ [.whole i k b]) b.outcome
  | stray {commits : List (Commit α)} {db db' : Database} {w : Write} {rows : Nat} (i : Nat)
    (k : TaskName) (h : Serial start commits db) (hrun : w.run db = .ok (rows, db')) :
    Serial start (commits ++ [.stray i k w]) db'

/-! ## Acts next to other connections -/

namespace Acted

variable {c c' : Connection} {b : Option (Beginning α)} {dropped : Prop} {e : Act α}

theorem opens (h : Acted c c' b dropped e) (hw' : c'.working ≠ none) :
    c.working ≠ none ∨ c.blocked = none := by
  cases h with
  | quiet _ hw => exact .inl (hw hw')
  | began _ hfree => exact .inr hfree
  | committed _ _ _ _ _ _ hn => exact absurd hn hw'
  | strayed _ _ hn => exact absurd hn hw'

theorem changes (h : Acted c c' b dropped e) (hr : c.mayWrite = false → c.Has (· = c.committed))
    (hc : c'.committed ≠ c.committed) :
    c.mayWrite = true ∧ c.observed = false ∧ (c.working ≠ none ∨ c.blocked = none) := by
  cases h with
  | quiet hu => exact absurd hu.committed hc
  | began hu => exact absurd hu.committed hc
  | committed _ _ _ _ _ hw _ ho =>
    cases hm : c.mayWrite with
    | false => exact absurd ((hr hm).working _ hw) hc
    | true =>
      refine ⟨rfl, ho hm, .inl ?_⟩
      rw [hw]
      simp
  | strayed _ _ _ hm hb ho => exact ⟨hm, ho, .inr hb⟩

theorem serial (h : Acted c c' b dropped e) {start : Database} {commits : List (Commit α)}
    (hs : Serial start commits c.committed) (i : Nat) (k : TaskName) :
    Serial start (commits ++ e.commits i k b) c'.committed := by
  cases h with
  | quiet hu =>
    rw [hu.committed]
    simpa [Act.commits] using hs
  | began hu =>
    rw [hu.committed]
    simpa [Act.commits] using hs
  | committed hb hopens hbegan hout =>
    subst hb
    rw [hout]
    exact .whole i k hopens (hbegan ▸ hs)
  | strayed hrun => exact .stray i k hs hrun

theorem whole (h : Acted c c' b dropped e) (hd : ¬dropped) (i : Nat) (k : TaskName) :
    ∀ commit ∈ e.commits i k b, commit.IsWhole := by
  intro commit hmem
  cases h with
  | quiet => cases hmem
  | began => cases hmem
  | committed hb =>
    subst hb
    obtain rfl := List.mem_singleton.mp hmem
    trivial
  | strayed _ _ _ _ _ _ hlost => exact absurd hlost hd

end Acted

namespace Machine

variable {crew : Crew α} {c c' : Connection} {b : Option (Beginning α)} {room : Nat}
  {dropped : Prop}

theorem tracked_start (hw : c.working = none) (main : Routine α) :
    ((Crew.start main).on c).Tracked b c.committed.lastMember dropped := by
  have hnone : ∀ {I : Database → Prop}, I c.committed → c.Has I := by
    intro I hI
    refine ⟨hI, fun db hdb => ?_⟩
    rw [hw] at hdb
    cases hdb
  refine ⟨orderly_start c main, regular_start c main, hnone (Nat.le_refl _), fun _ => hnone rfl, ?_⟩
  intro k n t hh
  cases hh

theorem Tracked.beside (h : (crew.on c).Tracked b room dropped)
    (ha : c'.alone = { c.alone with committed := c'.committed })
    (hc : c'.committed = c.committed ∨ c.working = none)
    (hroom : c'.committed.lastMember ≤ room + 1) : (crew.on c').Tracked b (room + 1) dropped := by
  have hw : c'.alone.working = c.working := by rw [ha]; rfl
  have hmay : c'.alone.mayWrite = c.mayWrite := by rw [ha]; rfl
  have ho := h.orderly
  refine ⟨⟨ho.owner, ho.present, ho.phase, ho.between, ho.fresh⟩,
    ⟨h.regular.outside, h.regular.holding⟩, ⟨hroom, fun db hdb => ?_⟩,
    fun hm => ⟨rfl, fun db hdb => ?_⟩, fun k n t hh hk hcloses => ?_⟩
  · exact Nat.le_succ_of_le (h.numbers.working db (hw.symm.trans hdb))
  · have hopen : c.working = some db := hw.symm.trans hdb
    rcases hc with hc | hc
    · exact ((h.reads (hmay.symm.trans hm)).working db hopen).trans hc.symm
    · rw [hc] at hopen
      cases hopen
  · cases h.ends k n t hh hk hcloses with
    | leaves hl => exact .leaves hl
    | lost hn hd => exact .lost (hw.trans hn) hd
    | tracks hb ht =>
      rcases hc with hc | hc
      · have hsame : c'.alone = c.alone := by
          rw [ha, hc]
          rfl
        have hout := ht.outcome
        rw [show (crew.on c).connection.alone = c'.alone from hsame.symm] at hout
        exact .tracks hb
          ⟨ht.opens, fun hn => ht.working (hw.symm.trans hn), ht.committed.trans hc.symm, hout⟩
      · exact absurd hc ht.working

end Machine

/-! ## Taking turns -/

namespace Fleet

variable {f f' : Fleet α} {G : Nat → Bool} {start : Database} {room : Nat} {dropped dropped' : Prop}
  {i : Nat} {k : TaskName}

theorem step_of_link {s : Store} {link : Link} (hs : f.world.stores[i]? = some s)
    (hl : s.link = some link) (k : TaskName) : f.step i k = f.go i k s link := by
  simp only [step, hs, hl]

theorem commits_store (e : Act α) (i : Nat) (k : TaskName) (b : Option (Beginning α)) :
    ∀ c ∈ e.commits i k b, c.store = i := by
  intro c hc
  cases e with
  | quiet => cases hc
  | began t => cases hc
  | strayed w =>
    obtain rfl := List.mem_singleton.mp hc
    rfl
  | committed =>
    obtain ⟨b₀, -, rfl⟩ := List.mem_map.mp hc
    rfl

theorem commitsOn_go (f : Fleet α) (G : Nat → Bool) (i : Nat) (k : TaskName) (s : Store)
    (link : Link) :
    (f.go i k s link).commitsOn G = f.commitsOn G ++
      if G i then
        (((f.crews i).on (f.world.connection i link)).act k).commits i k (f.latest i)
      else [] := by
  unfold commitsOn go
  simp only [List.filter_append]
  congr 1
  split
  · rename_i hi
    refine List.filter_eq_self.mpr fun c hc => ?_
    rw [commits_store _ _ _ _ c hc, hi]
  · rename_i hi
    refine List.filter_eq_nil_iff.mpr fun c hc => ?_
    rw [commits_store _ _ _ _ c hc]
    exact hi

structure InTurn (f : Fleet α) (G : Nat → Bool) (start : Database) (room : Nat) (dropped : Prop) :
    Prop where
  company : World.Company f.world G fun _ => false
  tracked : ∀ i h, G i = true → f.world.handle? i = some h →
    ((f.crews i).on h.connection).Tracked (f.latest i) room dropped
  /-- At most one of the connections that may write has a transaction. -/
  single : ∀ i l h h', G i = true → G l = true → i ≠ l → f.world.handle? i = some h →
    f.world.handle? l = some h' → h.connection.mayWrite = true → h'.connection.mayWrite = true →
    h.connection.working ≠ none → h'.connection.working = none
  serial : ∀ i h, G i = true → f.world.handle? i = some h →
    Serial start (f.commitsOn G) h.connection.committed
  whole : ¬dropped → ∀ c ∈ f.commitsOn G, c.IsWhole

theorem InTurn.mono (hf : f.InTurn G start room dropped) (hd : dropped → dropped') :
    f.InTurn G start room dropped' :=
  ⟨hf.company, fun i h hi hh => (hf.tracked i h hi hh).mono hd, hf.single, hf.serial,
    fun hn => hf.whole (hn ∘ hd)⟩

theorem inTurn_start {w : World} {tasks : Nat → Routine α} {start : Database}
    (hc : World.Company w G fun _ => false)
    (hidle : ∀ i h, G i = true → w.handle? i = some h →
      h.connection.working = none ∧ h.connection.committed = start) :
    (Fleet.start w tasks).InTurn G start start.lastMember dropped where
  company := hc
  tracked i h hi hh := by
    obtain ⟨hw, rfl⟩ := hidle i h hi hh
    exact Machine.tracked_start hw (tasks i)
  single i l h h' hi _ _ hh _ _ _ hw := absurd (hidle i h hi hh).1 hw
  serial i h hi hh := by
    rw [(hidle i h hi hh).2]
    exact .start
  whole _ _ hc := by cases hc

theorem InTurn.elsewhere (hf : f.InTurn G start room dropped) (hset : f.world.Settled f'.world)
    (hh : ∀ l, G l = true → f'.world.handle? l = f.world.handle? l)
    (hcrew : ∀ l, G l = true → f'.crews l = f.crews l ∧ f'.latest l = f.latest l)
    (hc : f'.commitsOn G = f.commitsOn G) : f'.InTurn G start (room + 1) dropped where
  company := hf.company.after hset _ fun l hl h hhl =>
    ⟨h, (hh l hl).trans hhl, hf.company.entered hl hhl⟩
  tracked l h hl hhl := by
    rw [hh l hl] at hhl
    rw [(hcrew l hl).1, (hcrew l hl).2]
    have ht := hf.tracked l h hl hhl
    exact ht.beside rfl (.inl rfl) (Nat.le_succ_of_le ht.numbers.committed)
  single i l h h' hi hl hne hhi hhl := by
    rw [hh i hi] at hhi
    rw [hh l hl] at hhl
    exact hf.single i l h h' hi hl hne hhi hhl
  serial l h hl hhl := by
    rw [hh l hl] at hhl
    rw [hc]
    exact hf.serial l h hl hhl
  whole hd := by
    rw [hc]
    exact hf.whole hd

theorem InTurn.step_apart (hf : f.InTurn G start room dropped) (hi : G i = false) (k : TaskName) :
    (f.step i k).InTurn G start (room + 1) dropped := by
  have hne : ∀ l, G l = true → l ≠ i := by
    rintro l hl rfl
    rw [hi] at hl
    cases hl
  have hsame : f.InTurn G start (room + 1) dropped :=
    hf.elsewhere (.refl _) (fun _ _ => rfl) (fun _ _ => ⟨rfl, rfl⟩) rfl
  unfold step
  split
  · exact hsame
  · rename_i s hs
    split
    · exact hsame
    · rename_i link hl
      refine hf.elsewhere (World.settled_putBack hs hl _) (fun l hGl => ?_) (fun l hGl => ?_) ?_
      · exact World.handle_putBack_of_apart hs hl (hf.company.apart i l hi hGl) _
      · exact ⟨Function.update_of_ne (hne l hGl) .., Function.update_of_ne (hne l hGl) ..⟩
      · simp [commitsOn_go, hi]

theorem InTurn.alone (hf : f.InTurn G start room dropped) {l : Nat} {h h' : Handle} (hi : G i = true)
    (hl : G l = true) (hne : i ≠ l) (hh : f.world.handle? i = some h)
    (hh' : f.world.handle? l = some h') (hm : h.connection.mayWrite = true)
    (ho : h.connection.observed = false)
    (hfree : h.connection.working ≠ none ∨ h.connection.blocked = none) :
    h'.connection.working = none := by
  by_contra hn
  have hmeets := hf.company.meets i l hi hl
  cases hm' : h'.connection.mayWrite with
  | false =>
    have := World.observed_of_reading hmeets hh hh' hne hm' hn
    rw [ho] at this
    cases this
  | true =>
    rcases hfree with hw | hb
    · exact hn (hf.single i l h h' hi hl hne hh hh' hm hm' hw)
    · exact World.blocked_of_writing hmeets hh hh' hne hm hm' hn hb

/-- A step on the `i`-th of the stores, as all of them see it. -/
structure Stepped (f f' : Fleet α) (G : Nat → Bool) (i : Nat) (h : Handle) (c : Connection) : Prop where
  before : f.world.handle? i = some h
  own : f'.world.handle? i = some ⟨h.opening, h.entered, c⟩
  others : ∀ l h', G l = true → l ≠ i → f'.world.handle? l = some h' →
    ∃ h₀, f.world.handle? l = some h₀ ∧ h₀.Alike h' ∧
      h'.connection.alone = { h₀.connection.alone with committed := h'.connection.committed }
  company : World.Company f'.world G fun _ => false

theorem InTurn.stepped (hf : f.InTurn G start room dropped) (hi : G i = true) {s : Store} {link : Link}
    {db : Database} (hs : f.world.stores[i]? = some s) (hl : s.link = some link)
    (hd : f.world.database link.home = .ok db) (hkeeps : link.home.keeps = true) {c : Connection}
    (hc : c.around = (f.world.connection i link).around)
    (hw : f'.world = f.world.putBack i s link c) :
    f.Stepped f' G i ⟨s.openings, s.entered, f.world.connection i link⟩ c := by
  have hbefore : f.world.handle? i = some ⟨s.openings, s.entered, f.world.connection i link⟩ :=
    World.handle?_eq_some.mpr ⟨s, link, db, hs, hl, hd, hkeeps, rfl⟩
  have hown : f'.world.handle? i = some ⟨s.openings, s.entered, c⟩ := by
    rw [hw]
    exact World.handle_putBack hs hd hkeeps hc
  have hothers : ∀ l h₀, l ≠ i → f.world.handle? l = some h₀ →
      ∃ h', f'.world.handle? l = some h' ∧ h₀.Alike h' ∧
        h'.connection.alone = { h₀.connection.alone with committed := h'.connection.committed } := by
    intro l h₀ hne hh
    rw [hw]
    exact World.alone_putBack hs hne hh
  refine ⟨hbefore, hown, fun l h' hGl hne hh' => ?_, hf.company.after ?_ _ fun l hGl h₀ hh => ?_⟩
  · obtain ⟨h₀, hh, -⟩ := hf.company.handle l hGl
    obtain ⟨h'', hh'', halike, halone⟩ := hothers l h₀ hne hh
    obtain rfl : h' = h'' := Option.some.inj (hh'.symm.trans hh'')
    exact ⟨h₀, hh, halike, halone⟩
  · rw [hw]
    exact World.settled_putBack hs hl c
  · have hent := hf.company.entered hGl hh
    by_cases hne : l = i
    · subst hne
      obtain rfl := Option.some.inj (hbefore.symm.trans hh)
      exact ⟨_, hown, hent⟩
    · obtain ⟨h', hh', halike, -⟩ := hothers l h₀ hne hh
      exact ⟨h', hh', halike.entered.trans hent⟩

section
variable {h : Handle} {c : Connection} {b : Option (Beginning α)} {e : Act α}
  (hf : f.InTurn G start room dropped) (hi : G i = true) (hst : f.Stepped f' G i h c)

include hi hst

theorem Stepped.committed {l : Nat} {h' : Handle} (hl : G l = true)
    (hh' : f'.world.handle? l = some h') : h'.connection.committed = c.committed :=
  World.committed_eq_of_meets (hst.company.meets l i hl hi) hh' hst.own

variable (hact : Acted h.connection c b dropped e)

include hf hact

theorem Stepped.clear (hm : c.mayWrite = true) (hw : c.working ≠ none) {l : Nat} {h₀ : Handle}
    (hl : G l = true) (hne : i ≠ l) (hh₀ : f.world.handle? l = some h₀)
    (hm₀ : h₀.connection.mayWrite = true) : h₀.connection.working = none := by
  have hmay : h.connection.mayWrite = true := (congrArg (·.2.2) hact.around).symm.trans hm
  rcases hact.opens hw with hopen | hfree
  · exact hf.single i l h h₀ hi hl hne hst.before hh₀ hmay hm₀ hopen
  · by_contra hn
    have hmeets := hf.company.meets i l hi hl
    exact World.blocked_of_writing hmeets hst.before hh₀ hne hmay hm₀ hn hfree

theorem Stepped.single {l₁ l₂ : Nat} {h₁ h₂ : Handle} (hl₁ : G l₁ = true) (hl₂ : G l₂ = true)
    (hne : l₁ ≠ l₂) (hh₁ : f'.world.handle? l₁ = some h₁) (hh₂ : f'.world.handle? l₂ = some h₂)
    (hm₁ : h₁.connection.mayWrite = true) (hm₂ : h₂.connection.mayWrite = true)
    (hw₁ : h₁.connection.working ≠ none) : h₂.connection.working = none := by
  by_cases hi₁ : l₁ = i
  · subst hi₁
    obtain rfl := Option.some.inj (hst.own.symm.trans hh₁)
    obtain ⟨h₀, hh₀, halike, -⟩ := hst.others l₂ h₂ hl₂ hne.symm hh₂
    rw [halike.working]
    exact hst.clear hf hi hact hm₁ hw₁ hl₂ hne hh₀ (halike.mayWrite.symm.trans hm₂)
  · obtain ⟨h₀, hh₀, halike, -⟩ := hst.others l₁ h₁ hl₁ hi₁ hh₁
    rw [halike.working] at hw₁
    rw [halike.mayWrite] at hm₁
    by_cases hi₂ : l₂ = i
    · subst hi₂
      obtain rfl := Option.some.inj (hst.own.symm.trans hh₂)
      by_contra hn
      exact hw₁ (hst.clear hf hi hact hm₂ hn hl₁ hne.symm hh₀ hm₁)
    · obtain ⟨h₀', hh₀', halike', -⟩ := hst.others l₂ h₂ hl₂ hi₂ hh₂
      rw [halike'.mayWrite] at hm₂
      rw [halike'.working]
      exact hf.single l₁ l₂ h₀ h₀' hl₁ hl₂ hne hh₀ hh₀' hm₁ hm₂ hw₁

theorem Stepped.tracked (hr : h.connection.mayWrite = false →
      h.connection.Has (· = h.connection.committed))
    (hroom : c.committed.lastMember ≤ room + 1) {l : Nat} {h' : Handle} (hl : G l = true)
    (hne : l ≠ i) (hh' : f'.world.handle? l = some h') :
    ((f.crews l).on h'.connection).Tracked (f.latest l) (room + 1) dropped := by
  obtain ⟨h₀, hh₀, -, halone⟩ := hst.others l h' hl hne hh'
  have hsame := World.committed_eq_of_meets (hf.company.meets l i hl hi) hh₀ hst.before
  have hcommitted := hst.committed hi hl hh'
  apply (hf.tracked l h₀ hl hh₀).beside halone
  · -- A change is committed only while no other store is inside a transaction.
    rw [hcommitted]
    by_cases hc : c.committed = h.connection.committed
    · exact .inl (hc.trans hsame.symm)
    · obtain ⟨hmay, hobs, hfree⟩ := hact.changes hr hc
      exact .inr (hf.alone hi hl hne.symm hst.before hh₀ hmay hobs hfree)
  · rwa [hcommitted]

end

theorem InTurn.step_own (hf : f.InTurn G start room dropped) (hi : G i = true) (k : TaskName) :
    (f.step i k).InTurn G start (room + 1) (dropped ∨ f.Drops i k) := by
  obtain ⟨h, hh, -⟩ := hf.company.handle i hi
  obtain ⟨s, link, db, hs, hl, hd, hkeeps, rfl⟩ := World.handle?_eq_some.mp hh
  have hm := hf.tracked i _ hi hh
  have hm' := hm.step k
  obtain ⟨hact, -⟩ := hm.acts k
  rw [step_of_link hs hl]
  have hst : f.Stepped (f.go i k s link) G i _ _ := hf.stepped hi hs hl hd hkeeps hact.around rfl
  refine ⟨hst.company, fun l h' hGl hh' => ?_, fun l₁ l₂ h₁ h₂ hl₁ hl₂ => ?_,
    fun l h' hGl hh' => ?_, fun hkeeps commit hmem => ?_⟩
  · unfold go
    by_cases hne : l = i
    · subst hne
      obtain rfl := Option.some.inj (hst.own.symm.trans hh')
      simp only [Function.update_self]
      exact hm'.mono (Or.imp_right fun hdrops => ⟨_, hh, hdrops⟩)
    · simp only [Function.update_of_ne hne]
      exact (hst.tracked hf hi hact hm.reads hm'.numbers.committed hGl hne hh').mono .inl
  · exact hst.single hf hi hact hl₁ hl₂
  · rw [hst.committed hi hGl hh', commitsOn_go, if_pos hi]
    exact hact.serial (hf.serial i _ hi hh) i k
  · rw [commitsOn_go, if_pos hi, List.mem_append] at hmem
    have hd := fun hdropped => hkeeps (.inl hdropped)
    rcases hmem with hmem | hmem
    · exact hf.whole hd commit hmem
    · exact hact.whole hd i k commit hmem

theorem InTurn.step (hf : f.InTurn G start room dropped) (i : Nat) (k : TaskName) :
    (f.step i k).InTurn G start (room + 1) (dropped ∨ (G i = true ∧ f.Drops i k)) := by
  cases hi : G i with
  | true => exact (hf.step_own hi k).mono (Or.imp_right fun hdrops => ⟨rfl, hdrops⟩)
  | false => exact (hf.step_apart hi k).mono .inl

theorem InTurn.run (hf : f.InTurn G start room dropped) (schedule : List (Nat × TaskName)) :
    (f.run schedule).InTurn G start (room + schedule.length) (dropped ∨ ¬f.Keeps G schedule) := by
  induction schedule generalizing f room dropped with
  | nil => exact hf.mono .inl
  | cons turn schedule ih =>
    rw [List.length_cons, ← Nat.add_assoc, Nat.add_right_comm]
    refine (ih (hf.step turn.1 turn.2)).mono ?_
    rintro ((hd | ⟨hi, hdrops⟩) | hrest)
    · exact .inl hd
    · exact .inr fun hkeeps => hkeeps.1 hi hdrops
    · exact .inr fun hkeeps => hrest hkeeps.2

/-- SQLite ends a transaction by itself only where the numbers of the memberships run out. -/
theorem InTurn.keeps (hf : f.InTurn G start room dropped) (schedule : List (Nat × TaskName))
    (hroom : room + schedule.length < Database.lastId) : f.Keeps G schedule := by
  induction schedule generalizing f room dropped with
  | nil => trivial
  | cons turn schedule ih =>
    rw [List.length_cons, ← Nat.add_assoc, Nat.add_right_comm] at hroom
    refine ⟨fun hi hdrops => ?_, ih (hf.step turn.1 turn.2) hroom⟩
    obtain ⟨h, hh, hdrops⟩ := hdrops
    have hfull := (hf.tracked turn.1 h hi hh).room_of_drops hdrops
    omega

end Fleet

/-! ## Stores whose neighbours write -/

namespace World

def MayWrite (w : World) (i : Nat) : Prop := ∃ h, w.handle? i = some h ∧ h.connection.mayWrite = true

def Writing (w : World) (i : Nat) : Prop :=
  ∃ h, w.handle? i = some h ∧ h.connection.mayWrite = true ∧ h.connection.working ≠ none

end World

namespace Fleet

variable {f : Fleet α} {G : Nat → Bool} {start : Database} {room : Nat} {dropped : Prop} {i : Nat}
  {k : TaskName}

theorem InTurn.barred (hf : f.InTurn G start room dropped) {l : Nat} (hi : G i = true) (hl : G l = true)
    (hne : i ≠ l) (hw : f.world.Writing i) (hm : f.world.MayWrite l) : f.world.Barred l := by
  obtain ⟨h, hh, hmay, hopen⟩ := hw
  obtain ⟨h', hh', hmay'⟩ := hm
  refine ⟨h', hh', hf.company.entered hl hh', ?_, ?_⟩
  · exact hf.single i l h h' hi hl hne hh hh' hmay hmay' hopen
  · exact World.blocked_of_writing (hf.company.meets l i hl hi) hh' hh hne.symm hmay' hmay hopen

theorem begin_of_barred (h : f.world.Barred i) {β : Type} {n : Nat}
    {body : (Ending β → Thread α) → Thread α} {next : Ending β → Thread α}
    (hk : (f.crews i).threads k = some (n, .own body next)) :
    f.world.Untouched (f.step i k).world i ∧
      ∃ fault : Fault, ((f.step i k).crews i).threads k =
        some (n, .rollback (.release (next (.raised (.store (.transaction fault)) none)))) := by
  obtain ⟨h, hh, -, hw, hb⟩ := h
  obtain ⟨fault, c', ho, hu, hn⟩ := Connection.open?_of_blocked hw hb
  obtain ⟨s, link, db, hs, hl, hd, hkeeps, rfl⟩ := World.handle?_eq_some.mp hh
  have hcom : (f.world.connection i link).committed = db := by
    simp [World.connection, hd, Except.toOption]
  have hstep : ((f.crews i).on (f.world.connection i link)).step k =
      ((f.crews i).on c').resume k n
        (.rollback (.release (next (.raised (.store (.transaction fault)) none)))) := by
    unfold Machine.step
    rw [show ((f.crews i).on (f.world.connection i link)).threads k = _ from hk]
    simp only [Thread.own, show ((f.crews i).on (f.world.connection i link)).connection.open? = _
      from ho, Option.isSome_some, if_true]
    rfl
  rw [step_of_link hs hl]
  unfold go
  simp only [hstep]
  refine ⟨⟨?_, fun l hne => ?_⟩, fault, ?_⟩
  · exact World.committed?_still hh (World.handle_putBack hs hd hkeeps hu.around) hu
  · refine World.handle_putBack_still hs hl hd hkeeps (hu.committed.trans hcom) ?_ hne
    rw [show (((f.crews i).on c').resume k n _).connection = c' from rfl, hn,
      show link.working = none from hw]
  · rw [Function.update_self]
    exact Pool.put_self ..

end Fleet

/-! ## Stores of one database -/

/-- By itself, a call comes to what it does in a transaction of its own. So does a block. -/
theorem Beginning.outcome_call {op : Operation α} (hr : op.refusal = none) (c : Connection)
    (next : Except Failure α → Thread α) :
    Beginning.outcome ⟨c, .own op.body.thread fun e => next (op.concluded e)⟩ =
      (c.alone.transact op).connection.committed := by
  unfold Beginning.outcome
  rw [op.tenure_own hr]

theorem Beginning.outcome_block {w : World} {i opening : Nat} {c : Connection}
    (hh : w.handle? i = some ⟨opening, false, c.alone⟩) (inner : Routine α)
    (next : Ending α → Thread α) :
    (w.carry i (.block inner .finish)).world.committed? i =
      some (Beginning.outcome ⟨c, .own inner.thread next⟩) :=
  World.committed?_of_handle (World.carry_block inner hh next).1

/-- Stores that are open on one database, each with tasks of its own, can be run in any order: what
is committed comes of one call or block after another, if only COMMIT and ROLLBACK end their
transactions. SQLite ends none by itself while there are numbers left for the memberships. Of the
stores that may write, for which BEGIN takes the write lock, at most one is inside a transaction:
calls and blocks on the others fail meanwhile, and nobody notices them. -/
theorem World.stores_serialize {w : World} {j : Nat}
    (hidle : ∀ i, w.shares j i = true →
      ∃ h, w.handle? i = some h ∧ h.entered = false ∧ h.connection.working = none)
    (tasks : Nat → Routine α) (schedule : List (Nat × TaskName)) :
    let f := (Fleet.start w tasks).run schedule
    let commits := f.commitsOn (w.shares j)
    ∃ before after,
      (∀ i, w.shares j i = true →
        w.committed? i = some before ∧ f.world.committed? i = some after) ∧
      Serial before commits after ∧
      ((Fleet.start w tasks).Keeps (w.shares j) schedule → ∀ c ∈ commits, c.IsWhole) ∧
      (before.lastMember + schedule.length < Database.lastId →
        (Fleet.start w tasks).Keeps (w.shares j) schedule) ∧
      ∀ i l, w.shares j i = true → w.shares j l = true → i ≠ l → f.world.Writing i →
        f.world.MayWrite l →
        (∀ call : Call, f.world.Untouched (f.world.call l call.operation).1 l ∧
          (call.operation.refusal = none → ∃ fault : Fault,
            (f.world.call l call.operation).2 = .error (.store (.transaction fault)))) ∧
        (f.world.Untouched (f.world.enter l).1 l ∧
          ∃ fault : Fault, (f.world.enter l).2 = .error (.store (.transaction fault))) ∧
        ∀ (β : Type) k n (body : (Ending β → Thread α) → Thread α) (next : Ending β → Thread α),
          (f.crews l).threads k = some (n, .own body next) →
          f.world.Untouched (f.step l k).world l ∧
            ∃ fault : Fault, ((f.step l k).crews l).threads k =
              some (n, .rollback (.release (next (.raised (.store (.transaction fault)) none)))) := by
  intro f commits
  have hj : w.shares j j = true := World.shares_iff.mpr fun ha => ha.1 rfl
  have hcompany : World.Company w (w.shares j) fun _ => false := by
    apply World.company_of_idle
    intro i hi
    obtain ⟨h, hh, he, -⟩ := hidle i hi
    exact ⟨h, hh, he⟩
  obtain ⟨h, hh, -⟩ := hidle j hj
  have hbefore : ∀ i, w.shares j i = true → w.committed? i = some h.connection.committed := by
    intro i hi
    rw [hcompany.committed?_eq hi hj, World.committed?_of_handle hh]
  -- Nothing is open at first, so no transaction has been dropped, and every run keeps the turns.
  have hstart : (Fleet.start w tasks).InTurn (w.shares j) h.connection.committed
      h.connection.committed.lastMember False := by
    refine Fleet.inTurn_start hcompany fun i h' hi hh' => ?_
    obtain ⟨h'', hh'', -, hw⟩ := hidle i hi
    obtain rfl : h' = h'' := Option.some.inj (hh'.symm.trans hh'')
    refine ⟨hw, ?_⟩
    have := hbefore i hi
    rwa [World.committed?_of_handle hh', Option.some.injEq] at this
  have hf := hstart.run schedule
  obtain ⟨h', hh', -⟩ := hf.company.handle j hj
  refine ⟨h.connection.committed, h'.connection.committed, fun i hi => ⟨hbefore i hi, ?_⟩,
    hf.serial j h' hj hh', fun hkeeps => hf.whole ?_, hstart.keeps schedule,
    fun i l hi hl hne hw hm => ?_⟩
  · rw [hf.company.committed?_eq hi hj, World.committed?_of_handle hh']
  · simpa using hkeeps
  · have hbarred := hf.barred hi hl hne hw hm
    exact ⟨World.call_of_barred hbarred, World.enter_of_barred hbarred,
      fun β k n body next hk => Fleet.begin_of_barred hbarred hk⟩

def rivals : World where
  files := [([[0x61]], .database .fresh)]
  commons := []
  locked := []
  stores := List.replicate 2
    ⟨[], some ⟨.file [[0x61]], true, false, none, [], none, false⟩, 1, false, .startedAt 0⟩
  clock := 0
  log := []

def insisting (topic : String) : (tries : Nat) → Routine Reply
  | 0 => .finish (.raised .aborted none)
  | tries + 1 => .call (Call.registerTopic topic "p" none (.plain true)).operation fun
    | .ok reply => .finish (.returned reply)
    | .error _ => insisting topic tries

def insistingOn (i : Nat) : Routine Reply := insisting (if i = 0 then "t" else "u") 2

/-- The second store tries to begin while the first is inside its transaction, and then again. -/
def rivalry : List (Nat × TaskName) :=
  [0, 0, 0, 1, 1, 1, 1, 1, 0, 0, 0, 1, 1, 1, 1, 1, 1].map fun i => (i, [])

theorem World.stores_serialize_rivals :
    let f := (Fleet.start rivals insistingOn).run rivalry
    let meanwhile := (Fleet.start rivals insistingOn).run (rivalry.take 3)
    f.commits.length = 2 ∧ (∀ c ∈ f.commitsOn (rivals.shares 0), c.IsWhole) ∧
      (∃ after, f.world.committed? 1 = some after ∧ after.topics.map (·.topic) = ["t", "u"] ∧
        Serial .fresh (f.commitsOn (rivals.shares 0)) after) ∧
      meanwhile.world.Untouched (meanwhile.world.enter 1).1 1 ∧
      ∃ fault : Fault, (meanwhile.world.enter 1).2 = .error (.store (.transaction fault)) := by
  intro f meanwhile
  have hidle : ∀ i, rivals.shares 0 i = true →
      ∃ h, rivals.handle? i = some h ∧ h.entered = false ∧ h.connection.working = none := by
    intro i hi
    match i with
    | 0 => exact ⟨_, rfl, rfl, rfl⟩
    | 1 => exact ⟨_, rfl, rfl, rfl⟩
    | n + 2 => simp [World.shares, World.home?, rivals] at hi
  have hfresh : rivals.committed? 0 = some .fresh := by decide +kernel
  have hzero : rivals.shares 0 0 = true := by decide +kernel
  have hone : rivals.shares 0 1 = true := by decide +kernel
  have htopics : (f.world.committed? 1).map (fun db => db.topics.map (·.topic)) =
      some ["t", "u"] := by decide +kernel
  have hopen : (meanwhile.world.handle? 0).map (fun h => (h.connection.mayWrite,
      h.connection.working.isSome)) = some (true, true) := by decide +kernel
  have hmay : (meanwhile.world.handle? 1).map (·.connection.mayWrite) = some true := by
    decide +kernel
  obtain ⟨before, after, hall, hserial, hwhole, hkeeps, -⟩ :=
    World.stores_serialize hidle insistingOn rivalry
  obtain ⟨-, -, -, -, -, -, hbarred⟩ := World.stores_serialize hidle insistingOn (rivalry.take 3)
  obtain rfl : Database.fresh = before := Option.some.inj (hfresh.symm.trans (hall 0 hzero).1)
  have hafter := (hall 1 hone).2
  have hwriting : meanwhile.world.Writing 0 := by
    obtain ⟨h, hh, he⟩ := Option.map_eq_some_iff.mp hopen
    rw [Prod.mk.injEq] at he
    exact ⟨h, hh, he.1, Option.isSome_iff_ne_none.mp he.2⟩
  have hmayWrite : meanwhile.world.MayWrite 1 := Option.map_eq_some_iff.mp hmay
  refine ⟨by decide +kernel, hwhole (hkeeps (by decide)), ⟨after, hafter, ?_, hserial⟩,
    (hbarred 0 1 hzero hone (by decide) hwriting hmayWrite).2.1⟩
  rw [show f.world.committed? 1 = some after from hafter] at htopics
  exact Option.some.inj htopics

end PubSub
