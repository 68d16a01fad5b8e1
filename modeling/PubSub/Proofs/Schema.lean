import PubSub.World

/-!
# The schema

A database that is behind is brought up to date by a script of statements, all of them in one
transaction. The first that cannot run ends the script, and what is open then is lost with the
connection. So an opening either finds the whole schema afterwards or the database as it was
(`applySchema_eq_run`).
-/

namespace PubSub

/-! ## Statements -/

inductive SchemaStatement where
  | begin
  | createTable (table : Table)
  | createIndex (table : Table)
  | setVersion
  | commit
  deriving DecidableEq

def schemaScript : List SchemaStatement :=
  [.begin, .createTable .topics, .createTable .subscribers, .createTable .subscriptions,
    .createIndex .subscribers, .createIndex .subscriptions, .setVersion, .commit]

/-- A table is made where there is none of its name. -/
def Database.createTable (db : Database) (table : Table) : Database :=
  { db with tables := allTables.filter fun other => other = table || db.has other }

/-- What is committed, and the copy of a transaction that is open. -/
structure Draft where
  committed : Database
  working : Option Database
  deriving DecidableEq

namespace Draft

def change (d : Draft) (f : Database → Database) : Draft :=
  match d.working with
  | some db => { d with working := some (f db) }
  | none => { d with committed := f d.committed }

/-- What a statement does that runs. An index holds nothing of its own. -/
def step (d : Draft) : SchemaStatement → Draft
  | .begin => { d with working := some d.committed }
  | .createTable table => d.change (·.createTable table)
  | .createIndex _ => d
  | .setVersion => d.change fun db => { db with version := schemaVersion }
  | .commit => ⟨d.working.getD d.committed, none⟩

/-- Runs a script up to the first statement for which a plan has a fault. -/
def run (plan : SchemaStatement → Option Fault) (d : Draft) :
    List SchemaStatement → Option Fault × Draft
  | [] => (none, d)
  | s :: rest =>
    match plan s with
    | some fault => (some fault, d)
    | none => (d.step s).run plan rest

/-! ## Runs -/

section
variable {plan : SchemaStatement → Option Fault} {d : Draft}

theorem fault_of_run (script : List SchemaStatement) :
    (d.run plan script).1 = script.findSome? plan := by
  induction script generalizing d with
  | nil => rfl
  | cons s rest ih =>
    unfold run
    cases hs : plan s with
    | some fault => simp [hs]
    | none => simp [hs, ih]

theorem run_of_none {script : List SchemaStatement} (h : script.findSome? plan = none) :
    (d.run plan script).2 = script.foldl step d := by
  induction script generalizing d with
  | nil => rfl
  | cons s rest ih =>
    rw [List.findSome?_cons] at h
    unfold run
    cases hs : plan s with
    | some fault => simp [hs] at h
    | none => exact ih (by simpa [hs] using h)

theorem step_inside {s : SchemaStatement} (hs : s ≠ .begin ∧ s ≠ .commit) (hw : d.working.isSome) :
    (d.step s).committed = d.committed ∧ (d.step s).working.isSome := by
  obtain ⟨db, hdb⟩ := Option.isSome_iff_exists.mp hw
  cases s with
  | begin => exact absurd rfl hs.1
  | commit => exact absurd rfl hs.2
  | createTable table => simp [step, change, hdb]
  | createIndex table => exact ⟨rfl, hw⟩
  | setVersion => simp [step, change, hdb]

/-- Before its last statement, a transaction has committed nothing. -/
theorem run_inside {body : List SchemaStatement} (hb : ∀ s ∈ body, s ≠ .begin ∧ s ≠ .commit)
    (hw : d.working.isSome) {fault : Fault} (h : (d.run plan (body ++ [.commit])).1 = some fault) :
    (d.run plan (body ++ [.commit])).2.committed = d.committed := by
  induction body generalizing d with
  | nil =>
    simp only [List.nil_append, run] at h ⊢
    cases hc : plan .commit with
    | some fault => rfl
    | none => simp [hc] at h
  | cons s rest ih =>
    simp only [List.cons_append, run] at h ⊢
    cases hs : plan s with
    | some fault => rfl
    | none =>
      simp only [hs] at h ⊢
      obtain ⟨hc, hw'⟩ := step_inside (d := d) (hb s List.mem_cons_self) hw
      exact (ih (fun s hs => hb s (List.mem_cons_of_mem _ hs)) hw' h).trans hc

end

/-! ## The script of the schema -/

theorem committed_of_stopped {plan : SchemaStatement → Option Fault} {db : Database} {fault : Fault}
    (h : (run plan ⟨db, none⟩ schemaScript).1 = some fault) :
    (run plan ⟨db, none⟩ schemaScript).2.committed = db := by
  unfold schemaScript run at h ⊢
  cases hb : plan .begin with
  | some fault => rfl
  | none =>
    simp only [hb] at h ⊢
    let body : List SchemaStatement := [.createTable .topics, .createTable .subscribers,
      .createTable .subscriptions, .createIndex .subscribers, .createIndex .subscriptions, .setVersion]
    have hbody : ∀ s ∈ body, s ≠ .begin ∧ s ≠ .commit := by decide
    exact run_inside hbody rfl h

theorem committed_of_done {plan : SchemaStatement → Option Fault} {db : Database}
    (h : schemaScript.findSome? plan = none) :
    (run plan ⟨db, none⟩ schemaScript).2 = ⟨db.upgraded, none⟩ := by
  rw [run_of_none h]
  simp [schemaScript, step, change, Database.upgraded, Database.createTable, Database.allTables,
    Database.has]

end Draft

/-- However the obstacle of an opening falls on the statements of the script. -/
theorem applySchema_eq_run (path : List Text.Point) (plan : SchemaStatement → Option Fault)
    {db : Database} (hv : db.version < schemaVersion) :
    World.applySchema path (schemaScript.findSome? plan) db =
      match Draft.run plan ⟨db, none⟩ schemaScript with
      | (some fault, _) => .error (.store (.schema path fault))
      | (none, d) => .ok (d.committed, [.schemaApplied path db.version]) := by
  have hf : (Draft.run plan ⟨db, none⟩ schemaScript).1 = schemaScript.findSome? plan :=
    Draft.fault_of_run schemaScript
  have hnot : ¬schemaVersion < db.version := by omega
  unfold World.applySchema
  rw [if_neg hnot, if_pos hv]
  cases hs : schemaScript.findSome? plan with
  | some fault =>
    rw [hs] at hf
    generalize Draft.run plan ⟨db, none⟩ schemaScript = r at hf
    obtain ⟨_, d⟩ := r
    cases hf
    rfl
  | none =>
    have hd : (Draft.run plan ⟨db, none⟩ schemaScript).2 = ⟨db.upgraded, none⟩ :=
      Draft.committed_of_done hs
    rw [hs] at hf
    generalize Draft.run plan ⟨db, none⟩ schemaScript = r at hf hd
    obtain ⟨_, d⟩ := r
    cases hf
    cases hd
    rfl

end PubSub
