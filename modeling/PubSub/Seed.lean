import PubSub.Database

/-!
# Seeding

Rows that reach a database from outside, past every check of the registry.
Columns that are not given have the defaults of their table.
-/

namespace PubSub

inductive Seed where
  | topic (topic publisher : String) (details : Option String) (notification : Option Int)
  | member (id : Option Int) (topic subscriber : String) (details : Option String)
      (expiry : Option Int) (requestId : Option String)
  | subscription (topic : String) (code : Int) (requestId : Option String)

namespace Seed

def table : Seed → Table
  | .topic .. => .topics
  | .member .. => .subscribers
  | .subscription .. => .subscriptions

/-- Memberships stay in the order of their numbers. -/
def insertMember (row : MemberRow) : List MemberRow → List MemberRow
  | [] => [row]
  | m :: rest => if row.id < m.id then row :: m :: rest else m :: insertMember row rest

/-- The columns in which a row would repeat another one. -/
def repeats? (seed : Seed) (db : Database) : Option (List String) :=
  match seed with
  | .topic name _ _ _ => if (db.topic? name).isSome then some ["topic"] else none
  | .member id name subscriber _ _ _ =>
    if id.any fun id => db.members.any (·.id = id) then some ["id"]
    else if (db.member? name subscriber).isSome then some ["topic", "subscriber"]
    else none
  | .subscription name _ _ => if (db.subscription? name).isSome then some ["topic"] else none

def numbers : Seed → List Int
  | .topic _ _ _ notification => notification.toList
  | .member id _ _ _ expiry _ => id.toList ++ expiry.toList
  | .subscription _ code _ => [code]

/-- Adds a row. A number that is given moves the counter up, never down. -/
def add (seed : Seed) (db : Database) : Except Fault Database :=
  match seed with
  | .topic name publisher details notification =>
    .ok { db with
      topics := db.topics ++ [⟨name, publisher, details.getD "", notification.getD 0⟩] }
  | .member id name subscriber details expiry requestId =>
    if id.isNone ∧ Database.lastId ≤ db.lastMember then .error .full
    else
      let id := id.getD (db.lastMember + 1)
      let row : MemberRow :=
        ⟨id, name, subscriber, details.getD "[]", expiry.getD 0, requestId⟩
      .ok { db with
        members := insertMember row db.members
        lastMember := max db.lastMember id.toNat }
  | .subscription name code requestId =>
    .ok { db with subscriptions := db.subscriptions ++ [⟨name, code, requestId⟩] }

def refusal? (seed : Seed) (db : Database) : Option Failure :=
  if !db.has seed.table then some (.engine (.missingTable seed.table))
  else if seed.numbers.all Write.fits then none
  else some .oversized

def plant (seed : Seed) : Change where
  refusal? := seed.refusal?
  apply db :=
    match seed.repeats? db with
    | some columns => .error (.repeated seed.table columns)
    | none => seed.add db
  commits := true

end Seed

end PubSub
