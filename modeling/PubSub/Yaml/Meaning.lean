import PubSub.Document
import PubSub.Yaml.Binary
import PubSub.Yaml.Structure

/-!
# What a text means

The cells of a graph as documents. They are looked at level by level, each cell
once, so that of several faults the one nearest to the root is told. The entries
of a merged mapping come before a mapping's own, so that these win. `read` is the
whole way from a text to its document.
-/

namespace PubSub.Yaml

/-! ## Scalars -/

def truth (ps : List Text.Point) : Except Fault Document :=
  let word := Text.lower ps
  let isAmong (words : List String) : Bool := words.any fun w => Text.points w = word
  if isAmong Kind.trueWords then .ok (.bool true)
  else if isAmong Kind.falseWords then .ok (.bool false)
  else .error (.notTruth word)

def date (s : String) : Except Fault Document :=
  match Date.ofChars? (Kind.withoutLineEnd s.toList) with
  | none => .error .notDate
  | some found =>
    match found.fault? with
    | some fault => .error (.date fault)
    | none => .ok .other

def bytes (s : String) : Except Fault Document :=
  match Binary.decode? s.toList with
  | some data => .ok (.bytes data)
  | none => .error .malformed

def ofString (ps : List Text.Point) (fault : Fault) (read : String → Except Fault Document) :
    Except Fault Document :=
  match Text.string? ps with
  | some s => read s
  | none => .error fault

def scalarDocument (kind : Kind) (ps : List Text.Point) : Except Fault Document :=
  match kind with
  | .text => .ok (.ofPoints ps)
  | .null => .ok .null
  | .truth => truth ps
  | .int => (Number.int ps).map .int
  | .float => (Number.float ps).map .float
  | .bytes => ofString ps .malformed bytes
  | .date => ofString ps .notDate date
  | _ => .error .malformed

/-! ## Visits -/

structure Visits where
  cells : Graph
  /-- What the cells stand for that were seen. For one that holds others this is not yet known. -/
  seen : Array (Option Document)
  /-- Cells whose parts are still to be seen. -/
  waiting : List Nat

abbrev Visit := StateT Visits (Except Fault)

namespace Visit

def fail {α : Type} (fault : Fault) : Visit α := fun _ => .error fault

def cell (id : Nat) : Visit Cell := do
  match (← get).cells[id]? with
  | some cell => return cell
  | none => fail .malformed

def setCell (id : Nat) (cell : Cell) : Visit Unit :=
  modify fun v => { v with cells := v.cells.setIfInBounds id cell }

def note (id : Nat) (d : Document) : Visit Unit :=
  modify fun v => { v with seen := v.seen.setIfInBounds id (some d) }

def textOf : (fuel : Nat) → Nat → Visit (List Text.Point)
  | 0, _ => fail .deep
  | fuel + 1, id => do
    match ← cell id with
    | .scalar _ text => return text
    | .sequence .. => fail .malformed
    | .mapping _ entries =>
      let cells := (← get).cells
      let isStandIn (key : Nat) : Bool := (cells[key]?.map Cell.kind) = some .standIn
      match entries.find? fun (key, _) => isStandIn key with
      | some (_, value) => textOf fuel value
      | none => fail .malformed

def checkDate (id : Nat) : Visit Unit := do
  match ← cell id with
  | .mapping .. => fail .compositeDate
  | _ => return ()

def see (id : Nat) : Visit Unit := do
  let size := (← get).cells.size
  if ((← get).seen[id]?.join).isSome then return ()
  else
    let kind := (← cell id).kind
    if kind.isName then
      if kind = .merge ∨ kind = .standIn ∨ kind = .unknown then fail .malformed
      else
        let text ← textOf (size + 1) id
        if kind = .date then checkDate id
        match scalarDocument kind text with
        | .ok d => note id d
        | .error fault => fail fault
    else
      note id (.list [])
      modify fun v => { v with waiting := v.waiting ++ [id] }

/-! ## Merged mappings -/

def kindAt (cells : Graph) (id : Nat) : Option Kind := cells[id]?.map Cell.kind

/-- Makes plain texts of the stand-ins among some names. -/
def settleStandIns (keys : List Nat) : Visit Unit := modify fun v =>
  { v with
    cells := keys.foldl (fun cells key =>
      match cells[key]? with
      | some cell =>
        if cell.kind = .standIn then cells.setIfInBounds key (cell.withKind .text) else cells
      | none => cells) v.cells }

def setEntries (id : Nat) (entries : List (Nat × Nat)) : Visit Unit := do
  setCell id (.mapping (← cell id).kind entries)

/-- Takes the entries of merged mappings over, from a position on. They are collected, and stand
first in the end. Every step removes a merge, so that the number of entries bounds the work. -/
def mergeFrom : (fuel : Nat) → (id position : Nat) → (found : List (Nat × Nat)) → Visit Unit
  | 0, _, _, _ => fail .malformed
  | fuel + 1, id, position, found => do
    let entries := (← cell id).entries
    let cells := (← get).cells
    let ahead := entries.drop position
    match ahead.findIdx? fun (key, _) => kindAt cells key = some .merge with
    | none =>
      settleStandIns (ahead.map (·.1))
      setEntries id (found ++ entries)
    | some n =>
      settleStandIns ((ahead.take n).map (·.1))
      setEntries id (entries.eraseIdx (position + n))
      let value := (ahead[n]?.map (·.2)).getD id
      match ← cell value with
      | .scalar .. => fail .malformed
      | .mapping .. =>
        mergeFrom fuel value 0 []
        mergeFrom fuel id (position + n) (found ++ (← cell value).entries)
      | .sequence _ items =>
        let parts ← items.mapM fun item => do
          match ← cell item with
          | .mapping .. =>
            mergeFrom fuel item 0 []
            return (← cell item).entries
          | _ => fail .malformed
        mergeFrom fuel id (position + n) (found ++ parts.reverse.flatten)

/-! ## The parts of cells -/

def seeEntry (entry : Nat × Nat) : Visit Unit := do
  see entry.1
  if !(← cell entry.1).kind.isName then fail .malformed
  see entry.2

def seePair (id : Nat) : Visit Unit := do
  match ← cell id with
  | .mapping _ [(key, value)] =>
    see key
    see value
  | _ => fail .malformed

/-- Sees what a cell holds. -/
def seeParts (id : Nat) : Visit Unit := do
  match ← cell id with
  | .sequence .list items => items.forM see
  | .sequence .pairs items => items.forM seePair
  | .mapping .map _ | .mapping .set _ =>
    let count := (← get).cells.foldl (fun n cell => n + cell.entries.length) 0
    mergeFrom (count + 1) id 0 []
    (← cell id).entries.forM seeEntry
  | _ => fail .malformed

/-- Goes on with the waiting cells. Each cell waits once. -/
def seeAll : (fuel : Nat) → Visit Unit
  | 0 => return ()
  | fuel + 1 => do
    match (← get).waiting with
    | [] => return ()
    | id :: rest =>
      modify fun v => { v with waiting := rest }
      seeParts id
      seeAll fuel

end Visit

/-! ## Documents -/

namespace Visits

/-- What a cell stands for. A cell may hold itself, so lists and mappings are opened to a depth
only, and are empty below it. -/
def document (v : Visits) : (depth : Nat) → Nat → Document
  | depth, id =>
    match v.cells[id]?, depth with
    | some (.sequence .list items), depth + 1 => .list (items.map (v.document depth))
    | some (.mapping .map entries), depth + 1 =>
      .map (entries.map fun (key, value) => (v.document depth key, v.document depth value))
    | some (.mapping .map _), 0 => .map []
    | some (.mapping .set entries), depth + 1 =>
      .list (entries.map fun (key, _) => v.document depth key)
    | some (.sequence .pairs items), _ => .list (items.map fun _ => .other)
    | _, _ => (v.seen[id]?.join).getD .other

end Visits

/-! ## Texts -/

/-- The cells of a text as they stand for documents; a text without a document has none. -/
def visits (s : String) : Except Fault (Option (Visits × Nat)) := do
  match ← Graph.ofText s with
  | none => return none
  | some (cells, root) =>
    let start : Visits := ⟨cells, cells.map fun _ => none, []⟩
    let walk : Visit Unit := do
      Visit.see root
      Visit.seeAll (cells.size + 1)
    let ((), v) ← walk start
    return some (v, root)

/-- The document of a text, opened to a depth. -/
def read (depth : Nat) (s : String) : Except Fault Document := do
  match ← visits s with
  | none => return .null
  | some (v, root) => return v.document depth root

end PubSub.Yaml
