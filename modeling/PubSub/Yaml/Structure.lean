import PubSub.Yaml.Graph
import PubSub.Yaml.Token

/-!
# Structure

The tokens of a text as the cells of a graph. A token is asked for only when it
is needed, so of several faults the one that comes up first is told. A sequence
may stand at the margin of the mapping that holds it, and what is left out
between two marks is an empty scalar. Tags are written out in full. How deep
collections stand inside each other is limited.
-/

namespace PubSub.Yaml

/-- The cells so far, and the cells that have names. -/
structure Sketch where
  cells : Graph
  names : List (String × Nat)

namespace Sketch

/-! ## Steps -/

abbrev Build := StateT Sketch Lexer.Step

def fail {α : Type} (fault : Fault) : Build α := liftM (Lexer.fail fault : Lexer.Step α)

def refuse {α : Type} : Build α := fail .malformed

def peek : Build (Option Token) := liftM Lexer.peek

def drop : Build Unit := liftM Lexer.take

def took (t : Token) : Build Bool := do
  if (← peek) = some t then
    drop
    return true
  else
    return false

def require (t : Token) : Build Unit := do
  if !(← took t) then refuse

/-! ## Cells -/

/-- A new cell, known by its name at once. A name is given once. -/
def add (p : Properties) (cell : Cell) : Build Nat := do
  let s ← get
  let id := s.cells.size
  match p.anchor with
  | none =>
    set { s with cells := s.cells.push cell }
    return id
  | some name =>
    if (s.names.lookup name).isSome then refuse
    else
      set (⟨s.cells.push cell, (name, id) :: s.names⟩ : Sketch)
      return id

def put (id : Nat) (cell : Cell) : Build Unit :=
  modify fun s => { s with cells := s.cells.setIfInBounds id cell }

def named (name : String) : Build Nat := do
  match (← get).names.lookup name with
  | some id => return id
  | none => refuse

def scalar (p : Properties) (text : List Text.Point) (plain : Bool) : Build Nat :=
  add p (.scalar (p.scalarKind text plain) text)

def absent (p : Properties) : Build Nat := scalar p [] true

def sequence (p : Properties) (items : Build (List Nat)) : Build Nat := do
  let kind := p.kind .list
  let id ← add p (.sequence kind [])
  put id (.sequence kind (← items))
  return id

def mapping (p : Properties) (entries : Build (List (Nat × Nat))) : Build Nat := do
  let kind := p.kind .map
  let id ← add p (.mapping kind [])
  put id (.mapping kind (← entries))
  return id

def orAbsent (stops : List Token) (step : Build Nat) : Build Nat := do
  match ← peek with
  | some t => if stops.contains t then absent .none else step
  | none => step

/-! ## Properties -/

abbrev Handles := List (String × String)

def defaultHandles : Handles := [("!", "!"), ("!!", "tag:yaml.org,2002:")]

def anchor? : Build (Option String) := do
  match ← peek with
  | some (.anchor name) =>
    drop
    return some name
  | _ => return none

/-- A tag as it is written: a handle, if it has one, and the rest. -/
def tag? : Build (Option (Option String × String)) := do
  match ← peek with
  | some (.tag handle rest) =>
    drop
    return some (handle, rest)
  | _ => return none

def inFull (handles : Handles) : Option (Option String × String) → Build (Option String)
  | none => return none
  | some (none, rest) => return some rest
  | some (some handle, rest) =>
    match handles.lookup handle with
    | some stands => return some (stands ++ rest)
    | none => refuse

def properties (handles : Handles) : Build Properties := do
  match ← anchor? with
  | some name =>
    let tag ← tag?
    return ⟨some name, ← inFull handles tag⟩
  | none =>
    match ← tag? with
    | none => return .none
    | some tag =>
      let anchor ← anchor?
      return ⟨anchor, ← inFull handles (some tag)⟩

/-! ## Nodes -/

/-- Where a node stands: in a flow collection, in a block, or in a mapping's block, at whose margin
a sequence may begin. -/
inductive Place where
  | flow
  | block
  | margin
  deriving DecidableEq

/-- What a node is read by: the handles of its document, and how many collections may still be
opened inside each other. -/
structure Scope where
  handles : Handles
  room : Nat

def nestingLimit : Nat := 490

def inside (scope : Scope) : Build Scope :=
  match scope.room with
  | 0 => fail .deep
  | room + 1 => return { scope with room := room }

/-- A node of which there is nothing but its properties. -/
def bare (p : Properties) : Build Nat := if p.given then absent p else refuse

mutual

def node (scope : Scope) (place : Place) : (fuel : Nat) → Build Nat
  | 0 => refuse
  | fuel + 1 => do
    match ← peek with
    | some (.alias name) =>
      drop
      named name
    | _ =>
      let p ← properties scope.handles
      match ← peek with
      | some (.scalar text plain) =>
        drop
        scalar p text plain
      | some .flowSequence =>
        sequence p do
          drop
          flowItems (← inside scope) true fuel
      | some .flowMapping =>
        mapping p do
          drop
          flowEntries (← inside scope) true fuel
      | some .entry =>
        if place = .margin then sequence p do marginItems (← inside scope) fuel else bare p
      | some .blockSequence =>
        if place = .flow then bare p
        else
          sequence p do
            drop
            blockItems (← inside scope) fuel
      | some .blockMapping =>
        if place = .flow then bare p
        else
          mapping p do
            drop
            blockEntries (← inside scope) fuel
      | _ => bare p

def blockItems (scope : Scope) : (fuel : Nat) → Build (List Nat)
  | 0 => refuse
  | fuel + 1 => do
    if ← took .entry then
      let item ← orAbsent [.entry, .blockEnd] (node scope .block fuel)
      return item :: (← blockItems scope fuel)
    else
      require .blockEnd
      return []

/-- Items at the margin of a mapping. They end where the mapping goes on. -/
def marginItems (scope : Scope) : (fuel : Nat) → Build (List Nat)
  | 0 => refuse
  | fuel + 1 => do
    if ← took .entry then
      let item ← orAbsent [.entry, .key, .value, .blockEnd] (node scope .block fuel)
      return item :: (← marginItems scope fuel)
    else
      return []

def blockEntries (scope : Scope) : (fuel : Nat) → Build (List (Nat × Nat))
  | 0 => refuse
  | fuel + 1 => do
    if ← took .key then
      let stops := [.key, .value, .blockEnd]
      let key ← orAbsent stops (node scope .margin fuel)
      let value ← (do
        if ← took .value then orAbsent stops (node scope .margin fuel) else absent .none)
      return (key, value) :: (← blockEntries scope fuel)
    else
      require .blockEnd
      return []

/-- Items between commas. One that has a name is a mapping of its own. -/
def flowItems (scope : Scope) (first : Bool) : (fuel : Nat) → Build (List Nat)
  | 0 => refuse
  | fuel + 1 => do
    if ← took .flowSequenceEnd then return []
    else
      if !first then require .comma
      if (← peek) = some .key then
        let pair ← mapping .none do
          drop
          let inner ← inside scope
          let stops := [.comma, .flowSequenceEnd]
          let key ← orAbsent (.value :: stops) (node inner .flow fuel)
          let value ← (do
            if ← took .value then orAbsent stops (node inner .flow fuel) else absent .none)
          return [(key, value)]
        return pair :: (← flowItems scope false fuel)
      else if ← took .flowSequenceEnd then return []
      else
        let item ← node scope .flow fuel
        return item :: (← flowItems scope false fuel)

def flowEntries (scope : Scope) (first : Bool) : (fuel : Nat) → Build (List (Nat × Nat))
  | 0 => refuse
  | fuel + 1 => do
    if ← took .flowMappingEnd then return []
    else
      if !first then require .comma
      if ← took .key then
        let stops := [.comma, .flowMappingEnd]
        let key ← orAbsent (.value :: stops) (node scope .flow fuel)
        let value ← (do
          if ← took .value then orAbsent stops (node scope .flow fuel) else absent .none)
        return (key, value) :: (← flowEntries scope false fuel)
      else if ← took .flowMappingEnd then return []
      else
        let key ← node scope .flow fuel
        let value ← absent .none
        return (key, value) :: (← flowEntries scope false fuel)

end

/-! ## Documents -/

structure Directives where
  versioned : Bool
  handles : Handles

/-- The directives before a document. Each may be given once, and only the first major version is
known. -/
def directives : (fuel : Nat) → Directives → Build Directives
  | 0, _ => refuse
  | fuel + 1, d => do
    match ← peek with
    | some (.version major) =>
      drop
      if d.versioned || major ≠ 1 then refuse else directives fuel { d with versioned := true }
    | some (.tagHandle handle stands) =>
      drop
      if (d.handles.lookup handle).isSome then refuse
      else directives fuel { d with handles := (handle, stands) :: d.handles }
    | some .reserved =>
      drop
      directives fuel d
    | _ => return d

def dropEnds : (fuel : Nat) → Build Unit
  | 0 => refuse
  | fuel + 1 => do
    if ← took .documentEnd then dropEnds fuel

def isDirective : Token → Bool
  | .version _ | .tagHandle .. | .reserved => true
  | _ => false

def marked (bound : Nat) : Build (Option Nat) := do
  dropEnds bound
  if (← peek).isNone then return none
  else
    let d ← directives bound ⟨false, []⟩
    require .documentStart
    let rest := do
      match ← peek with
      | none => absent .none
      | some t =>
        if isDirective t || t = .documentStart || t = .documentEnd then absent .none
        else node ⟨d.handles ++ defaultHandles, nestingLimit⟩ .block bound
    return some (← rest)

def document (bound : Nat) : Build (Option Nat) := do
  match ← peek with
  | none => return none
  | some t =>
    if isDirective t || t = .documentStart then marked bound
    else return some (← node ⟨defaultHandles, nestingLimit⟩ .block bound)

/-- Nothing but marks may follow a document. What would begin another one is looked at first. -/
def finish (bound : Nat) : Build Unit := do
  dropEnds bound
  if (← peek).isSome then
    let _ ← directives bound ⟨false, []⟩
    let _ ← peek
    refuse

/-- The cell of the one document of a text. A text with two is refused. -/
def whole (bound : Nat) : Build (Option Nat) := do
  let root ← document bound
  finish bound
  return root

end Sketch

/-- The cells of a text and the one of its root; a text without a document has none. Every token
but the closing ones takes up a character, so the length of the text bounds the work. -/
def Graph.ofText (text : String) : Except Fault (Option (Graph × Nat)) := do
  match Cursor.start? (unifyLines text.toList) with
  | none => throw .malformed
  | some cursor =>
    let (((root, sketch), _), _) ← Sketch.whole (3 * cursor.size + 6) ⟨#[], []⟩ .start cursor
    return root.map fun root => (sketch.cells, root)

end PubSub.Yaml
