import PubSub.Yaml.Kind

/-!
# Graphs

The nodes of a text as numbered cells. A node that is repeated by its name is one
cell with several places, and as a name is known from where its node begins, a
node may hold itself.
-/

namespace PubSub.Yaml

inductive Cell where
  | scalar (kind : Kind) (text : List Text.Point)
  | sequence (kind : Kind) (items : List Nat)
  | mapping (kind : Kind) (entries : List (Nat × Nat))

namespace Cell

def kind : Cell → Kind
  | .scalar kind _ | .sequence kind _ | .mapping kind _ => kind

def withKind (kind : Kind) : Cell → Cell
  | .scalar _ text => .scalar kind text
  | .sequence _ items => .sequence kind items
  | .mapping _ entries => .mapping kind entries

def entries : Cell → List (Nat × Nat)
  | .mapping _ entries => entries
  | _ => []

end Cell

abbrev Graph := Array Cell

/-! ## Kinds of cells -/

/-- The name that a node can be repeated by, and the kind that it was given. -/
structure Properties where
  anchor : Option String
  tag : Option String

namespace Properties

def none : Properties := ⟨.none, .none⟩

def given (p : Properties) : Bool := p.anchor.isSome || p.tag.isSome

def kind (p : Properties) (default : Kind) : Kind :=
  match p.tag with
  | .none => default
  | some tag => if tag = "!" then default else .ofTag tag

/-- The kind of a scalar. One without a tag is a text if it is quoted. -/
def scalarKind (p : Properties) (text : List Text.Point) (plain : Bool) : Kind :=
  p.kind (if plain || p.tag = some "!" then .ofPoints text else .text)

end Properties

end PubSub.Yaml
