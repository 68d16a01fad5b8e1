/-!
# The life of a subscription

Each topic has one subscription, negotiated with a remote authority. A request
is recorded as pending at once and resolved later, for or against. `canBecome`
is the table of permitted steps.
-/

namespace PubSub

inductive State where
  | deprecated
  | unsubscribed
  | subscribePending
  | subscribed
  | unsubscribePending
  deriving DecidableEq

namespace State

def all : List State :=
  [.deprecated, .unsubscribed, .subscribePending, .subscribed, .unsubscribePending]

theorem mem_all (s : State) : s ∈ all := by cases s <;> decide

/-! ## Codes and names -/

def code : State → Int
  | .deprecated => -1
  | .unsubscribed => 0
  | .subscribePending => 1
  | .subscribed => 2
  | .unsubscribePending => 3

def name : State → String
  | .deprecated => "DEPRECATED"
  | .unsubscribed => "UNSUBSCRIBED"
  | .subscribePending => "SUBSCRIBE_PENDING"
  | .subscribed => "SUBSCRIBED"
  | .unsubscribePending => "UNSUBSCRIBE_PENDING"

def ofCode? (n : Int) : Option State := all.find? fun s => s.code = n

def ofName? (s : String) : Option State := all.find? fun state => state.name = s

theorem ofCode?_code (s : State) : ofCode? s.code = some s := by cases s <;> rfl

theorem ofCode?_eq_some {n : Int} {s : State} : ofCode? n = some s ↔ n = s.code := by
  constructor
  · intro h
    have := List.find?_some h
    exact (of_decide_eq_true this).symm
  · rintro rfl; exact ofCode?_code s

/-! ## Steps -/

/-- Where a state may go. A request leaves a settled state, its resolution leaves a pending one,
and a withdrawal is possible from anywhere. -/
def successors : State → List State
  | .unsubscribed => [.subscribePending, .deprecated]
  | .subscribePending => [.subscribed, .unsubscribed, .deprecated]
  | .subscribed => [.unsubscribePending, .deprecated]
  | .unsubscribePending => [.unsubscribed, .subscribed, .deprecated]
  | .deprecated => [.subscribePending, .deprecated]

def canBecome (current next : State) : Bool := current.successors.contains next

/-- Steps between codes; a code of no state has no steps. -/
def codesConnect (current next : Int) : Bool :=
  match ofCode? current, ofCode? next with
  | some current, some next => current.canBecome next
  | _, _ => false

/-! ## Kinds of states -/

def effective : List State := [.subscribePending, .subscribed]

def pending : List State := [.subscribePending, .unsubscribePending]

def isEffective (s : State) : Bool := effective.contains s

def isPending (s : State) : Bool := pending.contains s

end State

/-! ## Resolutions -/

structure Resolution where
  granted : State
  refused : State

def Resolution.outcome (r : Resolution) (accepted : Bool) : State :=
  if accepted then r.granted else r.refused

def State.resolution? : State → Option Resolution
  | .subscribePending => some ⟨.subscribed, .unsubscribed⟩
  | .unsubscribePending => some ⟨.unsubscribed, .subscribed⟩
  | _ => none

theorem State.isSome_resolution? (s : State) : s.resolution?.isSome = s.isPending := by
  cases s <;> rfl

theorem State.canBecome_outcome {s : State} {r : Resolution} (h : s.resolution? = some r)
    (accepted : Bool) : s.canBecome (r.outcome accepted) = true := by
  cases s <;> simp only [resolution?, Option.some.injEq, reduceCtorEq] at h <;> subst h <;>
    cases accepted <;> decide

/-- What a decision would have led to, where nothing is pending. -/
def State.expected (accepted : Bool) : State := if accepted then .subscribed else .unsubscribed

end PubSub
