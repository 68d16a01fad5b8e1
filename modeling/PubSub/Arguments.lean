import PubSub.Administration
import PubSub.Text.Digit
import PubSub.Text.Shown

/-!
# Arguments

The words of a command line as a request. Every word is first classified by
itself, and then the words are taken from left to right. A long option may be
shortened as long as it stays clear, and what a form does not know is collected
and refused at the end.
-/

namespace PubSub

namespace Arguments

/-! ## Forms -/

/-- An option under all its names. An option without a value asks for help. -/
structure Choice where
  names : List String
  hasValue : Bool
  values : List String

inductive Operand where
  | nothing
  | word (name : String)
  | command (name : String) (commands : List String)

structure Form where
  program : String
  choices : List Choice
  operand : Operand

def Choice.shown (c : Choice) : String := String.intercalate "/" c.names

/-! ## Faults -/

inductive Fault where
  | required (name : String)
  | noValue (option : String)
  | needlessValue (option given : String)
  | unknownValue (name given : String) (values : List String)
  | unclear (given : String) (options : List String)
  | unrecognized (words : List String)

def Fault.message : Fault → String
  | .required name => "the following arguments are required: " ++ name
  | .noValue option => "argument " ++ option ++ ": expected one argument"
  | .needlessValue option given =>
    "argument " ++ option ++ ": ignored explicit argument " ++ Text.shown given
  | .unknownValue name given values =>
    "argument " ++ name ++ ": invalid choice: " ++ Text.shown given ++ " (choose from "
      ++ String.intercalate ", " (values.map Text.shown) ++ ")"
  | .unclear given options =>
    "ambiguous option: " ++ given ++ " could match " ++ String.intercalate ", " options
  | .unrecognized words => "unrecognized arguments: " ++ String.intercalate " " words

/-- Why no request was read: help was asked for, or a word is out of place. -/
inductive Halt where
  | help (program : String)
  | misuse (program : String) (fault : Fault)

/-! ## Words -/

inductive Word where
  | text (s : String)
  /-- The mark after which every word is a text. -/
  | divider
  | option (s : String) (choice : Option Choice) (attached : Option String)

def Word.written : Word → String
  | .text s => s
  | .divider => "--"
  | .option s _ _ => s

def assignment (s : String) : String × Option String :=
  let cs := s.toList
  match cs.dropWhile (· ≠ '=') with
  | _ :: value => (String.ofList (cs.takeWhile (· ≠ '=')), some (String.ofList value))
  | [] => (s, none)

def named? (choices : List Choice) (name : String) : Option Choice :=
  choices.find? fun c => c.names.contains name

def startingWith (choices : List Choice) (start : String) : List (String × Choice) :=
  choices.flatMap fun c => (c.names.filter (start.isPrefixOf ·)).map (·, c)

/-- Digits with at most one point among or before them; a line end may follow. -/
def isNegativeNumber (s : String) : Bool :=
  let isNumber (body : List Char) : Bool :=
    match body.dropWhile Text.isDigit with
    | [] => !body.isEmpty
    | '.' :: ds => !ds.isEmpty && ds.all Text.isDigit
    | _ => false
  match s.toList with
  | '-' :: body =>
    isNumber (if body.getLast? = some '\n' then body.dropLast else body)
  | _ => false

def unknownWord (s : String) : Word :=
  if isNegativeNumber s || s.toList.contains ' ' then .text s else .option s none none

def longWord (choices : List Choice) (s : String) : Except Fault Word :=
  let (start, value) := assignment s
  match startingWith choices start with
  | [] => .ok (unknownWord s)
  | [(_, choice)] => .ok (.option s (some choice) value)
  | several => .error (.unclear s (several.map (·.1)))

def shortWord (choices : List Choice) (s : String) : Word :=
  match named? choices (String.ofList (s.toList.take 2)) with
  | some choice => .option s (some choice) (some (String.ofList (s.toList.drop 2)))
  | none => unknownWord s

def word (choices : List Choice) (s : String) : Except Fault Word :=
  match s.toList with
  | '-' :: second :: _ =>
    match named? choices s with
    | some choice => .ok (.option s (some choice) none)
    | none =>
      match assignment s with
      | (start, some value) =>
        match named? choices start with
        | some choice => .ok (.option s (some choice) (some value))
        | none => if second = '-' then longWord choices s else .ok (shortWord choices s)
      | (_, none) => if second = '-' then longWord choices s else .ok (shortWord choices s)
  | _ => .ok (.text s)

def words (choices : List Choice) : List String → Except Fault (List Word)
  | [] => .ok []
  | s :: rest =>
    if s = "--" then .ok (.divider :: rest.map .text)
    else do
      let first ← word choices s
      return first :: (← words choices rest)

/-! ## Taking words -/

structure Taken where
  values : List (String × Option String)
  operand : List String
  unknown : List String

def Taken.nothing : Taken := ⟨[], [], []⟩

/-- The last value given to an option. -/
def Taken.value? (t : Taken) (option : String) : Option (Option String) :=
  t.values.reverse.lookup option

def takeValue (choice : Choice) (given : String) (t : Taken) : Except Fault Taken :=
  let option := choice.shown
  if given = "--" then .ok { t with values := t.values ++ [(option, none)] }
  else if choice.values.isEmpty || choice.values.contains given then
    .ok { t with values := t.values ++ [(option, some given)] }
  else .error (.unknownValue option given choice.values)

def together (choices : List Choice) (choice : Choice) :
    (attached : List Char) → Except Fault (Choice × Option String)
  | [] =>
    if choice.hasValue then .ok (choice, some "") else .error (.needlessValue choice.shown "")
  | c :: rest =>
    if choice.hasValue then .ok (choice, some (String.ofList (c :: rest)))
    else
      match named? choices (String.ofList ['-', c]) with
      | none => .error (.needlessValue choice.shown (String.ofList (c :: rest)))
      | some next => if rest.isEmpty then .ok (next, none) else together choices next rest

def lastOption (choices : List Choice) (choice : Choice) (s : String) :
    (attached : Option String) → Except Fault (Choice × Option String)
  | none => .ok (choice, none)
  | some value =>
    if s.startsWith "--" && !choice.hasValue then .error (.needlessValue choice.shown value)
    else together choices choice value.toList

def Form.awaits (f : Form) (t : Taken) : Bool :=
  match f.operand with
  | .nothing => false
  | .word _ | .command .. => t.operand.isEmpty

def Form.misuse {α : Type} (f : Form) (fault : Fault) : Except Halt α :=
  .error (.misuse f.program fault)

def Form.lift {α : Type} (f : Form) : Except Fault α → Except Halt α
  | .ok value => .ok value
  | .error fault => f.misuse fault

def takeOperand (t : Taken) (words : List String) : Taken := { t with operand := words }

def leaveOver (t : Taken) (word : Word) : Taken := { t with unknown := t.unknown ++ [word.written] }

def Form.takesAll (f : Form) : Bool :=
  match f.operand with
  | .command .. => true
  | _ => false

def Form.take (f : Form) (t : Taken) : List Word → Except Halt Taken
  | [] => .ok t
  | .option s none _ :: rest => f.take (leaveOver t (.option s none none)) rest
  | .option s (some choice) attached :: rest => do
    let (last, value) ← f.lift (lastOption f.choices choice s attached)
    match last.hasValue, value, rest with
    | false, _, _ => throw (.help f.program)
    | true, some value, rest =>
      if !choice.hasValue then throw (.help f.program)
      f.take (← f.lift (takeValue last value t)) rest
    | true, none, .text value :: rest =>
      if !choice.hasValue then throw (.help f.program)
      f.take (← f.lift (takeValue last value t)) rest
    | true, none, _ => f.misuse (.noValue last.shown)
  | .divider :: .text s :: rest =>
    if !f.awaits t then f.take (leaveOver (leaveOver t .divider) (.text s)) rest
    else if f.takesAll then .ok (takeOperand t ("--" :: s :: rest.map Word.written))
    else f.take (takeOperand t [s]) rest
  | .text s :: .divider :: rest =>
    if !f.awaits t then f.take (leaveOver (leaveOver t (.text s)) .divider) rest
    else if f.takesAll then .ok (takeOperand t (s :: "--" :: rest.map Word.written))
    else f.take (takeOperand t [s]) rest
  | .text s :: rest =>
    if !f.awaits t then f.take (leaveOver t (.text s)) rest
    else if f.takesAll then .ok (takeOperand t (s :: rest.map Word.written))
    else f.take (takeOperand t [s]) rest
  | .divider :: rest => f.take (leaveOver t .divider) rest

def Form.checkOperand (f : Form) (t : Taken) : Except Fault Unit :=
  match f.operand, t.operand with
  | .nothing, _ => .ok ()
  | .word name, [] | .command name _, [] => .error (.required name)
  | .word _, _ :: _ => .ok ()
  | .command name commands, given :: _ =>
    if commands.contains given then .ok () else .error (.unknownValue name given commands)

def Form.read (f : Form) (given : List String) : Except Halt Taken := do
  let t ← f.take .nothing (← f.lift (words f.choices given))
  f.lift (f.checkOperand t)
  return t

end Arguments

/-! ## Requests -/

/-- A command and the settings file to use, if one is named. -/
structure Request where
  settings : Option String
  command : Command

namespace Request

open Arguments

def program : String := "usub-registry"

def defaultSettings : String := "usub-registry.yaml"

def help : Choice := ⟨["-h", "--help"], false, []⟩

def settingsChoice : Choice := ⟨["-c", "--config"], true, []⟩

def formatChoice : Choice := ⟨["--format"], true, ["text", "json", "prometheus"]⟩

def commands : List String := ["stats", "subscribers", "pending", "purge-deprecated"]

def form : Form := ⟨program, [help, settingsChoice], .command "command" commands⟩

def commandForm (name : String) : Form :=
  let program := program ++ " " ++ name
  if name = "stats" then ⟨program, [help, formatChoice], .nothing⟩
  else if name = "subscribers" then ⟨program, [help], .word "topic"⟩
  else ⟨program, [help], .nothing⟩

def formatOf (t : Taken) : Format :=
  match t.value? formatChoice.shown with
  | some (some name) => .ofName name
  | _ => .text

/-- The request of a command line. Words that no form knows refuse it. -/
def ofWords (given : List String) : Except Halt Request := do
  let outer ← form.read given
  let name := outer.operand.headD ""
  let inner ← (commandForm name).read outer.operand.tail
  let unknown := outer.unknown ++ inner.unknown
  if unknown.isEmpty then
    let settings := (outer.value? settingsChoice.shown).getD (some defaultSettings)
    return ⟨settings, .ofName name (formatOf inner) (inner.operand.headD "")⟩
  else
    form.misuse (.unrecognized unknown)

end Request

end PubSub
