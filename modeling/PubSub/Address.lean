import PubSub.Json.Escape
import PubSub.Text.Bytes

/-!
# Addresses

How a text names a database: by the name of its file, by a word for a database
in memory, or by an address that begins with `file:`. In an address bytes may be
written as numbers after percent signs, and options may follow a question mark:
who may write, whether connections share what they have read, and whether the
database is kept in memory.
-/

namespace PubSub

inductive AddressFault where
  | authority (given : List UInt8)
  | unknownAccess (given : List UInt8)
  | deniedAccess (given : List UInt8)
  | unknownCache (given : List UInt8)
  | unknownSystem (given : List UInt8)
  deriving DecidableEq

def AddressFault.message : AddressFault → String
  | .authority given => "invalid uri authority: " ++ (Text.ofBytes? given).getD ""
  | .unknownAccess given => "no such access mode: " ++ (Text.ofBytes? given).getD ""
  | .deniedAccess given => "access mode not allowed: " ++ (Text.ofBytes? given).getD ""
  | .unknownCache given => "no such cache mode: " ++ (Text.ofBytes? given).getD ""
  | .unknownSystem given => "no such vfs: " ++ (Text.ofBytes? given).getD ""

inductive Keeping where
  /-- In memory, for one connection alone. -/
  | alone
  | common (name : List UInt8)
  | file (name : List UInt8)
  deriving DecidableEq

inductive Access where
  | read
  | write
  | create
  | memory
  deriving DecidableEq

/-- Whether an access can be narrowed to another one. -/
def Access.admits : Access → Access → Bool
  | _, .memory | .memory, _ | .create, _ => true
  | .write, wanted => wanted ≠ .create
  | .read, wanted => wanted = .read

structure Address where
  keeping : Keeping
  access : Access
  shares : Bool

namespace Address

def mayWrite (a : Address) : Bool := a.access ≠ .read

def mayCreate (a : Address) : Bool := a.access = .create

/-! ## Parts -/

def percent : UInt8 := 0x25

def hexValue? (b : UInt8) : Option Nat := Json.hexValue? (Char.ofNat b.toNat)

/-- The byte of a number behind a percent sign. -/
def escaped? : List UInt8 → Option (UInt8 × List UInt8)
  | a :: b :: rest => do
    let high ← hexValue? a
    let low ← hexValue? b
    return ((16 * high + low).toUInt8, rest)
  | _ => none

def part (stops : List UInt8) : (fuel : Nat) → List UInt8 → List UInt8 × List UInt8
  | 0, rest => ([], rest)
  | _, [] => ([], [])
  | fuel + 1, b :: rest =>
    if b = 0x23 then ([], [])
    else if stops.contains b then ([], b :: rest)
    else
      match if b = percent then escaped? rest else none with
      | none =>
        let (found, rest) := part stops fuel rest
        (b :: found, rest)
      | some (0, rest) =>
        let rest := rest.dropWhile fun b => !(b = 0x23 || stops.contains b)
        ([], if rest.head? = some 0x23 then [] else rest)
      | some (value, rest) =>
        let (found, rest) := part stops fuel rest
        (value :: found, rest)

def equals : UInt8 := 0x3d

def ampersand : UInt8 := 0x26

/-- What follows the next option. -/
def skipOption (s : List UInt8) : List UInt8 :=
  ((s.takeWhile (· ≠ 0x23)).dropWhile (· ≠ ampersand)).drop 1

def options : (fuel : Nat) → List UInt8 → List (List UInt8 × List UInt8)
  | 0, _ => []
  | fuel + 1, s =>
    let (name, rest) := part [equals, ampersand] s.length s
    match rest with
    | [] => if name.isEmpty then [] else [(name, [])]
    | stop :: rest =>
      if name.isEmpty then options fuel (if stop = equals then skipOption rest else rest)
      else if stop = equals then
        let (value, rest) := part [ampersand] rest.length rest
        (name, value) :: (if rest.isEmpty then [] else options fuel rest.tail)
      else (name, []) :: options fuel rest

/-! ## Options -/

structure Choices where
  access : Access
  shares : Bool
  /-- The last file system that was named. -/
  system : Option (List UInt8)

def accessWords : List (String × Access) :=
  [("ro", .read), ("rw", .write), ("rwc", .create), ("memory", .memory)]

def cacheWords : List (String × Bool) := [("shared", true), ("private", false)]

def systems : List String := ["unix", "unix-none", "unix-dotfile", "unix-excl", "memdb"]

/-- What the word for a value stands for. -/
def meaning? {α : Type} (words : List (String × α)) (value : List UInt8) : Option α :=
  (words.find? fun (word, _) => Text.toBytes word = value).map (·.2)

def choose (c : Choices) (option : List UInt8 × List UInt8) : Except AddressFault Choices :=
  let (name, value) := option
  if name = Text.toBytes "vfs" then .ok { c with system := some value }
  else if name = Text.toBytes "cache" then
    match meaning? cacheWords value with
    | some shares => .ok { c with shares := shares }
    | none => .error (.unknownCache value)
  else if name = Text.toBytes "mode" then
    match meaning? accessWords value with
    | none => .error (.unknownAccess value)
    | some access =>
      if c.access.admits access then .ok { c with access := access }
      else .error (.deniedAccess value)
  else .ok c

/-! ## Whole addresses -/

def memoryWord : List UInt8 := Text.toBytes ":memory:"

def start : List UInt8 := Text.toBytes "file:"

def plain (name : List UInt8) : Address :=
  ⟨if name.isEmpty || name = memoryWord then .alone else .file name, .create, false⟩

def keepingOf (name : List UInt8) (c : Choices) : Keeping :=
  if name.isEmpty || c.system = some (Text.toBytes "memdb") then .alone
  else if c.access = .memory || name = memoryWord then
    if c.shares then .common name else .alone
  else .file name

/-- What follows the host of an address, which must be the own one. -/
def withoutHost : List UInt8 → Except AddressFault (List UInt8)
  | 0x2f :: 0x2f :: rest =>
    let host := rest.takeWhile (· ≠ 0x2f)
    if host.isEmpty || host = Text.toBytes "localhost" then .ok (rest.drop host.length)
    else .error (.authority host)
  | s => .ok s

def ofParts (s : List UInt8) : Except AddressFault Address := do
  let s ← withoutHost s
  let (name, rest) := part [0x3f] s.length s
  let c ← (options rest.length rest.tail).foldlM choose ⟨.create, false, none⟩
  match c.system with
  | none => return ⟨keepingOf name c, c.access, c.shares⟩
  | some system =>
    if systems.any fun word => Text.toBytes word = system then
      return ⟨keepingOf name c, c.access, c.shares⟩
    else throw (.unknownSystem system)

def ofBytes (s : List UInt8) : Except AddressFault Address :=
  if start.isPrefixOf s then ofParts (s.drop start.length) else .ok (plain s)

end Address

end PubSub
