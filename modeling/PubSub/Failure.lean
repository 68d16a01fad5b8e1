import PubSub.Address
import PubSub.Document
import PubSub.Json.Reader
import PubSub.Lifecycle
import PubSub.Text.Shown

/-!
# Failures

Why a call cannot be answered, each cause with its wording in `message`. A
`Fault` is what the storage engine reports; a call that ends its own transaction
turns it into a `StoreFailure`, a call inside someone else's passes it on.
-/

namespace PubSub

/-! ## Faults of the engine -/

inductive Table where
  | topics
  | subscribers
  | subscriptions
  deriving DecidableEq

def Table.name : Table → String
  | .topics => "topics"
  | .subscribers => "subscribers"
  | .subscriptions => "subscriptions"

inductive Fault where
  /-- The statement was refused before it ran. -/
  | refused
  /-- Another connection holds the write lock. -/
  | locked
  | tableLocked
  | nested
  | idle
  | missingTable (table : Table)
  | full
  | repeated (table : Table) (columns : List String)
  | notDatabase
  /-- Something was to be written through a connection that only reads. -/
  | readOnly
  | unopenable
  | unreadable
  | address (fault : AddressFault)
  deriving DecidableEq

def Fault.message : Fault → String
  | .refused | .unreadable => "disk I/O error"
  | .locked => "database is locked"
  | .tableLocked => "database table is locked"
  | .nested => "cannot start a transaction within a transaction"
  | .idle => "cannot commit - no transaction is active"
  | .missingTable table => "no such table: " ++ table.name
  | .full => "database or disk is full"
  | .repeated table columns =>
    "UNIQUE constraint failed: "
      ++ String.intercalate ", " (columns.map fun column => table.name ++ "." ++ column)
  | .notDatabase => "file is not a database"
  | .readOnly => "attempt to write a readonly database"
  | .unopenable => "unable to open database file"
  | .address fault => fault.message

/-! ## Failures of the store -/

inductive StoreFailure where
  | notOpen (path : List Text.Point)
  | transaction (fault : Fault)
  | unopenable (path : List Text.Point) (fault : Fault)
  | schema (path : List Text.Point) (fault : Fault)
  | newerSchema (path : List Text.Point) (version : Int)
  | general (message : String) (details : Document)

def schemaVersion : Int := 1

def StoreFailure.message : StoreFailure → String
  | .notOpen _ => "Store is not open"
  | .transaction fault => "Store transaction failed: " ++ fault.message
  | .unopenable path fault => "Cannot open store at " ++ Text.written path ++ ": " ++ fault.message
  | .schema _ fault => "Cannot apply schema: " ++ fault.message
  | .newerSchema _ version =>
    "Store schema version " ++ toString version ++ " is newer than supported "
      ++ toString schemaVersion
  | .general message _ => message

def StoreFailure.details : StoreFailure → Document
  | .notOpen path | .unopenable path _ | .schema path _ => .record [("path", .ofPoints path)]
  | .transaction _ => .record []
  | .newerSchema path version => .record [("path", .ofPoints path), ("version", .int version)]
  | .general _ details => details.orEmpty

/-! ## Failures of calls -/

/-- The kinds of documents that have no elements. -/
inductive Scalar where
  | null
  | bool
  | int
  | float
  deriving DecidableEq

def Scalar.name : Scalar → String
  | .null => "NoneType"
  | .bool => "bool"
  | .int => "int"
  | .float => "float"

inductive Obstacle where
  | missing
  | fileInPlace
  | folderInPlace
  | throughFile
  | longName
  | zeroInName
  | unwritable
  deriving DecidableEq

def Obstacle.message : Obstacle → String
  | .missing => "No such file or directory"
  | .fileInPlace => "File exists"
  | .folderInPlace => "Is a directory"
  | .throughFile => "Not a directory"
  | .longName => "File name too long"
  | .zeroInName => "embedded null byte"
  | .unwritable => "surrogates not allowed"

inductive Failure where
  | notFound (kind key : String)
  | invalidTransition (topic : String) (current attempted : State)
  | store (cause : StoreFailure)
  | general (message : String) (details : Document)
  /-- A fault inside a transaction that someone else will end. -/
  | engine (fault : Fault)
  | empty (what : String)
  | unknownCode (code : Int)
  | unknownName (name : String)
  | unknownCommand (name : String)
  | notIterable (kind : Scalar)
  | unreadableDetails (fault : Json.ReadFault)
  /-- A number beyond the 64 bits of a column. -/
  | oversized
  /-- Nothing was given where a number is needed. -/
  | missingNumber
  | disconnected
  /-- A statement was to run where no connection is left. -/
  | unlinked
  | aborted
  | obstructed (obstacle : Obstacle)

namespace Failure

/-- A whole number has more digits than are written. -/
def unwritable : Failure := .unreadableDetails (.longNumber none)

def message : Failure → String
  | .notFound kind key => kind ++ " not found: " ++ key
  | .invalidTransition topic current attempted =>
    "Invalid transition for " ++ topic ++ ": " ++ current.name ++ " -> " ++ attempted.name
  | .store cause => cause.message
  | .general message _ => message
  | .engine fault => fault.message
  | .empty what => what ++ " is empty"
  | .unknownCode code => toString code ++ " is not a valid SubscriptionState"
  | .unknownName name => Text.shown name
  | .unknownCommand name => "Unknown command: " ++ name
  | .notIterable kind => "'" ++ kind.name ++ "' object is not iterable"
  | .unreadableDetails fault => fault.message
  | .oversized => "Python int too large to convert to SQLite INTEGER"
  | .missingNumber =>
    "int() argument must be a string, a bytes-like object or a real number, not 'NoneType'"
  | .disconnected => "no active connection"
  | .unlinked => "'NoneType' object has no attribute 'execute'"
  | .aborted => "abort"
  | .obstructed obstacle => obstacle.message

/-- What a caller can read beside the message; `none` for failures that carry nothing. -/
def details? : Failure → Option Document
  | .notFound kind key => some (.record [("kind", .text kind), ("key", .text key)])
  | .invalidTransition topic current attempted =>
    some (.record [("topic", .text topic), ("current", .text current.name),
      ("attempted", .text attempted.name)])
  | .store cause => some cause.details
  | .general _ details => some details.orEmpty
  | _ => none

/-- The answer no longer fits: it came late, twice or out of order. -/
def isStale : Failure → Bool
  | .invalidTransition .. | .notFound .. => true
  | _ => false

def isInvalidTransition : Failure → Bool
  | .invalidTransition .. => true
  | _ => false

/-- What leaves the transaction in which a failure arose. -/
def leaving : Failure → Failure
  | .engine fault => .store (.transaction fault)
  | failure => failure

end Failure

end PubSub
