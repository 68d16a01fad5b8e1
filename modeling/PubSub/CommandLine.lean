import PubSub.Arguments
import PubSub.Settings

/-!
# The command line

One run of the program over the files of a world: its arguments, the settings
file they name, and the command on the store that the settings name. A run
leaves an exit status, an output, at most one complaint, and the part of the log
that the settings keep.
-/

namespace PubSub

inductive Complaint where
  | misuse (program : String) (fault : Arguments.Fault)
  | settings (cause : Settings.Unusable)
  | store (cause : StoreFailure)

def Complaint.message : Complaint → String
  | .misuse program fault => program ++ ": error: " ++ fault.message
  | .settings (.missing path) => "Error: " ++ (Settings.Unusable.missing path).message
  | .settings cause => "Configuration error: " ++ cause.message
  | .store cause => "Store error: " ++ cause.message

structure Outcome where
  /-- The exit status, or a failure that no complaint covers. -/
  status : Except Failure Nat
  output : String
  complaint : Option Complaint
  log : List Event

namespace Outcome

def stopped (status : Nat) (complaint : Complaint) : Outcome := ⟨.ok status, "", some complaint, []⟩

def help (program : String) : Outcome :=
  ⟨.ok 0, "usage: " ++ program ++ " [options] [arguments]\n", none, []⟩

def ofResult (log : List Event) : Except Failure String → Outcome
  | .ok output => ⟨.ok 0, output, none, log⟩
  | .error (.store cause) => ⟨.ok 1, "", some (.store cause), log⟩
  | .error failure => ⟨.error failure, "", none, log⟩

end Outcome

namespace Settings

def kept (s : Settings) (log : List Event) : List Event :=
  match s.format with
  | .json => log.filter fun e => s.level.admits e.level
  | .text => []

end Settings

namespace World

def runRequest (w : World) (r : Request) : World × Outcome :=
  match r.settings with
  | none => (w, .stopped 1 (.settings .unnamed))
  | some path =>
    match Settings.load w.files path with
    | .error cause => (w, .stopped 1 (.settings cause))
    | .ok settings =>
      let w := { w with log := [.settingsLoaded path r.command.name] }
      let (w, result) := w.administer settings.path r.command
      (w, .ofResult (settings.kept w.log) result)

def runCommandLine (w : World) (given : List String) : World × Outcome :=
  match Request.ofWords given with
  | .error (.help program) => (w, .help program)
  | .error (.misuse program fault) => (w, .stopped 2 (.misuse program fault))
  | .ok request => w.runRequest request

end World

end PubSub
