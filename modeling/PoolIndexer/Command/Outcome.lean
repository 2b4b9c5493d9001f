import PoolIndexer.Config.Check
import PoolIndexer.Disk
import PoolIndexer.Json.Printer
import PoolIndexer.Log

/-!
# Command.Outcome — what a program leaves behind

A program ends with code 0, with 1 after an error, with 2 if its arguments are wrong, and with 101
after an overflow that nobody catches.
-/

namespace PoolIndexer

namespace Command

structure Outcome (σ : Type) where
  code : UInt8
  /-- What the program says about its end. -/
  message : Option String
  /-- The working directory. -/
  disk : Item
  /-- The state of the node. -/
  node : σ
  /-- What has been written as structured log. -/
  entries : List (LogLevel × Json)

namespace Outcome

variable {σ : Type}

def failed (disk : Item) (node : σ) (message : Option String) : Outcome σ :=
  ⟨1, message, disk, node, []⟩

def misused (disk : Item) (node : σ) : Outcome σ := ⟨2, none, disk, node, []⟩

def helped (disk : Item) (node : σ) : Outcome σ := ⟨0, none, disk, node, []⟩

/-- The structured log, an entry a line. -/
def lines (o : Outcome σ) : List String :=
  o.entries.map fun (level, fields) =>
    (Json.record [("level", .text level.name), ("fields", fields)]).render

end Outcome

/-! ### Settings -/

/-- The item that a path of the working directory names. -/
def itemAt? (disk : Item) (path : String) : Option Item :=
  if path.isEmpty then none else disk.at? (Path.ofText path)

/-- The configuration in a file; a file that does not exist leaves the defaults. -/
def configAt (disk : Item) (path : String) : Except ConfigError Config :=
  match itemAt? disk path with
  | none => .ok .default
  | some (.plain text) => Config.ofFile (some text)
  | some _ => .error .unreadable

def errorLine (text : String) : String := "Error: " ++ text

/-- What is said about a configuration that breaks a rule. -/
def configWords : ConfigError → Option String
  | .brokenRule text => some (errorLine text)
  | _ => none

end Command

end PoolIndexer
