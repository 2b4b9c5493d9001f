import PoolIndexer.Command.Dump
import PoolIndexer.Command.Index
import PoolIndexer.Command.Scene

/-!
# Main — the command line

With `dump` as the first argument an archive is filled, otherwise the node is indexed.  Standard input
holds the scene that the program runs on.
-/

namespace PoolIndexer

/-- The lines of a stream that are not blank. -/
partial def inputLines (input : IO.FS.Stream) : IO (List String) := do
  let line ← input.getLine
  if line.isEmpty then pure []
  else
    let rest ← inputLines input
    pure (if line.toList.all Text.isBlank then rest else line :: rest)

/-- How many waits a program goes through. -/
def patience : Nat := 1000000

def outcome (arguments : List String) (scene : Command.Scene) : Command.Outcome Rpc.Canned :=
  match arguments with
  | "dump" :: rest => Command.dump Rpc.Canned.transport patience rest scene.disk scene.node
  | _ => Command.index Rpc.Canned.transport patience arguments scene.disk scene.node

/-- Runs a program and prints what it says. -/
def run (arguments : List String) : IO UInt32 := do
  match Command.Scene.ofLines? (← inputLines (← IO.getStdin)) with
  | none =>
    IO.eprintln (Command.errorLine "standard input holds a line that is no record")
    pure 1
  | some scene =>
    let o := outcome arguments scene
    o.lines.forM fun line => IO.println line
    if let some text := o.message then IO.eprintln text
    pure o.code.toUInt32

end PoolIndexer

def main (arguments : List String) : IO UInt32 := PoolIndexer.run arguments
