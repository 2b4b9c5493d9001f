import PoolIndexer.Chain.Archive.Batch
import PoolIndexer.Chain.Rpc.Canned
import PoolIndexer.Command.Outcome

/-!
# Command.Scene — what a program runs on, read line by line

A scene is a working directory and the replies of a node.  Every line of a scene is a record: one
with a `file` and its `text` puts a file into the working directory, any other is a reply.
-/

namespace PoolIndexer

namespace Command

structure Scene where
  /-- The working directory. -/
  disk : Item
  replies : List Json

namespace Scene

def empty : Scene := ⟨.folder [], []⟩

/-- The file of a name; a batch of an archive is compressed. -/
def fileOf (path : Path) (text : String) : Item :=
  let name := path.getLastD ""
  if (Archive.batch? name).isSome || Archive.isOpenName name then .packed text else .plain text

/-- Adds a record. -/
def add (s : Scene) (j : Json) : Scene :=
  match (j.field? "file").bind Json.text?, (j.field? "text").bind Json.text? with
  | some file, some text =>
    let path := Path.ofText file
    { s with disk := Item.putAt (fileOf path text) path s.disk }
  | _, _ => { s with replies := s.replies ++ [j] }

/-- The scene of some lines; nothing if one of them is no record. -/
def ofLines? (lines : List String) : Option Scene :=
  (lines.mapM Json.parse).map fun js => js.foldl add .empty

/-- The node that gives the replies of a scene. -/
def node (s : Scene) : Rpc.Canned := .ofReplies s.replies

end Scene

end Command

end PoolIndexer
