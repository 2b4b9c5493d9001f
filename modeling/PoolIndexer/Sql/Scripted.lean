import PoolIndexer.Report.Table
import PoolIndexer.Sql.Client

/-!
# Sql.Scripted — a server that answers by rules

A statement is answered by the first rule whose pattern is part of its text and which is not used
up.  The columns of the answer come from the first matching rule that has any, used up or not.
-/

namespace PoolIndexer

namespace Sql

structure Rule where
  pattern : String
  columns : Option (List (String × ColumnType))
  rows : List (List Value)
  /-- The refusal, if the rule refuses. -/
  refusal : Option String
  /-- How often the rule may still be used; nothing stands for no limit. -/
  left : Option Nat

structure Scripted where
  rules : List Rule
  /-- What has been executed. -/
  log : List Statement

namespace Rule

def isIn (pattern : List Char) : List Char → Bool
  | [] => pattern.isEmpty
  | c :: cs => pattern.isPrefixOf (c :: cs) || isIn pattern cs

def applies (r : Rule) (stmt : Statement) : Bool := isIn r.pattern.toList stmt.text.toList

def isUsedUp (r : Rule) : Bool := r.left = some 0

/-- The first usable rule, and the rules after its use. -/
def use? (stmt : Statement) : List Rule → Option (Rule × List Rule)
  | [] => none
  | r :: rest =>
    if r.applies stmt && !r.isUsedUp then some (r, { r with left := r.left.map (· - 1) } :: rest)
    else (use? stmt rest).map fun (used, rest) => (used, r :: rest)

def typeNamed? (name : String) : Option ColumnType :=
  match name with
  | "int8" => some .bigint
  | "text" => some .text
  | "bool" => some .boolean
  | "bytea" => some .bytea
  | _ => none

def column? : Json → Option (String × ColumnType)
  | .array [name, type] => do
    let name ← name.text?
    let type ← type.text?.bind typeNamed?
    pure (name, type)
  | _ => none

/-- A field that is left out when it is null or missing. -/
def optionalField (j : Json) (name : String) (f : Json → Option α) : Option α :=
  (j.field? name).bind f

def ofJson (j : Json) : Rule where
  pattern := (optionalField j "match" Json.text?).getD ""
  columns := optionalField j "columns" (Json.list? column?)
  rows := (optionalField j "rows" (Json.list? (Json.list? Value.ofJson?))).getD []
  refusal := optionalField j "error" Json.text?
  left := optionalField j "times" (Json.word? 64)

end Rule

/-- The server of a script. -/
def Scripted.server : Server Scripted := fun stmt s =>
  let columns := ((s.rules.filter fun r => r.applies stmt).findSome? Rule.columns).getD []
  let s := { s with log := s.log ++ [stmt] }
  match Rule.use? stmt s.rules with
  | none => (.ok ⟨columns, []⟩, s)
  | some (r, rules) =>
    let s := { s with rules }
    match r.refusal with
    | some text => (.error text, s)
    | none => (.ok ⟨columns, r.rows⟩, s)

/-! ### Reports -/

def typeName : ColumnType → String
  | .bigint => "int8"
  | .text => "text"
  | .bytea => "bytea"
  | .boolean => "bool"

def Parameter.toJson : Parameter → Json
  | .value v => ToJson.toJson v
  | .null t => .record [("null", .text (typeName t))]

/-- A statement and its parameters; of a long one the beginning and the size. -/
def Statement.toJson (stmt : Statement) : Json :=
  if stmt.params.length ≤ 200 then
    .array [.text stmt.text, .list Parameter.toJson stmt.params]
  else
    .array [.text (String.ofList (stmt.text.toList.take 120)),
      .record [("chars", .nat stmt.text.length), ("params", .nat stmt.params.length),
        ("last", .ofOption Parameter.toJson stmt.params.getLast?)]]

end Sql

end PoolIndexer
