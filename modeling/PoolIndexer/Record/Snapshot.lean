import PoolIndexer.Record.Totals
import PoolIndexer.Text.Utf8

/-!
# Record.Snapshot — the totals as octets

A snapshot is the version, then the three ledgers.  A ledger is the number of its entries, then for
each entry the length of the key, the key in UTF-8 and the amount; numbers are 64-bit words with the
lowest octet first.  Reading takes the entries of a ledger in any order and ignores what follows the
third ledger; of equal keys the last one counts.
-/

namespace PoolIndexer

inductive SnapshotError where
  | corrupt (height : Int64) (reason : String)
  | encoding (reason : String)
  deriving DecidableEq

def SnapshotError.message : SnapshotError → String
  | .corrupt height reason =>
    "corrupt snapshot at height " ++ Text.Decimal.showInt64 height ++ ": " ++ reason
  | .encoding reason => "snapshot encoding failed: " ++ reason

namespace Snapshot

def version : UInt8 := 1

/-! ### Words -/

/-- The lowest `width` octets of `n`, the lowest one first. -/
def octets : Nat → Nat → List UInt8
  | 0, _ => []
  | width + 1, n => UInt8.ofNat (n % 256) :: octets width (n / 256)

def ofOctets : List UInt8 → Nat
  | [] => 0
  | b :: rest => b.toNat + 256 * ofOctets rest

def word (n : Nat) : List UInt8 := octets 8 n

def amount (n : Int64) : List UInt8 := word n.toUInt64.toNat

/-! ### Writing -/

def key (s : String) : List UInt8 :=
  let bytes := Text.Utf8.encode s
  word bytes.length ++ bytes

def entry (e : String × Int64) : List UInt8 := key e.1 ++ amount e.2

def ledger (l : Ledger) : List UInt8 := word l.entries.length ++ l.entries.flatMap entry

def encode (t : Totals) : List UInt8 :=
  version :: ledger t.asset ++ ledger t.rune ++ ledger t.synth

/-- The snapshot of totals that memory has room for. -/
def write (t : Totals) : Except Overflow (List UInt8) :=
  if ((encode t).length : Int) ≤ Int64.maxValue.toInt then .ok (encode t) else .error .capacity

/-! ### Reading -/

inductive Fault where
  /-- A word is cut short. -/
  | endOfWord
  /-- A key is longer than what is left. -/
  | endOfKey
  | badKey (f : Text.Utf8.Fault)
  deriving DecidableEq

def Fault.message : Fault → String
  | .endOfWord => "io error: unexpected end of file"
  | .endOfKey => "io error: "
  | .badKey f => "string is not valid utf8: " ++ f.message

def readWord (bs : List UInt8) : Except Fault (Nat × List UInt8) :=
  if bs.length < 8 then .error .endOfWord else .ok (ofOctets (bs.take 8), bs.drop 8)

def readKey (bs : List UInt8) : Except Fault (String × List UInt8) := do
  let (length, rest) ← readWord bs
  if rest.length < length then .error .endOfKey
  else
    match Text.Utf8.decode (rest.take length) with
    | .ok s => .ok (s, rest.drop length)
    | .error f => .error (.badKey f)

def readEntry (bs : List UInt8) : Except Fault ((String × Int64) × List UInt8) := do
  let (k, rest) ← readKey bs
  let (n, rest) ← readWord rest
  .ok ((k, (UInt64.ofNat n).toInt64), rest)

def readEntries : Nat → List UInt8 → Except Fault (List (String × Int64) × List UInt8)
  | 0, bs => .ok ([], bs)
  | count + 1, bs => do
    let (e, rest) ← readEntry bs
    let (es, rest) ← readEntries count rest
    .ok (e :: es, rest)

def readLedger (bs : List UInt8) : Except Fault (Ledger × List UInt8) := do
  let (count, rest) ← readWord bs
  let (entries, rest) ← readEntries count rest
  .ok (Ledger.ofList entries, rest)

def readTotals (bs : List UInt8) : Except Fault Totals := do
  let (asset, rest) ← readLedger bs
  let (rune, rest) ← readLedger rest
  let (synth, _) ← readLedger rest
  .ok ⟨asset, rune, synth, 0⟩

def decode (bs : List UInt8) (height : Int64) : Except SnapshotError Totals :=
  match bs with
  | [] => .error (.corrupt height "empty snapshot")
  | v :: body =>
    if v = version then
      match readTotals body with
      | .ok t => .ok t
      | .error f => .error (.corrupt height f.message)
    else .error (.corrupt height ("unknown snapshot version " ++ Text.Decimal.showNat v.toNat))

end Snapshot

end PoolIndexer
