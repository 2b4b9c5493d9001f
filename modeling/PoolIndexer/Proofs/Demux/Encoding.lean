import PoolIndexer.Demux
import PoolIndexer.Proofs.Basic
import PoolIndexer.Proofs.Text.Base64

/-!
# Proofs.Demux.Encoding — attributes in base64 make no difference

* `Block.encoded`: the block with the key and the value of every attribute in base64.
* `Attributes.ofRaw_encoded`: reading an encoded event from base64 gives what is read from the event as it is.
* `Demux.run_encoded`: so the runs over the two blocks are the same.
-/

namespace PoolIndexer

/-! ### Encoded blocks -/

def Attribute.encoded (a : Attribute) : Attribute := ⟨Text.Base64.ofText a.key, Text.Base64.ofText a.value⟩

/-- The kind of an event is never encoded. -/
def RawEvent.encoded (e : RawEvent) : RawEvent := { e with attributes := e.attributes.map Attribute.encoded }

def TxResult.encoded (t : TxResult) : TxResult := { t with events := t.events.map RawEvent.encoded }

def PlacedEvent.encoded (p : PlacedEvent) : PlacedEvent := { p with raw := p.raw.encoded }

def Block.encoded (b : Block) : Block :=
  { b with
    beginEvents := b.beginEvents.map RawEvent.encoded
    txs := b.txs.map TxResult.encoded
    endEvents := b.endEvents.map RawEvent.encoded }

theorem placed_encoded (phase : Phase) (events : List RawEvent) :
    placed phase (events.map RawEvent.encoded) = (placed phase events).map PlacedEvent.encoded := by
  unfold placed
  rw [List.zipIdx_map, List.map_map, List.map_map]
  rfl

namespace Block

theorem filter_txs_encoded (p : TxResult → Bool) (hp : ∀ t, p t.encoded = p t) (b : Block) :
    b.encoded.txs.filter p = (b.txs.filter p).map TxResult.encoded := by
  show (b.txs.map TxResult.encoded).filter p = _
  rw [List.filter_map]
  congr 1
  exact List.filter_congr fun t _ => hp t

theorem txEvents_encoded (b : Block) : b.encoded.txEvents = b.txEvents.map RawEvent.encoded := by
  unfold txEvents
  rw [filter_txs_encoded _ (fun _ => rfl), List.flatMap_map, List.map_flatMap]
  rfl

theorem failedTxs_encoded (b : Block) : b.encoded.failedTxs = b.failedTxs := by
  unfold failedTxs
  rw [filter_txs_encoded _ (fun _ => rfl), List.length_map]

theorem placedEvents_encoded (b : Block) : b.encoded.placedEvents = b.placedEvents.map PlacedEvent.encoded := by
  unfold placedEvents
  rw [txEvents_encoded, placed_encoded, List.map_append, List.map_append]
  exact congrArg₂ (· ++ _ ++ ·) (placed_encoded .begin b.beginEvents) (placed_encoded .end b.endEvents)

end Block

/-! ### Reading -/

namespace Attributes

theorem decodeText_ofText (kind key s : String) : decodeText kind key (Text.Base64.ofText s) = .ok s := by
  unfold decodeText
  rw [Text.Base64.encode_ofText, Text.Base64.decode_encode]
  dsimp only
  rw [Text.Utf8.decode_encode]

theorem decodePair_encoded (kind : String) (a : Attribute) : decodePair kind a.encoded = .ok (a.key, a.value) := by
  unfold decodePair Attribute.encoded
  rw [decodeText_ofText]
  show (decodeText kind a.key (Text.Base64.ofText a.value) >>= fun value => pure (a.key, value)) = _
  rw [decodeText_ofText]
  rfl

/-- An encoded event is never unreadable, and reads as the event itself. -/
theorem ofRaw_encoded (e : RawEvent) : ofRaw e.encoded true = ofRaw e false := by
  have hpairs : (e.attributes.map Attribute.encoded).mapM (decodePair e.kind) =
      .ok (e.attributes.map fun a => (a.key, a.value)) := by
    rw [List.mapM_map]
    exact mapM_eq_ok fun a _ => decodePair_encoded e.kind a
  show ((e.attributes.map Attribute.encoded).mapM (decodePair e.kind)).map _ = _
  rw [hpairs]
  rfl

end Attributes

/-! ### Runs -/

namespace Demux

/-- The same demultiplexer for attributes in base64, or for those as they are. -/
def reading (d : Demux) (base64 : Bool) : Demux := { d with base64 }

section

variable (d : Demux)

theorem fate_encoded (m : Metadata) (raw : RawEvent) :
    (d.reading true).fate m raw.encoded = (d.reading false).fate m raw := by
  have hread : Attributes.ofRaw raw.encoded (d.reading true).base64 = Attributes.ofRaw raw (d.reading false).base64 :=
    Attributes.ofRaw_encoded raw
  unfold fate
  rw [hread]
  rfl

/-- What is noted down about an event names its kind, but none of its attributes as they were written. -/
theorem settle_encoded (r : DemuxRun) (m : Metadata) (raw : RawEvent) (f : Fate) :
    r.settle m raw.encoded f = r.settle m raw f := by
  cases f <;> rfl

theorem step_encoded (height timestamp : Int64) (r : DemuxRun) (p : PlacedEvent) :
    (d.reading true).step height timestamp r p.encoded = (d.reading false).step height timestamp r p := by
  obtain ⟨phase, index, raw⟩ := p
  have hfate := fate_encoded d (.of height timestamp phase (UInt32.ofNat index)) raw
  unfold step PlacedEvent.encoded
  dsimp only
  rw [hfate]
  cases r.fault with
  | some o => rfl
  | none =>
    dsimp only
    cases (d.reading false).fate (.of height timestamp phase (UInt32.ofNat index)) raw with
    | error o => rfl
    | ok f => exact settle_encoded r _ raw f

theorem foldl_encoded (b : Block) :
    b.encoded.placedEvents.foldl ((d.reading true).step b.encoded.height b.encoded.nanos) (DemuxRun.start b.encoded) =
      b.placedEvents.foldl ((d.reading false).step b.height b.nanos) (DemuxRun.start b) := by
  have hstart : DemuxRun.start b.encoded = DemuxRun.start b := by
    unfold DemuxRun.start
    rw [Block.failedTxs_encoded]
  have hstep : (fun r p => (d.reading true).step b.height b.nanos r (PlacedEvent.encoded p)) =
      (d.reading false).step b.height b.nanos :=
    funext fun r => funext fun p => step_encoded d b.height b.nanos r p
  rw [Block.placedEvents_encoded, List.foldl_map, hstart, ← hstep]
  rfl

/-- **Encoding**: a block whose attributes are in base64 gives the same events under the same ids, the same counts,
the same reports and, if any, the same fault as the block itself. -/
theorem run_encoded (b : Block) : (d.reading true).run b.encoded = (d.reading false).run b := by
  have hlength : b.encoded.endEvents.length = b.endEvents.length := List.length_map ..
  unfold run
  rw [foldl_encoded, hlength]
  rfl

end

end Demux

end PoolIndexer
