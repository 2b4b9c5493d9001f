import PoolIndexer.Block.Json
import PoolIndexer.Proofs.Instant
import PoolIndexer.Proofs.Json
import PoolIndexer.Proofs.Text.Utf8

/-!
# Proofs.Block.Json — a block is read back from its text

Events, results of transactions and blocks are records of plain documents, so each is found again field by
field; the hash passes through its hexadecimal digits and the timestamp through its text.
-/

namespace PoolIndexer

/-! ### The hash -/

namespace Text.Hex

theorem octet_upperDigit : ∀ d < 16, String.utf8EncodeChar (upperDigit d) = [UInt8.ofNat (upperDigit d).toNat] ∧
    digitValue? (UInt8.ofNat (upperDigit d).toNat) = some d := by
  decide

theorem length_octets_upper (bs : List UInt8) :
    ((encodeWith upperDigit bs).flatMap String.utf8EncodeChar).length = 2 * bs.length := by
  induction bs with
  | nil => rfl
  | cons b bs ih =>
    obtain ⟨hhigh, -⟩ := octet_upperDigit (b.toNat / 16) (by have := b.toNat_lt; omega)
    obtain ⟨hlow, -⟩ := octet_upperDigit (b.toNat % 16) (by omega)
    rw [encodeWith, List.flatMap_cons, List.flatMap_cons, hhigh, hlow]
    simp [ih]
    omega

theorem pairs_upper (index : Nat) (bs : List UInt8) :
    pairs index ((encodeWith upperDigit bs).flatMap String.utf8EncodeChar) = .ok bs := by
  induction bs generalizing index with
  | nil => rfl
  | cons b bs ih =>
    have hb := b.toNat_lt
    obtain ⟨hhigh, hhigh'⟩ := octet_upperDigit (b.toNat / 16) (by omega)
    obtain ⟨hlow, hlow'⟩ := octet_upperDigit (b.toNat % 16) (by omega)
    rw [encodeWith, List.flatMap_cons, List.flatMap_cons, hhigh, hlow, List.singleton_append, List.singleton_append,
      pairs, hhigh', hlow', ih]
    show Except.ok (UInt8.ofNat (16 * (b.toNat / 16) + b.toNat % 16) :: bs) = .ok (b :: bs)
    rw [Nat.div_add_mod, UInt8.ofNat_toNat]

theorem decodeText_upper (bs : List UInt8) : decodeText (upper bs) = .ok bs := by
  have hoctets : (upper bs).toUTF8.toList = (encodeWith upperDigit bs).flatMap String.utf8EncodeChar :=
    Utf8.encode_ofList _
  have heven : ¬ ((encodeWith upperDigit bs).flatMap String.utf8EncodeChar).length % 2 = 1 := by
    rw [length_octets_upper]
    omega
  rw [decodeText, hoctets, decode, if_neg heven, pairs_upper]

end Text.Hex

/-! ### Events and transactions -/

open Json

theorem Attribute.plain_toJson (a : Attribute) : Plain a.toJson := by
  refine .record fun f hf => ?_
  simp only [List.mem_cons, List.not_mem_nil, or_false] at hf
  rcases hf with rfl | rfl <;> exact .text _

theorem Attribute.ofJson?_toJson (a : Attribute) : ofJson? a.toJson = some a := by
  have hfields : a.toJson.fields? ["key", "value"] = some [some (.text a.key), some (.text a.value)] := by
    rw [toJson]
    exact fields?_record (show ["key", "value"].Nodup by decide)
  unfold ofJson?
  rw [hfields]
  rfl

theorem RawEvent.plain_toJson (e : RawEvent) : Plain e.toJson := by
  refine .record fun f hf => ?_
  simp only [List.mem_cons, List.not_mem_nil, or_false] at hf
  rcases hf with rfl | rfl
  · exact .text _
  · exact .list Attribute.plain_toJson _

theorem RawEvent.ofJson?_toJson (e : RawEvent) : ofJson? e.toJson = some e := by
  have hfields : e.toJson.fields? ["type", "attributes"] =
      some [some (.text e.kind), some (.list Attribute.toJson e.attributes)] := by
    rw [toJson]
    exact fields?_record (show ["type", "attributes"].Nodup by decide)
  have hattributes : Json.list? Attribute.ofJson? (.list Attribute.toJson e.attributes) = some e.attributes :=
    list?_list fun a _ => a.ofJson?_toJson
  unfold ofJson?
  rw [hfields]
  simp only [required, orElse, hattributes]
  rfl

theorem RawEvent.listOfJson?_list (es : List RawEvent) : listOfJson? (.list toJson es) = some es :=
  list?_list fun e _ => e.ofJson?_toJson

theorem TxResult.plain_toJson (t : TxResult) : Plain t.toJson := by
  refine .record fun f hf => ?_
  simp only [List.mem_cons, List.not_mem_nil, or_false] at hf
  rcases hf with rfl | rfl
  · exact .nat (Nat.lt_trans t.code.toNat_lt (by decide))
  · exact .list RawEvent.plain_toJson _

theorem TxResult.ofJson?_toJson (t : TxResult) : ofJson? t.toJson = some t := by
  have hfields : t.toJson.fields? ["code", "events"] =
      some [some (.nat t.code.toNat), some (.list RawEvent.toJson t.events)] := by
    rw [toJson]
    exact fields?_record (show ["code", "events"].Nodup by decide)
  have hcode : Json.word? 32 (.nat t.code.toNat) = some t.code.toNat := if_pos t.code.toNat_lt
  unfold ofJson?
  rw [hfields]
  simp only [orElse, hcode, RawEvent.listOfJson?_list, Option.bind_eq_bind, Option.bind_some, UInt32.ofNat_toNat]
  rfl

/-! ### Blocks -/

namespace Block

theorem plain_toJson (b : Block) : Plain b.toJson := by
  refine .record fun f hf => ?_
  simp only [List.mem_cons, List.not_mem_nil, or_false] at hf
  rcases hf with rfl | rfl | rfl | rfl | rfl | rfl
  · exact .int64 _
  · exact .text _
  · exact .text _
  · exact .list RawEvent.plain_toJson _
  · exact .list TxResult.plain_toJson _
  · exact .list RawEvent.plain_toJson _

theorem ofJson?_toJson {b : Block} (h : b.timestamp.IsValid) : ofJson? b.toJson = some b := by
  have hfields : b.toJson.fields? ["height", "timestamp", "hash", "begin_events", "txs", "end_events"] =
      some [some (.int64 b.height), some (.text b.timestamp.render), some (.text b.hashHex),
        some (.list RawEvent.toJson b.beginEvents), some (.list TxResult.toJson b.txs),
        some (.list RawEvent.toJson b.endEvents)] := by
    rw [toJson]
    exact fields?_record (show ["height", "timestamp", "hash", "begin_events", "txs", "end_events"].Nodup by decide)
  have hheight : Json.int64? (.int64 b.height) = some b.height := Checked.fit?_toInt b.height
  have htimestamp : (Json.text b.timestamp.render).text?.bind Instant.parse? = some b.timestamp := by
    show (some b.timestamp.render).bind Instant.parse? = _
    rw [Option.bind_some, Instant.parse?_render h]
  have hhash : hashOfJson? (.text b.hashHex) = some b.hash := by
    show (Text.Hex.decodeText (Text.Hex.upper b.hash)).toOption = _
    rw [Text.Hex.decodeText_upper]
    rfl
  have htxs : Json.list? TxResult.ofJson? (.list TxResult.toJson b.txs) = some b.txs :=
    list?_list fun t _ => t.ofJson?_toJson
  unfold ofJson?
  rw [hfields]
  simp only [required, orElse, hheight, htimestamp, hhash, htxs, RawEvent.listOfJson?_list, Option.bind_eq_bind,
    Option.bind_some]
  rfl

/-- **A block with a time of the calendar is read back.** -/
theorem parse?_render {b : Block} (h : b.timestamp.IsValid) : parse? b.render = some b := by
  rw [parse?, render, parse_render b.plain_toJson, Option.bind_some, ofJson?_toJson h]

theorem le_of_mem_render {b : Block} {c : Char} (h : c ∈ b.render.toList) : 0x20 ≤ c.toNat := by
  rw [render, Json.render, String.toList_ofList] at h
  exact le_of_mem_renderChars b.plain_toJson h

end Block

end PoolIndexer
