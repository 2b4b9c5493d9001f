import Mathlib.Algebra.GroupWithZero.Nat
import PoolIndexer.Proofs.Basic
import PoolIndexer.Proofs.Record.Snapshot
import PoolIndexer.Proofs.Text.Utf8.Order

/-!
# Proofs.Record.Layout — which octets are a snapshot

* `Snapshot.Layout`: the version, three blocks of entries in any order, and whatever follows.
* `Snapshot.decode_eq_ok_iff`: exactly the octets of such a layout are read, each reader passing over
  what its writer would have written.
* `Ledger.get?_ofList`: of equal keys the last one counts.
* `Snapshot.decode_exact`: a snapshot is written again as it stands exactly if nothing follows it and
  the keys of each block increase.
-/

namespace PoolIndexer

/-! ### Ledgers from entries in any order -/

namespace Ledger

theorem get?_foldl_insert (entries : List (String × Int64)) (k : String) :
    ∀ l : Ledger, (entries.foldl (fun l e => l.insert e.1 e.2) l).get? k =
      (entries.reverse.lookup k).or (l.get? k) := by
  induction entries with
  | nil => intro l; rfl
  | cons e rest ih =>
    intro l
    rw [List.foldl_cons, ih, get?_insert, List.reverse_cons, List.lookup_append, Option.or_assoc]
    congr 1
    obtain ⟨key, amount⟩ := e
    by_cases hk : k = key
    · simp [hk]
    · have hbeq : (k == key) = false := by simp [hk]
      simp [List.lookup_cons, hk, hbeq]

/-- Of equal keys the last one counts. -/
theorem get?_ofList (entries : List (String × Int64)) (k : String) :
    (ofList entries).get? k = entries.reverse.lookup k := by
  have hfold := get?_foldl_insert entries k empty
  have hempty : empty.get? k = none := rfl
  rw [hempty, Option.or_none] at hfold
  exact hfold

theorem entries_ofList_of_increasing {entries : List (String × Int64)} (h : Increasing entries) :
    (ofList entries).entries = entries := by
  have hfold := entries_foldl_insert entries empty (by simpa [empty] using h)
  simpa [ofList, empty] using hfold

theorem mem_foldl_insert {entries : List (String × Int64)} {e : String × Int64} :
    ∀ {l : Ledger}, e ∈ (entries.foldl (fun l e => l.insert e.1 e.2) l).entries →
      e ∈ l.entries ∨ e ∈ entries := by
  induction entries with
  | nil => intro l h; exact .inl h
  | cons e' rest ih =>
    intro l h
    rcases ih h with hins | hrest
    · rcases mem_insertEntry hins with rfl | hl
      · exact .inr List.mem_cons_self
      · exact .inl hl
    · exact .inr (List.mem_cons_of_mem _ hrest)

theorem mem_ofList {entries : List (String × Int64)} {e : String × Int64}
    (h : e ∈ (ofList entries).entries) : e ∈ entries := by
  rcases mem_foldl_insert h with hnil | hmem
  · cases hnil
  · exact hmem

theorem sum_insertEntry_le (weight : String × Int64 → Nat) (k : String) (n : Int64)
    (entries : List (String × Int64)) :
    ((insertEntry k n entries).map weight).sum ≤ (entries.map weight).sum + weight (k, n) := by
  induction entries with
  | nil => simp [insertEntry]
  | cons head rest ih =>
    obtain ⟨k', n'⟩ := head
    unfold insertEntry
    split
    · simp only [List.map_cons, List.sum_cons]
      omega
    · split
      · simp only [List.map_cons, List.sum_cons]
        omega
      · simp only [List.map_cons, List.sum_cons]
        omega

theorem sum_foldl_insert_le (weight : String × Int64 → Nat) (entries : List (String × Int64)) :
    ∀ l : Ledger, ((entries.foldl (fun l e => l.insert e.1 e.2) l).entries.map weight).sum ≤
      (l.entries.map weight).sum + (entries.map weight).sum := by
  induction entries with
  | nil => intro l; simp
  | cons e rest ih =>
    intro l
    have hrest := ih (l.insert e.1 e.2)
    have hins : ((l.insert e.1 e.2).entries.map weight).sum ≤ (l.entries.map weight).sum + weight e :=
      sum_insertEntry_le weight e.1 e.2 l.entries
    rw [List.foldl_cons, List.map_cons, List.sum_cons]
    omega

/-- What entries weigh together does not grow when equal keys are merged. -/
theorem sum_ofList_le (weight : String × Int64 → Nat) (entries : List (String × Int64)) :
    ((ofList entries).entries.map weight).sum ≤ (entries.map weight).sum := by
  have hfold := sum_foldl_insert_le weight entries empty
  simpa [ofList, empty] using hfold

theorem length_ofList_le (entries : List (String × Int64)) :
    (ofList entries).entries.length ≤ entries.length := by
  have hsum := sum_ofList_le (fun _ => 1) entries
  rw [List.map_const', List.map_const', List.sum_replicate_nat, List.sum_replicate_nat] at hsum
  omega

end Ledger

namespace Snapshot

/-! ### The room that entries take -/

/-- Entries as octets, in the order they are given. -/
def block (es : List (String × Int64)) : List UInt8 := word es.length ++ es.flatMap entry

theorem ledger_eq_block (l : Ledger) : ledger l = block l.entries := rfl

theorem length_block (es : List (String × Int64)) :
    (block es).length = 8 + (es.flatMap entry).length := by
  rw [block, List.length_append, word, length_octets]

/-- A ledger takes no more room than the entries it was made from. -/
theorem length_ledger_ofList_le (es : List (String × Int64)) :
    (ledger (.ofList es)).length ≤ (block es).length := by
  have hsum := Ledger.sum_ofList_le (fun e => (entry e).length) es
  rw [ledger_eq_block, length_block, length_block, List.length_flatMap, List.length_flatMap]
  omega

/-! ### Words that are read -/

theorem octets_ofOctets (bs : List UInt8) : octets bs.length (ofOctets bs) = bs := by
  induction bs with
  | nil => rfl
  | cons b rest ih =>
    have hb : b.toNat < 256 := b.toNat_lt
    have hlow : (b.toNat + 256 * ofOctets rest) % 256 = b.toNat := by omega
    have hhigh : (b.toNat + 256 * ofOctets rest) / 256 = ofOctets rest := by omega
    rw [ofOctets, List.length_cons, octets, hlow, hhigh, ih, UInt8.ofNat_toNat]

theorem ofOctets_lt (bs : List UInt8) : ofOctets bs < 256 ^ bs.length := by
  induction bs with
  | nil => exact Nat.one_pos
  | cons b rest ih =>
    have hb : b.toNat < 256 := b.toNat_lt
    rw [ofOctets, List.length_cons, Nat.pow_succ]
    omega

theorem readWord_eq_ok {bs rest : List UInt8} {n : Nat} (h : readWord bs = .ok (n, rest)) :
    n < UInt64.size ∧ bs = word n ++ rest := by
  unfold readWord at h
  split at h
  · cases h
  · rename_i hlong
    have hlen : (bs.take 8).length = 8 := by
      rw [List.length_take]
      omega
    cases h
    have hlt := ofOctets_lt (bs.take 8)
    have hword := octets_ofOctets (bs.take 8)
    rw [hlen] at hlt hword
    refine ⟨hlt, ?_⟩
    rw [word, hword, List.take_append_drop]

/-! ### Keys and entries that are read -/

theorem readKey_eq_ok {bs rest : List UInt8} {s : String} (h : readKey bs = .ok (s, rest)) :
    KeyFits s ∧ bs = key s ++ rest := by
  obtain ⟨⟨length, behind⟩, hword, hkey⟩ := bind_eq_ok_iff.1 h
  obtain ⟨hlt, rfl⟩ := readWord_eq_ok hword
  dsimp only at hkey
  split at hkey
  · cases hkey
  · rename_i hlong
    cases hdecode : Text.Utf8.decode (behind.take length) with
    | error f =>
      rw [hdecode] at hkey
      cases hkey
    | ok s' =>
      rw [hdecode] at hkey
      cases hkey
      have htext : behind.take length = Text.Utf8.encode s := Text.Utf8.decode_eq_ok_iff.1 hdecode
      have hlen : (Text.Utf8.encode s).length = length := by
        rw [← htext, List.length_take]
        omega
      refine ⟨show (Text.Utf8.encode s).length < _ from hlen ▸ hlt, ?_⟩
      have hsplit : behind = Text.Utf8.encode s ++ behind.drop length := by
        rw [← htext, List.take_append_drop]
      calc word length ++ behind
          = word length ++ (Text.Utf8.encode s ++ behind.drop length) := by rw [← hsplit]
        _ = key s ++ behind.drop length := by rw [key, hlen, List.append_assoc]

theorem amount_ofNat {n : Nat} (h : n < UInt64.size) : amount (UInt64.ofNat n).toInt64 = word n := by
  rw [amount, UInt64.toUInt64_toInt64, UInt64.toNat_ofNat_of_lt' h]

theorem readEntry_eq_ok {bs rest : List UInt8} {e : String × Int64} (h : readEntry bs = .ok (e, rest)) :
    KeyFits e.1 ∧ bs = entry e ++ rest := by
  obtain ⟨⟨k, behind⟩, hkey, h⟩ := bind_eq_ok_iff.1 h
  obtain ⟨⟨n, behind'⟩, hword, h⟩ := bind_eq_ok_iff.1 h
  cases h
  obtain ⟨hfits, rfl⟩ := readKey_eq_ok hkey
  obtain ⟨hlt, rfl⟩ := readWord_eq_ok hword
  refine ⟨hfits, ?_⟩
  rw [entry, amount_ofNat hlt, List.append_assoc]

theorem readEntries_eq_ok {count : Nat} {bs rest : List UInt8} {es : List (String × Int64)}
    (h : readEntries count bs = .ok (es, rest)) :
    es.length = count ∧ (∀ e ∈ es, KeyFits e.1) ∧ bs = es.flatMap entry ++ rest := by
  induction count generalizing bs es with
  | zero =>
    cases h
    exact ⟨rfl, fun _ he => absurd he List.not_mem_nil, rfl⟩
  | succ count ih =>
    obtain ⟨⟨e, behind⟩, hentry, h⟩ := bind_eq_ok_iff.1 h
    obtain ⟨⟨es', behind'⟩, hentries, h⟩ := bind_eq_ok_iff.1 h
    cases h
    obtain ⟨hfits, rfl⟩ := readEntry_eq_ok hentry
    obtain ⟨hlen, hall, rfl⟩ := ih hentries
    refine ⟨by simp [hlen], List.forall_mem_cons.2 ⟨hfits, hall⟩, ?_⟩
    simp [List.flatMap_cons, List.append_assoc]

/-! ### Blocks -/

/-- Whether the number of entries and the lengths of the keys fit into words. -/
def EntriesFit (es : List (String × Int64)) : Prop := es.length < UInt64.size ∧ ∀ e ∈ es, KeyFits e.1

theorem readLedger_block {es : List (String × Int64)} (h : EntriesFit es) (rest : List UInt8) :
    readLedger (block es ++ rest) = .ok (.ofList es, rest) := by
  simp only [readLedger, block, List.append_assoc, readWord_word h.1, readEntries_flatMap h.2, bind,
    Except.bind]

theorem readLedger_eq_ok {bs rest : List UInt8} {l : Ledger} (h : readLedger bs = .ok (l, rest)) :
    ∃ es, EntriesFit es ∧ bs = block es ++ rest ∧ l = .ofList es := by
  obtain ⟨⟨count, behind⟩, hword, h⟩ := bind_eq_ok_iff.1 h
  obtain ⟨⟨es, behind'⟩, hentries, h⟩ := bind_eq_ok_iff.1 h
  cases h
  obtain ⟨hlt, rfl⟩ := readWord_eq_ok hword
  obtain ⟨hlen, hall, rfl⟩ := readEntries_eq_ok hentries
  refine ⟨es, ⟨hlen ▸ hlt, hall⟩, ?_, rfl⟩
  rw [block, hlen, List.append_assoc]

/-- A block ends where it says. -/
theorem block_append_inj {es es' : List (String × Int64)} (h : EntriesFit es) (h' : EntriesFit es')
    {rest rest' : List UInt8} (heq : block es ++ rest = block es' ++ rest') : es = es' ∧ rest = rest' := by
  simp only [block, List.append_assoc] at heq
  have hword := readWord_word h.1 (es.flatMap entry ++ rest)
  rw [heq, readWord_word h'.1] at hword
  injection hword with hword
  injection hword with hcount hentries
  have hread := readEntries_flatMap h.2 rest
  rw [← hentries, ← hcount, readEntries_flatMap h'.2] at hread
  injection hread with hread
  injection hread with hes hrest
  exact ⟨hes.symm, hrest.symm⟩

theorem EntriesFit.ofList {es : List (String × Int64)} (h : EntriesFit es) : LedgerFits (.ofList es) := by
  obtain ⟨hcount, hkeys⟩ := h
  refine ⟨?_, fun e he => hkeys e (Ledger.mem_ofList he)⟩
  exact Nat.lt_of_le_of_lt (Ledger.length_ofList_le es) hcount

/-! ### Snapshots -/

/-- Octets that begin with the version and three blocks, the `rest` of them behind. -/
structure Layout (bs : List UInt8) (asset rune synth : List (String × Int64)) (rest : List UInt8) :
    Prop where
  octets : bs = version :: (block asset ++ (block rune ++ (block synth ++ rest)))
  asset : EntriesFit asset
  rune : EntriesFit rune
  synth : EntriesFit synth

/-- The totals that three lists of entries stand for. -/
def totals (asset rune synth : List (String × Int64)) : Totals :=
  ⟨.ofList asset, .ofList rune, .ofList synth, 0⟩

theorem readTotals_eq_ok {bs : List UInt8} {t : Totals} (h : readTotals bs = .ok t) :
    ∃ asset rune synth rest, Layout (version :: bs) asset rune synth rest ∧ t = totals asset rune synth := by
  obtain ⟨⟨a, behind⟩, hasset, h⟩ := bind_eq_ok_iff.1 h
  obtain ⟨⟨r, behind'⟩, hrune, h⟩ := bind_eq_ok_iff.1 h
  obtain ⟨⟨s, rest⟩, hsynth, h⟩ := bind_eq_ok_iff.1 h
  cases h
  obtain ⟨asset, hassetFits, rfl, rfl⟩ := readLedger_eq_ok hasset
  obtain ⟨rune, hruneFits, rfl, rfl⟩ := readLedger_eq_ok hrune
  obtain ⟨synth, hsynthFits, rfl, rfl⟩ := readLedger_eq_ok hsynth
  exact ⟨asset, rune, synth, rest, ⟨rfl, hassetFits, hruneFits, hsynthFits⟩, rfl⟩

variable {bs rest : List UInt8} {asset rune synth : List (String × Int64)} {height : Int64} {t : Totals}

theorem decode_layout (h : Layout bs asset rune synth rest) (height : Int64) :
    decode bs height = .ok (totals asset rune synth) := by
  obtain ⟨rfl, hasset, hrune, hsynth⟩ := h
  have hread : readTotals (block asset ++ (block rune ++ (block synth ++ rest))) =
      .ok (totals asset rune synth) := by
    simp only [readTotals, readLedger_block hasset, readLedger_block hrune, readLedger_block hsynth, bind,
      Except.bind, totals]
  simp only [decode, if_pos, hread]

/-- Totals are read from the octets of a layout and from no others. -/
theorem decode_eq_ok_iff :
    decode bs height = .ok t ↔
      ∃ asset rune synth rest, Layout bs asset rune synth rest ∧ t = totals asset rune synth := by
  constructor
  · intro h
    unfold decode at h
    split at h
    · cases h
    · rename_i v body
      split at h
      · rename_i hversion
        subst hversion
        split at h
        · rename_i t' hread
          cases h
          exact readTotals_eq_ok hread
        · cases h
      · cases h
  · rintro ⟨asset, rune, synth, rest, hlayout, rfl⟩
    exact decode_layout hlayout height

/-- There is but one way to take octets for a snapshot. -/
theorem Layout.unique {asset' rune' synth' : List (String × Int64)} {rest' : List UInt8}
    (h : Layout bs asset rune synth rest) (h' : Layout bs asset' rune' synth' rest') :
    asset = asset' ∧ rune = rune' ∧ synth = synth' ∧ rest = rest' := by
  have heq := h.octets.symm.trans h'.octets
  injection heq with _ hblocks
  obtain ⟨hasset, hbehind⟩ := block_append_inj h.asset h'.asset hblocks
  obtain ⟨hrune, hbehind'⟩ := block_append_inj h.rune h'.rune hbehind
  obtain ⟨hsynth, hrest⟩ := block_append_inj h.synth h'.synth hbehind'
  exact ⟨hasset, hrune, hsynth, hrest⟩

/-- The snapshot of any totals whose words fit is a layout with nothing behind it. -/
theorem layout_encode (ha : LedgerFits t.asset) (hr : LedgerFits t.rune) (hs : LedgerFits t.synth) :
    Layout (encode t) t.asset.entries t.rune.entries t.synth.entries [] := by
  refine ⟨?_, ha, hr, hs⟩
  simp [encode, ledger_eq_block]

/-- The snapshot of what a layout stands for is a layout of the merged entries. -/
theorem Layout.merged (h : Layout bs asset rune synth rest) :
    Layout (encode (totals asset rune synth)) (Ledger.ofList asset).entries (Ledger.ofList rune).entries
      (Ledger.ofList synth).entries [] :=
  layout_encode h.asset.ofList h.rune.ofList h.synth.ofList

theorem Layout.length_encode_le (h : Layout bs asset rune synth rest) :
    (Snapshot.encode (totals asset rune synth)).length ≤ bs.length := by
  have ha := length_ledger_ofList_le asset
  have hr := length_ledger_ofList_le rune
  have hs := length_ledger_ofList_le synth
  rw [h.octets]
  simp only [Snapshot.encode, totals, List.cons_append, List.length_cons, List.length_append]
  omega

/-- The keys increase in the order of their octets. -/
def KeysIncrease (es : List (String × Int64)) : Prop :=
  es.Pairwise fun e e' => Text.Utf8.encode e.1 < Text.Utf8.encode e'.1

theorem keysIncrease_iff {es : List (String × Int64)} : KeysIncrease es ↔ Increasing es := by
  unfold KeysIncrease Increasing
  simp only [Text.Utf8.lt_iff_encode_lt]

/-- Octets are written again as they stand exactly if each block is sorted and nothing follows. -/
theorem Layout.encode_eq_iff (h : Layout bs asset rune synth rest) :
    Snapshot.encode (totals asset rune synth) = bs ↔
      rest = [] ∧ KeysIncrease asset ∧ KeysIncrease rune ∧ KeysIncrease synth := by
  simp only [keysIncrease_iff]
  constructor
  · intro heq
    have hencoded := h.merged
    rw [heq] at hencoded
    obtain ⟨hasset, hrune, hsynth, hrest⟩ := h.unique hencoded
    refine ⟨hrest, ?_, ?_, ?_⟩
    · rw [hasset]
      exact Ledger.increasing _
    · rw [hrune]
      exact Ledger.increasing _
    · rw [hsynth]
      exact Ledger.increasing _
  · rintro ⟨rfl, hasset, hrune, hsynth⟩
    rw [h.octets]
    simp [Snapshot.encode, totals, ledger_eq_block, Ledger.entries_ofList_of_increasing, hasset, hrune,
      hsynth]

/-- **Snapshots**: totals that memory has room for are written and read back.  Octets are read exactly
if they are the version and three blocks of entries with anything behind; then of equal keys the last
one counts, what is read can be written and read again, and it is written as it stands exactly if
nothing is behind and the keys of each block increase. -/
theorem codec_exact (height : Int64) :
    (∀ t : Totals,
      write t = .ok (encode t) ∧ decode (encode t) height = .ok { t with overflows := 0 } ∨
        write t = .error .capacity ∧ Int64.maxValue.toInt < (encode t).length) ∧
    ∀ bs : List UInt8,
      ((∃ t, decode bs height = .ok t) ↔ ∃ asset rune synth rest, Layout bs asset rune synth rest) ∧
      ∀ t asset rune synth rest, decode bs height = .ok t → Layout bs asset rune synth rest →
        t.overflows = 0 ∧ (∀ k, t.asset.get? k = asset.reverse.lookup k) ∧
        (∀ k, t.rune.get? k = rune.reverse.lookup k) ∧ (∀ k, t.synth.get? k = synth.reverse.lookup k) ∧
        decode (encode t) height = .ok t ∧
        ((bs.length : Int) ≤ Int64.maxValue.toInt → write t = .ok (encode t)) ∧
        (encode t = bs ↔ rest = [] ∧ KeysIncrease asset ∧ KeysIncrease rune ∧ KeysIncrease synth) := by
  refine ⟨fun t => ?_, fun bs => ⟨⟨?_, ?_⟩, ?_⟩⟩
  · by_cases hroom : ((encode t).length : Int) ≤ Int64.maxValue.toInt
    · have hwrite : write t = .ok (encode t) := if_pos hroom
      exact .inl ⟨hwrite, decode_of_write hwrite height⟩
    · exact .inr ⟨if_neg hroom, Int.not_le.1 hroom⟩
  · rintro ⟨t, h⟩
    obtain ⟨asset, rune, synth, rest, hlayout, -⟩ := decode_eq_ok_iff.1 h
    exact ⟨asset, rune, synth, rest, hlayout⟩
  · rintro ⟨asset, rune, synth, rest, hlayout⟩
    exact ⟨_, decode_layout hlayout height⟩
  · intro t asset rune synth rest h hlayout
    have ht : t = totals asset rune synth := by
      rw [decode_layout hlayout height] at h
      injection h with h
      exact h.symm
    subst ht
    refine ⟨rfl, Ledger.get?_ofList asset, Ledger.get?_ofList rune, Ledger.get?_ofList synth, ?_, ?_,
      hlayout.encode_eq_iff⟩
    · have hread := decode_layout hlayout.merged height
      simp only [totals, Ledger.ofList_entries] at hread ⊢
      exact hread
    · intro hroom
      have hlength := hlayout.length_encode_le
      exact if_pos (by omega)

/-- Of an unsorted block with a key given twice, and an octet behind it all, the last amount is kept. -/
theorem codec_unsorted :
    let asset : List (String × Int64) := [("B", 1), ("A", 2), ("B", 3)]
    let bs := version :: (block asset ++ (block [] ++ (block [] ++ [7])))
    let t := totals asset [] []
    decode bs 5 = .ok t ∧ Layout bs asset [] [] [7] ∧ t.asset.get? "B" = some 3 ∧
      decode (encode t) 5 = .ok t ∧ encode t ≠ bs := by
  intro asset bs t
  have hkeys : ∀ e ∈ asset, (Text.Utf8.encode e.1).length < UInt64.size := by decide +kernel
  have hfits : EntriesFit asset := ⟨by decide, hkeys⟩
  have hnone : EntriesFit [] := ⟨by decide, fun _ he => absurd he List.not_mem_nil⟩
  have hlayout : Layout bs asset [] [] [7] := ⟨rfl, hfits, hnone, hnone⟩
  have hdecode : decode bs 5 = .ok t := decode_layout hlayout 5
  obtain ⟨-, hget, -, -, hagain, -, hsame⟩ := ((codec_exact 5).2 bs).2 t asset [] [] [7] hdecode hlayout
  refine ⟨hdecode, hlayout, (hget "B").trans rfl, hagain, fun heq => ?_⟩
  exact List.cons_ne_nil _ _ (hsame.1 heq).1

end Snapshot

end PoolIndexer
