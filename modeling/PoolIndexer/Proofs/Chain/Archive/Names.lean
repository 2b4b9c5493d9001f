import PoolIndexer.Chain.Archive.Batch
import PoolIndexer.Proofs.Basic
import PoolIndexer.Proofs.Text.Decimal

/-!
# Proofs.Chain.Archive.Names — what the names of batches say

* `heightOf?_batchName`: up to twelve digits the name of a batch gives back its height.
* `batch?_of_isOpenName`: a batch that is being written does not count as one.
* `batches_discard`: so discarding such batches does not change what an archive holds.
-/

namespace PoolIndexer.Archive

/-! ### Complete batches -/

section

variable {h : Int64}

theorem toList_batchName (hlow : 0 ≤ h.toInt) (hhigh : h.toInt < 10 ^ 12) :
    (batchName h).toList = Text.Decimal.lastDigits 12 h.toInt.toNat := by
  obtain ⟨n, hn⟩ := Int.eq_ofNat_of_zero_le hlow
  have hwide : n < Nat.pow 10 12 := by
    have : n < 10 ^ 12 := by omega
    exact this
  unfold batchName
  rw [hn]
  show (String.ofList (Text.Decimal.padded 12 n)).toList = _
  rw [String.toList_ofList, Text.Decimal.padded, if_pos hwide, Int.toNat_natCast]

theorem isDigit_of_mem_batchName (hlow : 0 ≤ h.toInt) (hhigh : h.toInt < 10 ^ 12) :
    ∀ c ∈ (batchName h).toList, Text.Decimal.isDigit c = true := by
  rw [toList_batchName hlow hhigh]
  exact Text.Decimal.isDigit_of_mem_lastDigits

/-- **The name gives the height back.** -/
theorem heightOf?_batchName (hlow : 0 ≤ h.toInt) (hhigh : h.toInt < 10 ^ 12) : heightOf? (batchName h) = some h := by
  have hdigits : ∀ c ∈ Text.Decimal.lastDigits 12 h.toInt.toNat, Text.Decimal.isDigit c = true :=
    Text.Decimal.isDigit_of_mem_lastDigits
  have hvalue : Text.Decimal.value? (Text.Decimal.lastDigits 12 h.toInt.toNat) = some h.toInt.toNat :=
    Text.Decimal.value?_lastDigits (by decide) (by omega)
  have hcond : ((Text.Decimal.lastDigits 12 h.toInt.toNat).length = 12 &&
      (Text.Decimal.lastDigits 12 h.toInt.toNat).all Text.Decimal.isDigit) = true := by
    rw [Bool.and_eq_true, decide_eq_true_eq, List.all_eq_true]
    exact ⟨Text.Decimal.length_lastDigits 12 _, hdigits⟩
  unfold heightOf?
  rw [toList_batchName hlow hhigh, if_pos hcond, Text.Decimal.int64?, Text.Decimal.signed?_of_digits hdigits hvalue,
    Option.bind_some, Int.toNat_of_nonneg hlow, Checked.fit?_toInt]

theorem batch?_batchName (hlow : 0 ≤ h.toInt) (hhigh : h.toInt < 10 ^ 12) :
    batch? (batchName h) = some ⟨batchName h, h⟩ := by
  rw [batch?, heightOf?_batchName hlow hhigh, Option.map_some]

theorem isOpenName_batchName (hlow : 0 ≤ h.toInt) (hhigh : h.toInt < 10 ^ 12) : isOpenName (batchName h) = false := by
  refine Bool.eq_false_iff.2 fun hopen => ?_
  have hsuffix : openSuffix.toList <:+ (batchName h).toList := by simpa [isOpenName] using hopen
  have hpoint := isDigit_of_mem_batchName hlow hhigh '.' (hsuffix.subset (by decide))
  exact absurd hpoint (by decide)

end

/-! ### Other names -/

theorem not_point_mem_batchName (h : Int64) : '.' ∉ (batchName h).toList := by
  have hpadded : ∀ width n, '.' ∉ Text.Decimal.padded width n := fun width n hmem =>
    absurd (Text.Decimal.isDigit_of_mem_padded '.' hmem) (by decide)
  unfold batchName
  cases h.toInt with
  | ofNat n => simpa using hpadded 12 n
  | negSucc n => simpa using hpadded 11 (n + 1)

/-- A batch that is being written never has the name of a complete one. -/
theorem batchName_ne_openName (h h' : Int64) : batchName h ≠ openName h' := by
  intro hname
  refine not_point_mem_batchName h ?_
  rw [hname, openName, String.toList_append]
  exact List.mem_append_right _ (by decide)

/-- Different heights have different names, also those that are not read again. -/
theorem batchName_injective {h h' : Int64} (hname : batchName h = batchName h') : h = h' := by
  have hvalue : ∀ {width n m : Nat}, 0 < width → Text.Decimal.padded width n = Text.Decimal.padded width m → n = m := by
    intro width n m hwidth heq
    have hn := Text.Decimal.value?_padded hwidth n
    rw [heq, Text.Decimal.value?_padded hwidth m] at hn
    exact (Option.some.inj hn).symm
  have hsign : ∀ n m, Text.Decimal.padded 12 n ≠ '-' :: Text.Decimal.padded 11 m := by
    intro n m heq
    have hdigit := Text.Decimal.isDigit_of_mem_padded '-' (heq ▸ List.mem_cons_self)
    exact absurd hdigit (by decide)
  refine Int64.toInt_inj.1 ?_
  unfold batchName at hname
  cases hn : h.toInt with
  | ofNat n =>
    cases hm : h'.toInt with
    | ofNat m =>
      rw [hn, hm] at hname
      rw [hvalue (by decide) (String.ofList_injective hname)]
    | negSucc m =>
      rw [hn, hm] at hname
      exact absurd (String.ofList_injective hname) (hsign n (m + 1))
  | negSucc n =>
    cases hm : h'.toInt with
    | ofNat m =>
      rw [hn, hm] at hname
      exact absurd (String.ofList_injective hname).symm (hsign m (n + 1))
    | negSucc m =>
      rw [hn, hm] at hname
      have htail := (List.cons.inj (String.ofList_injective hname)).2
      rw [Nat.succ.inj (hvalue (by decide) htail)]

/-- A name that is read as a height at all is read as the one it was made of. -/
theorem eq_of_heightOf?_batchName {h h' : Int64} (hname : heightOf? (batchName h) = some h') : h' = h := by
  unfold heightOf? at hname
  split at hname
  · rename_i hcond
    have hdigits := (Bool.and_eq_true _ _ ▸ hcond).2
    unfold batchName at hname hdigits
    cases hn : h.toInt with
    | ofNat n =>
      simp only [hn, String.toList_ofList] at hname
      rw [Text.Decimal.int64?, Text.Decimal.signed?_of_digits Text.Decimal.isDigit_of_mem_padded
        (Text.Decimal.value?_padded (by decide) n), Option.bind_some] at hname
      exact Int64.toInt_inj.1 ((Checked.fit?_eq_some_iff.1 hname).trans hn.symm)
    | negSucc n =>
      simp only [hn, String.toList_ofList] at hdigits
      exact absurd (List.all_eq_true.1 hdigits '-' List.mem_cons_self) (by decide)
  · cases hname

/-! ### Batches that are being written -/

theorem isOpenName_openName (h : Int64) : isOpenName (openName h) = true := by
  simp [isOpenName, openName, String.toList_append]

theorem batch?_of_isOpenName {name : String} (h : isOpenName name = true) : batch? name = none := by
  have hsuffix : openSuffix.toList <:+ name.toList := by simpa [isOpenName] using h
  have hcond : ¬ (name.toList.length = 12 && name.toList.all Text.Decimal.isDigit) = true := by
    intro hname
    have hall := (Bool.and_eq_true _ _ ▸ hname).2
    have hpoint := List.all_eq_true.1 hall '.' (hsuffix.subset (by decide))
    exact absurd hpoint (by decide)
  rw [batch?, heightOf?, if_neg hcond, Option.map_none]

theorem batches_discard (f : Folder) : batches (discard f) = batches f := by
  have hnames : (discard f).names.filterMap batch? = f.names.filterMap batch? := by
    induction f with
    | nil => rfl
    | cons e f ih =>
      unfold discard Folder.names at ih ⊢
      rw [List.map_cons, List.filterMap_cons]
      cases hopen : isOpenName e.1 with
      | true => simpa [hopen, batch?_of_isOpenName hopen] using ih
      | false => simp [hopen, List.filterMap_cons, ih]
  rw [batches, hnames, batches]

/-- Discarding does not touch the complete batches. -/
theorem get?_discard (f : Folder) {name : String} (h : isOpenName name = false) :
    (discard f).get? name = f.get? name := by
  induction f with
  | nil => rfl
  | cons e f ih =>
    obtain ⟨key, item⟩ := e
    unfold discard Folder.get? at ih ⊢
    by_cases hname : name = key
    · subst hname
      simp [h]
    · have hne : (name == key) = false := beq_eq_false_iff_ne.2 hname
      cases hopen : isOpenName key <;> simp [hopen, List.lookup_cons, hne, ih]

/-! ### What a folder lists -/

theorem name_of_batch? {name : String} {b : Batch} (h : batch? name = some b) : b.name = name := by
  obtain ⟨height, -, rfl⟩ := Option.map_eq_some_iff.1 h
  rfl

/-- Erasing something else leaves the batches as they are. -/
theorem listed_erase {f : Folder} {name : String} (h : ∀ b ∈ f.names.filterMap batch?, b.name ≠ name) :
    (f.erase name).names.filterMap batch? = f.names.filterMap batch? := by
  induction f with
  | nil => rfl
  | cons e f ih =>
    have ih' := ih fun b hb =>
      h b (List.mem_filterMap.2 ((List.mem_filterMap.1 hb).imp fun _ hn => ⟨List.mem_cons_of_mem _ hn.1, hn.2⟩))
    unfold Folder.erase Folder.names at ih' ⊢
    by_cases hname : name = e.1
    · have hnone : batch? e.1 = none := by
        cases hb : batch? e.1 with
        | none => rfl
        | some b =>
          have hmem : b ∈ (Folder.names (e :: f)).filterMap batch? := List.mem_filterMap.2 ⟨e.1, List.mem_cons_self, hb⟩
          exact absurd ((name_of_batch? hb).trans hname.symm) (h b hmem)
      rw [List.filter_cons_of_neg (by simpa using hname), ih', List.map_cons, List.filterMap_cons_none hnone]
    · rw [List.filter_cons_of_pos (by simpa using hname), List.map_cons, List.map_cons, List.filterMap_cons,
        List.filterMap_cons, ih']

/-- What is put comes last. -/
theorem listed_put {f : Folder} {name : String} (h : ∀ b ∈ f.names.filterMap batch?, b.name ≠ name) (item : Item) :
    (f.put name item).names.filterMap batch? = f.names.filterMap batch? ++ (batch? name).toList := by
  have hnames : (f.put name item).names = (f.erase name).names ++ [name] := by
    simp [Folder.put, Folder.names]
  rw [hnames, List.filterMap_append, listed_erase h]
  cases hbatch : batch? name <;> simp [hbatch]

theorem ne_openName_of_mem_listed {f : Folder} {b : Batch} (hb : b ∈ f.names.filterMap batch?) (h : Int64) :
    b.name ≠ openName h := by
  obtain ⟨name, -, hname⟩ := List.mem_filterMap.1 hb
  intro hopen
  rw [← name_of_batch? hname, hopen, batch?_of_isOpenName (isOpenName_openName h)] at hname
  cases hname

end PoolIndexer.Archive
