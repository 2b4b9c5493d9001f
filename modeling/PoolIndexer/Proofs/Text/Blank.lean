import Mathlib.Data.List.TakeWhile
import PoolIndexer.Text.Blank

/-!
# Proofs.Text.Blank — words, trimming and parts of a text

* `words_append_blank`: the words of a text are those before and those behind any white space in it.  What
  surrounds a text therefore does not change its words (`words_trim`).
* `mem_words`: every word is a word, with characters of the text.
* `splitOn_intercalate`, `mem_splitOn`: the parts of a text without the separator, joined and split again.
-/

namespace PoolIndexer.Text

/-- Nothing but white space. -/
def Blank (cs : List Char) : Prop := ∀ c ∈ cs, isBlank c = true

instance (cs : List Char) : Decidable (Blank cs) := decidable_of_iff (cs.all isBlank = true) List.all_eq_true

/-- Some characters, none of which is white space. -/
structure IsWord (w : List Char) : Prop where
  ne_nil : w ≠ []
  solid : ∀ c ∈ w, isBlank c = false

theorem isWord_iff {w : List Char} : IsWord w ↔ w ≠ [] ∧ w.any isBlank = false := by
  constructor
  · exact fun h => ⟨h.ne_nil, by simpa using h.solid⟩
  · exact fun h => ⟨h.1, by simpa using h.2⟩

instance (w : List Char) : Decidable (IsWord w) := decidable_of_iff _ isWord_iff.symm

/-! ### Words -/

@[simp] theorem words_nil : words [] = [] := rfl

/-- White space closes the word that is open at the front; what is behind it is read on its own. -/
theorem openWords_append_blank {b : Char} (hb : isBlank b = true) (xs ys : List Char) :
    openWords (xs ++ b :: ys) = ((openWords xs).1, (openWords xs).2 ++ words ys) := by
  induction xs with
  | nil => simp [openWords, hb, words]
  | cons c xs ih =>
    rw [List.cons_append, openWords, ih, openWords]
    by_cases hc : isBlank c = true
    · by_cases hopen : (openWords xs).1.isEmpty = true <;> simp [hc, hopen]
    · simp [hc]

/-- **White space divides words.** -/
theorem words_append_blank {b : Char} (hb : isBlank b = true) (xs ys : List Char) :
    words (xs ++ b :: ys) = words xs ++ words ys := by
  simp only [words.eq_def (xs ++ b :: ys), openWords_append_blank hb, words.eq_def xs]
  by_cases hopen : (openWords xs).1.isEmpty = true <;> simp [hopen]

theorem words_of_isWord {w : List Char} (h : IsWord w) : words w = [w] := by
  have hopen : openWords w = (w, []) := by
    obtain ⟨-, hsolid⟩ := h
    induction w with
    | nil => rfl
    | cons c w ih =>
      obtain ⟨hc, hw⟩ := List.forall_mem_cons.1 hsolid
      rw [openWords, ih hw]
      simp [hc]
  simp [words, hopen, h.ne_nil]

theorem words_blank_append {gap : List Char} (h : Blank gap) (ys : List Char) : words (gap ++ ys) = words ys := by
  induction gap with
  | nil => rfl
  | cons b gap ih =>
    obtain ⟨hb, hgap⟩ := List.forall_mem_cons.1 h
    rw [List.cons_append, ← List.nil_append (b :: (gap ++ ys)), words_append_blank hb, words_nil, List.nil_append,
      ih hgap]

theorem words_of_blank {gap : List Char} (h : Blank gap) : words gap = [] := by
  simpa using words_blank_append h []

theorem words_append_of_blank (xs : List Char) {gap : List Char} (h : Blank gap) : words (xs ++ gap) = words xs := by
  cases gap with
  | nil => rw [List.append_nil]
  | cons b gap =>
    obtain ⟨hb, hgap⟩ := List.forall_mem_cons.1 h
    rw [words_append_blank hb, words_of_blank hgap, List.append_nil]

/-- Two words with white space around and between them. -/
theorem words_pair {before gap after v w : List Char} (hbefore : Blank before) (hv : IsWord v) (hgap : Blank gap)
    (hne : gap ≠ []) (hw : IsWord w) (hafter : Blank after) :
    words (before ++ v ++ gap ++ w ++ after) = [v, w] := by
  obtain ⟨b, gap, rfl⟩ := List.exists_cons_of_ne_nil hne
  obtain ⟨hb, hgap⟩ := List.forall_mem_cons.1 hgap
  have hregroup : before ++ v ++ b :: gap ++ w = before ++ (v ++ b :: (gap ++ w)) := by simp
  rw [words_append_of_blank _ hafter, hregroup, words_blank_append hbefore, words_append_blank hb,
    words_blank_append hgap, words_of_isWord hv, words_of_isWord hw, List.singleton_append]

theorem mem_openWords (cs : List Char) : (∀ c ∈ (openWords cs).1, isBlank c = false ∧ c ∈ cs) ∧
    ∀ w ∈ (openWords cs).2, IsWord w ∧ w ⊆ cs := by
  induction cs with
  | nil => simp [openWords]
  | cons c cs ih =>
    obtain ⟨hopen, hclosed⟩ := ih
    have hopen' : ∀ d ∈ (openWords cs).1, isBlank d = false ∧ d ∈ c :: cs :=
      fun d hd => ⟨(hopen d hd).1, List.mem_cons_of_mem c (hopen d hd).2⟩
    have hclosed' : ∀ w ∈ (openWords cs).2, IsWord w ∧ w ⊆ c :: cs :=
      fun w hw => ⟨(hclosed w hw).1, List.subset_cons_of_subset c (hclosed w hw).2⟩
    rw [openWords]
    by_cases hc : isBlank c = true
    · by_cases hnone : (openWords cs).1 = []
      · simpa [hc, hnone] using hclosed'
      · have hword : IsWord (openWords cs).1 := ⟨hnone, fun d hd => (hopen d hd).1⟩
        have hsub : (openWords cs).1 ⊆ c :: cs := fun d hd => (hopen' d hd).2
        simpa [hc, hnone] using ⟨⟨hword, hsub⟩, hclosed'⟩
    · simp only [hc, Bool.false_eq_true, if_false, List.forall_mem_cons]
      exact ⟨⟨⟨trivial, List.mem_cons_self⟩, hopen'⟩, hclosed'⟩

/-- A word of a text has no white space in it, and its characters are those of the text. -/
theorem mem_words {cs w : List Char} (h : w ∈ words cs) : IsWord w ∧ w ⊆ cs := by
  obtain ⟨hopen, hclosed⟩ := mem_openWords cs
  rw [words] at h
  by_cases hnone : (openWords cs).1 = []
  · exact hclosed w (by simpa [hnone] using h)
  · rcases List.mem_cons.1 (by simpa [hnone] using h) with rfl | h
    · exact ⟨⟨hnone, fun c hc => (hopen c hc).1⟩, fun c hc => (hopen c hc).2⟩
    · exact hclosed w h

/-! ### Trimming -/

theorem blank_takeWhile (cs : List Char) : Blank (cs.takeWhile isBlank) :=
  fun _ hc => List.mem_takeWhile_imp hc

/-- What is cut off is white space. -/
theorem exists_trim (cs : List Char) : ∃ before after, Blank before ∧ Blank after ∧ cs = before ++ trim cs ++ after := by
  have hright : ∀ xs : List Char, xs = trimRight xs ++ (xs.reverse.takeWhile isBlank).reverse := by
    intro xs
    rw [trimRight, ← List.reverse_append, List.takeWhile_append_dropWhile, List.reverse_reverse]
  refine ⟨cs.takeWhile isBlank, ((trimLeft cs).reverse.takeWhile isBlank).reverse, blank_takeWhile cs, ?_, ?_⟩
  · exact fun c hc => blank_takeWhile _ c (List.mem_reverse.1 hc)
  · rw [trim, List.append_assoc, ← hright, trimLeft, List.takeWhile_append_dropWhile]

theorem words_trim (cs : List Char) : words (trim cs) = words cs := by
  obtain ⟨before, after, hbefore, hafter, hcs⟩ := exists_trim cs
  have hwords := congrArg words hcs
  rw [words_append_of_blank _ hafter, words_blank_append hbefore] at hwords
  exact hwords.symm

theorem trim_subset (cs : List Char) : trim cs ⊆ cs := by
  obtain ⟨before, after, -, -, hcs⟩ := exists_trim cs
  intro c hc
  rw [hcs]
  simp [hc]

theorem trim_of_blank {gap : List Char} (h : Blank gap) : trim gap = [] := by
  have hleft : trimLeft gap = [] := List.dropWhile_eq_nil_iff.2 h
  rw [trim, hleft]
  rfl

/-! ### Parts between separators -/

section

variable {p : Char → Bool} {sep : Char}

theorem splitOn_append (hsep : p sep = true) {part : List Char} (hpart : ∀ d ∈ part, p d = false)
    (rest : List Char) : splitOn p (part ++ sep :: rest) = part :: splitOn p rest := by
  induction part with
  | nil => simp [splitOn, hsep]
  | cons d part ih =>
    obtain ⟨hd, hpart⟩ := List.forall_mem_cons.1 hpart
    simp [splitOn, hd, ih hpart]

theorem splitOn_of_forall {part : List Char} (hpart : ∀ d ∈ part, p d = false) : splitOn p part = [part] := by
  induction part with
  | nil => rfl
  | cons d part ih =>
    obtain ⟨hd, hpart⟩ := List.forall_mem_cons.1 hpart
    simp [splitOn, hd, ih hpart]

/-- Parts that are joined are found again. -/
theorem splitOn_intercalate (hsep : p sep = true) {parts : List (List Char)} (hne : parts ≠ [])
    (hparts : ∀ part ∈ parts, ∀ d ∈ part, p d = false) : splitOn p ([sep].intercalate parts) = parts := by
  induction parts with
  | nil => exact absurd rfl hne
  | cons part parts ih =>
    obtain ⟨hpart, hparts⟩ := List.forall_mem_cons.1 hparts
    cases parts with
    | nil => rw [List.intercalate_singleton, splitOn_of_forall hpart]
    | cons next parts =>
      rw [List.intercalate_cons_cons, List.append_assoc, List.singleton_append, splitOn_append hsep hpart,
        ih (List.cons_ne_nil _ _) hparts]

/-- No separator is left in a part. -/
theorem mem_splitOn {cs part : List Char} (h : part ∈ splitOn p cs) : ∀ d ∈ part, p d = false := by
  induction cs generalizing part with
  | nil =>
    rw [splitOn, List.mem_singleton] at h
    simp [h]
  | cons c cs ih =>
    rw [splitOn] at h
    by_cases hc : p c = true
    · rw [if_pos hc, List.mem_cons] at h
      rcases h with rfl | h
      · exact fun d hd => absurd hd List.not_mem_nil
      · exact ih h
    · rw [if_neg hc] at h
      obtain ⟨first, rest, hsplit⟩ := List.exists_cons_of_ne_nil (splitOn_ne_nil p cs)
      rw [hsplit, List.mem_cons] at h
      rcases h with rfl | h
      · refine List.forall_mem_cons.2 ⟨by simpa using hc, ih ?_⟩
        exact hsplit ▸ List.mem_cons_self
      · exact ih (hsplit ▸ List.mem_cons_of_mem first h)

end

end PoolIndexer.Text
