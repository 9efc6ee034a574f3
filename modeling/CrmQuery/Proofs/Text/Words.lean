import CrmQuery.Proofs.Text.Case
import Mathlib.Data.List.TakeWhile
import Mathlib.Data.Nat.Init

/-!
# The words of a text

`words s` lists the longest runs of word characters of a text.  Any other character separates the
words before it from those after it (`words_append_cons`), so the words of a text that is put
together from pieces are those of the pieces.  `Avoids bad s` says that no word of `s` is one of
`bad` in any case, and `followers keys ws` are the words that stand right after one of `keys`.
-/

namespace CrmQuery.Text

/-- The longest runs of word characters. -/
def words (s : List Char) : List (List Char) :=
  (s.splitOnP fun c => !isWord c).filter fun w => !w.isEmpty

@[simp] theorem words_nil : words [] = [] := by
  simp [words, List.splitOnP_nil]

theorem words_append_cons {c : Char} (hc : isWord c = false) (a b : List Char) :
    words (a ++ c :: b) = words a ++ words b := by
  unfold words
  rw [List.splitOnP_append_cons a b (by simp [hc]), List.filter_append]

theorem words_cons {c : Char} (hc : isWord c = false) (b : List Char) :
    words (c :: b) = words b := by
  rw [← List.nil_append (c :: b), words_append_cons hc, words_nil, List.nil_append]

/-- Two texts keep their words where a word does not run on from one into the other. -/
theorem words_append {a b : List Char}
    (h : isWordAt a.getLast? = false ∨ isWordAt b.head? = false) :
    words (a ++ b) = words a ++ words b := by
  rcases h with h | h
  · rcases List.eq_nil_or_concat a with rfl | ⟨a, c, rfl⟩
    · simp
    · have hc : isWord c = false := by simpa [isWordAt] using h
      rw [List.concat_eq_append, List.append_assoc, List.singleton_append, words_append_cons hc,
        words_append_cons hc, words_nil, List.append_nil]
  · cases b with
    | nil => simp
    | cons c b => rw [words_append_cons h, words_cons h]

/-- The words of a text are those of its lines. -/
theorem words_intercalate {c : Char} (hc : isWord c = false) :
    ∀ ls : List (List Char), words ([c].intercalate ls) = ls.flatMap words
  | [] => by simp
  | [l] => by simp
  | l :: l' :: ls => by
    rw [List.intercalate_cons_cons, List.append_assoc, List.singleton_append, words_append_cons hc,
      words_intercalate hc (l' :: ls)]
    rfl

theorem words_eq_nil {s : List Char} (h : ∀ c ∈ s, isWord c = false) : words s = [] := by
  induction s with
  | nil => exact words_nil
  | cons c s ih =>
    rw [words_cons (h c List.mem_cons_self)]
    exact ih fun d hd => h d (List.mem_cons_of_mem c hd)

theorem words_eq_singleton {w : List Char} (hne : w ≠ []) (h : ∀ c ∈ w, isWord c = true) :
    words w = [w] := by
  unfold words
  rw [List.splitOnP_eq_singleton fun c hc => by simp [h c hc]]
  simp [hne]

/-- A run of word characters that cannot be extended is a word. -/
theorem mem_words_of_edges {a w b : List Char} (hne : w ≠ []) (h : ∀ c ∈ w, isWord c = true)
    (ha : isWordAt a.getLast? = false) (hb : isWordAt b.head? = false) :
    w ∈ words (a ++ w ++ b) := by
  have hwb : w ∈ words (w ++ b) := by
    cases b with
    | nil => rw [List.append_nil, words_eq_singleton hne h]; exact List.mem_singleton_self w
    | cons c b =>
      rw [words_append_cons hb, words_eq_singleton hne h]
      exact List.mem_append_left _ (List.mem_singleton_self w)
  rcases List.eq_nil_or_concat a with rfl | ⟨a, c, rfl⟩
  · simpa using hwb
  · have hc : isWord c = false := by simpa [isWordAt] using ha
    rw [List.concat_eq_append, List.append_assoc, List.append_assoc, List.singleton_append,
      words_append_cons hc]
    exact List.mem_append_right _ hwb

theorem isWordAt_head?_dropWhile (s : List Char) : isWordAt (s.dropWhile isWord).head? = false := by
  induction s with
  | nil => rfl
  | cons c s ih =>
    by_cases hc : isWord c = true
    · rwa [List.dropWhile_cons_of_pos hc]
    · rw [List.dropWhile_cons_of_neg hc]
      simpa [isWordAt] using hc

/-- The first word of a text that begins with one, and the words after it. -/
theorem words_of_isWord {c : Char} (hc : isWord c = true) (s : List Char) :
    words (c :: s) = (c :: s).takeWhile isWord :: words (s.dropWhile isWord) := by
  have hne : (c :: s).takeWhile isWord ≠ [] := by simp [hc]
  have hword := words_eq_singleton hne fun _ he => List.mem_takeWhile_imp he
  have hdrop : (c :: s).dropWhile isWord = s.dropWhile isWord := List.dropWhile_cons_of_pos hc
  conv_lhs => rw [← List.takeWhile_append_dropWhile (p := isWord) (l := c :: s)]
  rw [words_append (Or.inr (isWordAt_head?_dropWhile _)), hword, hdrop]
  rfl

/-- A word is a run of word characters that cannot be extended. -/
theorem exists_of_mem_words {w s : List Char} (h : w ∈ words s) :
    ∃ a b, s = a ++ w ++ b ∧ w ≠ [] ∧ (∀ c ∈ w, isWord c = true) ∧
      isWordAt a.getLast? = false ∧ isWordAt b.head? = false := by
  induction hn : s.length using Nat.strong_induction_on generalizing s with
  | _ n ih =>
  cases s with
  | nil => simp at h
  | cons c s =>
    by_cases hc : isWord c = true
    · rw [words_of_isWord hc, List.mem_cons] at h
      have hsplit := List.takeWhile_append_dropWhile (p := isWord) (l := c :: s)
      rw [List.dropWhile_cons_of_pos hc] at hsplit
      rcases h with rfl | h
      · refine ⟨[], s.dropWhile isWord, hsplit.symm, by simp [hc], ?_, rfl, ?_⟩
        · exact fun _ he => List.mem_takeWhile_imp he
        · exact isWordAt_head?_dropWhile s
      · have hlen := (List.dropWhile_suffix isWord (l := s)).length_le
        obtain ⟨a, b, hs, hne, hw, ha, hb⟩ := ih _ (by rw [← hn, List.length_cons]; omega) h rfl
        -- The text after a word does not begin with a word character.
        have hane : a ≠ [] := by
          rintro rfl
          obtain ⟨e, w, rfl⟩ := List.exists_cons_of_ne_nil hne
          have hhead := isWordAt_head?_dropWhile s
          rw [hs] at hhead
          exact absurd (hw e List.mem_cons_self) (Bool.eq_false_iff.1 hhead)
        refine ⟨(c :: s).takeWhile isWord ++ a, b, ?_, hne, hw, ?_, hb⟩
        · rw [hs] at hsplit
          exact hsplit.symm.trans (by simp only [List.append_assoc])
        · rw [List.getLast?_eq_some_getLast hane] at ha
          rwa [List.getLast?_append, List.getLast?_eq_some_getLast hane, Option.some_or]
    · rw [Bool.not_eq_true] at hc
      rw [words_cons hc] at h
      obtain ⟨a, b, rfl, hne, hw, ha, hb⟩ := ih _ (by rw [← hn, List.length_cons]; omega) h rfl
      refine ⟨c :: a, b, rfl, hne, hw, ?_, hb⟩
      cases a with
      | nil => exact hc
      | cons e a => rwa [List.getLast?_cons_cons]

/-! ### Words to avoid -/

/-- No word of the text is one of the given words, in any case. -/
def Avoids (bad : List String) (s : List Char) : Prop :=
  ∀ w ∈ words s, w.map caseKey ∉ bad.map String.toList

instance (bad : List String) (s : List Char) : Decidable (Avoids bad s) :=
  inferInstanceAs (Decidable (∀ w ∈ words s, _))

section Avoids

variable {bad : List String} {a b : List Char}

theorem avoids_nil : Avoids bad [] := by
  simp [Avoids]

theorem Avoids.mono {bad' : List String} (h : bad' ⊆ bad) (ha : Avoids bad a) : Avoids bad' a :=
  fun w hw hmem => ha w hw (List.map_subset _ h hmem)

theorem Avoids.append (ha : Avoids bad a) (hb : Avoids bad b)
    (h : isWordAt a.getLast? = false ∨ isWordAt b.head? = false) : Avoids bad (a ++ b) := by
  intro w hw
  rw [words_append h, List.mem_append] at hw
  exact hw.elim (ha w) (hb w)

/-- One word avoids the words that it is not. -/
theorem avoids_of_forall {w : List Char} (h : ∀ c ∈ w, isWord c = true)
    (hw : w.map caseKey ∉ bad.map String.toList) : Avoids bad w := by
  rcases eq_or_ne w [] with rfl | hne
  · exact avoids_nil
  · intro v hv
    rw [words_eq_singleton hne h, List.mem_singleton] at hv
    rwa [hv]

end Avoids

/-! ### Words after keywords -/

/-- The words right after one of the given words, which count in any case. -/
def followers (keys : List String) : List (List Char) → List (List Char)
  | v :: w :: rest =>
    if v.map caseKey ∈ keys.map String.toList then w :: followers keys (w :: rest)
    else followers keys (w :: rest)
  | _ => []

section Followers

variable {keys : List String}

theorem followers_cons_of_not_mem {v : List Char} {ws : List (List Char)}
    (hv : v.map caseKey ∉ keys.map String.toList) :
    followers keys (v :: ws) = followers keys ws := by
  cases ws with
  | nil => rfl
  | cons w ws => exact if_neg hv

/-- What follows the keywords of two lists is found in each of them, if the first one does not end
with a keyword. -/
theorem followers_append {ws : List (List Char)} : ∀ {vs : List (List Char)},
    (∀ v ∈ vs.getLast?, v.map caseKey ∉ keys.map String.toList) →
      followers keys (vs ++ ws) = followers keys vs ++ followers keys ws
  | [], _ => rfl
  | [v], h => followers_cons_of_not_mem (h v rfl)
  | v :: w :: vs, h => by
    have ih : followers keys ((w :: vs) ++ ws) = followers keys (w :: vs) ++ followers keys ws :=
      followers_append (by simpa using h)
    by_cases hv : v.map caseKey ∈ keys.map String.toList
    · rw [List.cons_append] at ih
      simp only [List.cons_append, followers, if_pos hv, ih]
    · rw [List.cons_append, followers_cons_of_not_mem hv, followers_cons_of_not_mem hv]
      exact ih

theorem followers_eq_nil {ws : List (List Char)}
    (h : ∀ w ∈ ws, w.map caseKey ∉ keys.map String.toList) : followers keys ws = [] := by
  induction ws with
  | nil => rfl
  | cons w ws ih =>
    rw [followers_cons_of_not_mem (h w List.mem_cons_self)]
    exact ih fun v hv => h v (List.mem_cons_of_mem w hv)

end Followers

end CrmQuery.Text
