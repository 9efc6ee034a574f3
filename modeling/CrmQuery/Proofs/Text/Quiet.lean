import CrmQuery.Proofs.Text.Numerals

/-!
# Texts of harmless words

`Quiet bad signs s` says that the text `s` consists of words, none of which is one of `bad` in any
case, and of the given signs.  Texts that are put together from such texts are of this kind where no
word runs on from one part into the next: after a part that `Opens`, before one that `Closes`, and
around one that `Separates`.
-/

namespace CrmQuery.Text

/-- A text of words that are none of `bad` in any case, and of the given signs. -/
structure Quiet (bad : List String) (signs : List Char) (s : String) : Prop where
  chars : ∀ c ∈ s.toList, isWord c = true ∨ c ∈ signs
  avoids : Avoids bad s.toList

instance (bad : List String) (signs : List Char) (s : String) : Decidable (Quiet bad signs s) :=
  decidable_of_iff ((∀ c ∈ s.toList, isWord c = true ∨ c ∈ signs) ∧ Avoids bad s.toList)
    ⟨fun h => ⟨h.1, h.2⟩, fun h => ⟨h.chars, h.avoids⟩⟩

/-- A harmless text from which no word runs on. -/
def Opens (bad : List String) (signs : List Char) (s : String) : Prop :=
  Quiet bad signs s ∧ isWordAt s.toList.getLast? = false

/-- A harmless text into which no word runs on. -/
def Closes (bad : List String) (signs : List Char) (s : String) : Prop :=
  Quiet bad signs s ∧ isWordAt s.toList.head? = false

/-- A harmless text that separates the words before it from those after it. -/
def Separates (bad : List String) (signs : List Char) (s : String) : Prop :=
  Opens bad signs s ∧ Closes bad signs s ∧ s.toList ≠ []

instance (bad : List String) (signs : List Char) (s : String) : Decidable (Opens bad signs s) :=
  inferInstanceAs (Decidable (_ ∧ _))

instance (bad : List String) (signs : List Char) (s : String) : Decidable (Closes bad signs s) :=
  inferInstanceAs (Decidable (_ ∧ _))

instance (bad : List String) (signs : List Char) (s : String) :
    Decidable (Separates bad signs s) :=
  inferInstanceAs (Decidable (_ ∧ _ ∧ _))

namespace Quiet

variable {bad : List String} {signs : List Char} {s t : String}

theorem mono {bad' : List String} {signs' : List Char} (hbad : bad' ⊆ bad) (hsigns : signs ⊆ signs')
    (hs : Quiet bad signs s) : Quiet bad' signs' s :=
  ⟨fun c hc => (hs.chars c hc).imp_right fun h => hsigns h, hs.avoids.mono hbad⟩

/-- A sign that is not among the given ones does not occur. -/
theorem not_mem (hs : Quiet bad signs s) {c : Char} (hc : isWord c = false) (hsigns : c ∉ signs) :
    c ∉ s.toList := by
  intro h
  rcases hs.chars c h with hw | hm
  · rw [hc] at hw
    cases hw
  · exact hsigns hm

theorem append (hs : Quiet bad signs s) (ht : Quiet bad signs t)
    (h : isWordAt s.toList.getLast? = false ∨ isWordAt t.toList.head? = false) :
    Quiet bad signs (s ++ t) := by
  constructor
  · intro c hc
    rw [String.toList_append, List.mem_append] at hc
    exact hc.elim (hs.chars c) (ht.chars c)
  · rw [String.toList_append]
    exact hs.avoids.append ht.avoids h

theorem after (hs : Quiet bad signs s) (ht : Opens bad signs t) : Quiet bad signs (t ++ s) :=
  ht.1.append hs (Or.inl ht.2)

theorem before (hs : Quiet bad signs s) (ht : Closes bad signs t) : Quiet bad signs (s ++ t) :=
  hs.append ht.1 (Or.inr ht.2)

theorem join {sep : String} (hs : Quiet bad signs s) (hsep : Separates bad signs sep)
    (ht : Quiet bad signs t) : Quiet bad signs (s ++ sep ++ t) := by
  obtain ⟨hopens, hcloses, hne⟩ := hsep
  refine (hs.before hcloses).append ht (Or.inl ?_)
  have hlast := hopens.2
  rw [List.getLast?_eq_some_getLast hne] at hlast
  rwa [String.toList_append, List.getLast?_append, List.getLast?_eq_some_getLast hne,
    Option.some_or]

theorem intercalate {sep : String} (hsep : Separates bad signs sep) :
    ∀ {ts : List String}, (∀ t ∈ ts, Quiet bad signs t) → Quiet bad signs (sep.intercalate ts)
  | [], _ => by
    rw [String.intercalate_nil]
    exact ⟨by simp, avoids_nil⟩
  | [t], h => by
    rw [String.intercalate_singleton]
    exact h t (List.mem_singleton_self t)
  | t :: u :: ts, h => by
    rw [String.intercalate_cons_cons]
    exact (h t List.mem_cons_self).join hsep
      (intercalate hsep fun v hv => h v (List.mem_cons_of_mem t hv))

/-- A single word. -/
theorem of_word (h : ∀ c ∈ s.toList, isWord c = true)
    (hs : s.toList.map caseKey ∉ bad.map String.toList) : Quiet bad signs s :=
  ⟨fun c hc => Or.inl (h c hc), avoids_of_forall h hs⟩

/-- The numeral of a natural number. -/
theorem toString_nat (hbad : ∀ v ∈ bad, v.toList.all Char.isDigit = false) (n : Nat) :
    Quiet bad signs (toString n) := by
  constructor
  · intro c hc
    rw [toList_toString] at hc
    exact Or.inl (isWord_of_isDigit (isDigit_of_mem hc))
  · rw [toList_toString]
    exact avoids_toDigits hbad n

end Quiet

end CrmQuery.Text
