import CrmQuery.Text.Case
import CrmQuery.Text.Word
import Mathlib.Data.List.Forall2
import Mathlib.Tactic.Common

/-!
# Letters regardless of case

All spellings of a letter are word characters (`isWord_caseKey`).  The `spellings` of a small letter
are those that `caseKey` takes to it (`mem_spellings_iff`, `spells_iff`), and a sign of ASCII that
is no small letter has only one spelling (`eq_of_caseKey_eq`, `eq_of_map_caseKey_eq`).
-/

namespace CrmQuery.Text

-- The characters of a text are gone through one by one; without this instance, all characters
-- that there are would be.
instance (priority := 2000) decidableForallMem (p : Char → Prop) [DecidablePred p] (s : List Char) :
    Decidable (∀ c ∈ s, p c) :=
  s.decidableBAll p

/-- What is checked of every character of ASCII holds of a character below 128. -/
theorem forall_ascii {P : Char → Prop} (h : ∀ n : Fin 128, P (Char.ofNat n)) {c : Char}
    (hc : c.toNat < 0x80) : P c := by
  have := h ⟨c.toNat, hc⟩
  rwa [Char.ofNat_toNat] at this

/-- The characters beyond ASCII with another spelling. -/
theorem caseKey_cases {c : Char} (hc : ¬ c.toNat < 0x80) :
    c ∈ ['Ä', 'Ö', 'Ü', '\u1E9E', '\u017F', '\u0131', '\u0130', '\u212A'] ∨ caseKey c = c := by
  unfold caseKey
  rw [if_neg hc]
  split <;> simp

/-- What all spellings of a letter have in common is checked of ASCII and of the other letters with
several spellings. -/
theorem eq_of_caseKey {α : Type} {f : Char → α}
    (hascii : ∀ n : Fin 128, f (caseKey (Char.ofNat n)) = f (Char.ofNat n))
    (hother : ∀ d ∈ ['Ä', 'Ö', 'Ü', '\u1E9E', '\u017F', '\u0131', '\u0130', '\u212A'],
      f (caseKey d) = f d) (c : Char) : f (caseKey c) = f c := by
  by_cases hc : c.toNat < 0x80
  · exact forall_ascii (P := fun c => f (caseKey c) = f c) hascii hc
  · rcases caseKey_cases hc with h | h
    · exact hother c h
    · rw [h]

theorem isWord_caseKey (c : Char) : isWord (caseKey c) = isWord c :=
  eq_of_caseKey (by decide) (by decide +kernel) c

theorem caseKey_caseKey (c : Char) : caseKey (caseKey c) = caseKey c :=
  eq_of_caseKey (by decide) (by decide) c

theorem eq_of_caseKey_eq {c k : Char} (h : caseKey c = k) (hk : k.toNat < 0x80)
    (hl : k.isLower = false) : c = k := by
  subst h
  by_cases hc : c.toNat < 0x80
  · have key : (caseKey c).isLower = false → c = caseKey c :=
      forall_ascii (P := fun c => (caseKey c).isLower = false → c = caseKey c) (by decide) hc
    exact key hl
  · rcases caseKey_cases hc with h | h
    · have key : ∀ d ∈ ['Ä', 'Ö', 'Ü', '\u1E9E', '\u017F', '\u0131', '\u0130', '\u212A'],
          (caseKey d).toNat < 0x80 → (caseKey d).isLower = true := by decide
      rw [key c h hk] at hl
      cases hl
    · exact h.symm

/-! ### Spellings -/

/-- The spellings of a small letter of the plain alphabet. -/
def spellings (k : Char) : List Char :=
  k :: k.toUpper :: match k with
    | 's' => ['\u017F']
    | 'i' => ['\u0131', '\u0130']
    | 'k' => ['\u212A']
    | _ => []

theorem mem_spellings_iff {k c : Char} (hk : k.isLower = true) :
    c ∈ spellings k ↔ caseKey c = k := by
  have hlower : ∀ {e : Char}, e.isLower = true → e.toNat < 0x80 := by
    intro e he
    have hle : e.val ≤ 'z'.val := of_decide_eq_true (Bool.and_eq_true_iff.1 he).2
    exact Nat.lt_of_le_of_lt (UInt32.le_iff_toNat_le.1 hle) (by decide)
  constructor
  · have key : k.isLower = true → ∀ d ∈ spellings k, caseKey d = k :=
      forall_ascii (P := fun k => k.isLower = true → ∀ d ∈ spellings k, caseKey d = k) (by decide)
        (hlower hk)
    exact key hk c
  · rintro rfl
    by_cases hc : c.toNat < 0x80
    · have key : (caseKey c).isLower = true → c ∈ spellings (caseKey c) :=
        forall_ascii (P := fun c => (caseKey c).isLower = true → c ∈ spellings (caseKey c))
          (by decide) hc
      exact key hk
    · rcases caseKey_cases hc with h | h
      · have key : ∀ d ∈ ['Ä', 'Ö', 'Ü', '\u1E9E', '\u017F', '\u0131', '\u0130', '\u212A'],
            (caseKey d).isLower = true → d ∈ spellings (caseKey d) := by decide
        exact key c h hk
      · exact absurd (hlower (h ▸ hk)) hc

/-- A text spells a word of small letters, in any case. -/
def Spells (w : String) (x : List Char) : Prop :=
  List.Forall₂ (fun k c => c ∈ spellings k) w.toList x

instance (w : String) (x : List Char) : Decidable (Spells w x) :=
  inferInstanceAs (Decidable (List.Forall₂ _ _ _))

theorem spells_iff {w : String} (hw : ∀ k ∈ w.toList, k.isLower = true) {x : List Char} :
    Spells w x ↔ x.map caseKey = w.toList := by
  unfold Spells
  generalize w.toList = ks at hw
  induction ks generalizing x with
  | nil => simp
  | cons k ks ih =>
    obtain ⟨hk, hks⟩ := List.forall_mem_cons.1 hw
    cases x with
    | nil => simp
    | cons c x =>
      rw [List.forall₂_cons, mem_spellings_iff hk, ih hks, List.map_cons, List.cons.injEq]

/-! ### Signs -/

/-- Signs of ASCII are no letters, and each of them has only one spelling. -/
def AreSigns (ks : List Char) : Prop :=
  ∀ k ∈ ks, k.toNat < 0x80 ∧ k.isLower = false ∧ caseKey k = k

instance (ks : List Char) : Decidable (AreSigns ks) :=
  inferInstanceAs (Decidable (∀ k ∈ ks, _))

theorem eq_of_map_caseKey_eq {x ks : List Char} (hks : AreSigns ks)
    (h : x.map caseKey = ks.map caseKey) : x = ks := by
  induction ks generalizing x with
  | nil => simpa using h
  | cons k ks ih =>
    obtain ⟨c, x, rfl⟩ := List.exists_cons_of_ne_nil (fun e : x = [] => by simp [e] at h)
    obtain ⟨hascii, hlower, hkey⟩ := hks k List.mem_cons_self
    simp only [List.map_cons, List.cons.injEq] at h
    rw [eq_of_caseKey_eq (h.1.trans hkey) hascii hlower,
      ih (fun d hd => hks d (List.mem_cons_of_mem k hd)) h.2]

end CrmQuery.Text
