import CrmQuery.Proofs.Pattern.Phrases

/-!
# Patterns with finitely many texts

A pattern without repetitions, edges and open classes fits the spellings of finitely many texts,
which `Pattern.texts?` lists.  If these are words, the pattern fits exactly them
(`fitsExactly_of_texts`), so the lists of words that a vocabulary stands for are computed from its
patterns.
-/

namespace CrmQuery

open Text

namespace Pattern

/-- The texts of a pattern, each in the spelling that stands for all of its spellings, if the
pattern lists them. -/
def texts? : Pattern → Option (List (List Char))
  | empty => some [[]]
  | one (.oneOf keys) => some (keys.map fun k => [k])
  | one _ | edge | many _ => none
  | seq p q => do
    let xs ← p.texts?
    let ys ← q.texts?
    return xs.flatMap fun x => ys.map (x ++ ·)
  | either p q => do
    let xs ← p.texts?
    let ys ← q.texts?
    return xs ++ ys
  | part _ p => p.texts?

theorem texts?_seq_eq_some_iff {p q : Pattern} {ts : List (List Char)} :
    (seq p q).texts? = some ts ↔ ∃ xs ys, p.texts? = some xs ∧ q.texts? = some ys ∧
      (xs.flatMap fun x => ys.map (x ++ ·)) = ts := by
  simp [texts?, Option.bind_eq_some_iff]

theorem texts?_either_eq_some_iff {p q : Pattern} {ts : List (List Char)} :
    (either p q).texts? = some ts ↔ ∃ xs ys, p.texts? = some xs ∧ q.texts? = some ys ∧
      xs ++ ys = ts := by
  simp [texts?, Option.bind_eq_some_iff]

/-- A fit reads a spelling of one of the texts. -/
theorem Fits.mem_texts {p : Pattern} {c d : Cursor} (h : Fits p c d) :
    ∀ {ts : List (List Char)}, p.texts? = some ts → ∃ x, x.map caseKey ∈ ts ∧ c.Reads x d := by
  induction h with
  | empty =>
    intro ts hts
    obtain rfl := Option.some.inj hts
    exact ⟨[], by simp, rfl, rfl⟩
  | @one cls c x rest hrest hx =>
    intro ts hts
    cases cls with
    | oneOf keys =>
      obtain rfl := Option.some.inj hts
      refine ⟨[x], List.mem_map_of_mem (List.contains_iff_mem.1 hx), hrest, rfl⟩
    | digit | blank | nonBlank => cases hts
  | edge | once | more =>
    intro ts hts
    cases hts
  | seq _ _ ihp ihq =>
    intro ts hts
    obtain ⟨xs, ys, hxs, hys, rfl⟩ := texts?_seq_eq_some_iff.1 hts
    obtain ⟨x, hx, hxr⟩ := ihp hxs
    obtain ⟨y, hy, hyr⟩ := ihq hys
    refine ⟨x ++ y, ?_, hxr.trans hyr⟩
    rw [List.map_append]
    exact List.mem_flatMap.2 ⟨_, hx, List.mem_map_of_mem hy⟩
  | left _ _ ih =>
    intro ts hts
    obtain ⟨xs, ys, hxs, -, rfl⟩ := texts?_either_eq_some_iff.1 hts
    obtain ⟨x, hx, hr⟩ := ih hxs
    exact ⟨x, List.mem_append_left ys hx, hr⟩
  | right _ _ ih =>
    intro ts hts
    obtain ⟨xs, ys, -, hys, rfl⟩ := texts?_either_eq_some_iff.1 hts
    obtain ⟨y, hy, hr⟩ := ih hys
    exact ⟨y, List.mem_append_right xs hy, hr⟩
  | part name _ ih =>
    intro ts hts
    obtain ⟨x, hx, hr⟩ := ih hts
    exact ⟨x, hx, hr.remember name _⟩

/-- Every spelling of one of the texts is read by some fit. -/
theorem exists_fits_of_mem_texts {p : Pattern} : ∀ {ts : List (List Char)} {c : Cursor}
    {x rest : List Char}, p.texts? = some ts → x.map caseKey ∈ ts → c.rest = x ++ rest →
      ∃ d, Fits p c d ∧ c.Reads x d ∧ d.rest = rest := by
  induction p with
  | empty =>
    intro ts c x rest hts hx hrest
    obtain rfl := Option.some.inj hts
    obtain rfl : x = [] := by simpa using hx
    exact ⟨c, .empty c, ⟨rfl, rfl⟩, hrest⟩
  | one cls =>
    intro ts c x rest hts hx hrest
    cases cls with
    | oneOf keys =>
      obtain rfl := Option.some.inj hts
      obtain ⟨k, hk, hkx⟩ := List.mem_map.1 hx
      obtain ⟨a, rfl, rfl⟩ : ∃ a, x = [a] ∧ caseKey a = k := by
        simpa [List.map_eq_singleton_iff] using hkx.symm
      exact ⟨_, .one hrest (List.contains_iff_mem.2 hk), ⟨hrest, rfl⟩, rfl⟩
    | digit | blank | nonBlank => cases hts
  | edge | many =>
    intro ts c x rest hts
    cases hts
  | seq p q ihp ihq =>
    intro ts c x rest hts hx hrest
    obtain ⟨xs, ys, hxs, hys, rfl⟩ := texts?_seq_eq_some_iff.1 hts
    obtain ⟨u, hu, huv⟩ := List.mem_flatMap.1 hx
    obtain ⟨v, hv, huv⟩ := List.mem_map.1 huv
    obtain ⟨y, z, rfl, rfl, rfl⟩ := List.map_eq_append_iff.1 huv.symm
    rw [List.append_assoc] at hrest
    obtain ⟨d, hd, hdr, hdrest⟩ := ihp hxs hu hrest
    obtain ⟨e, he, her, herest⟩ := ihq hys hv hdrest
    exact ⟨e, .seq hd he, hdr.trans her, herest⟩
  | either p q ihp ihq =>
    intro ts c x rest hts hx hrest
    obtain ⟨xs, ys, hxs, hys, rfl⟩ := texts?_either_eq_some_iff.1 hts
    rcases List.mem_append.1 hx with hx | hx
    · obtain ⟨d, hd, hr⟩ := ihp hxs hx hrest
      exact ⟨d, .left q hd, hr⟩
    · obtain ⟨d, hd, hr⟩ := ihq hys hx hrest
      exact ⟨d, .right p hd, hr⟩
  | part name p ih =>
    intro ts c x rest hts hx hrest
    obtain ⟨d, hd, hr, hdrest⟩ := ih hts hx hrest
    exact ⟨_, .part name hd, hr.remember name c, hdrest⟩

theorem regular_of_texts {p : Pattern} : ∀ {ts : List (List Char)}, p.texts? = some ts →
    p.regular = true := by
  induction p with
  | empty | one | edge => exact fun _ => rfl
  | many =>
    intro ts hts
    cases hts
  | seq p q ihp ihq =>
    intro ts hts
    obtain ⟨xs, ys, hxs, hys, -⟩ := texts?_seq_eq_some_iff.1 hts
    exact Bool.and_eq_true_iff.2 ⟨ihp hxs, ihq hys⟩
  | either p q ihp ihq =>
    intro ts hts
    obtain ⟨xs, ys, hxs, hys, -⟩ := texts?_either_eq_some_iff.1 hts
    exact Bool.and_eq_true_iff.2 ⟨ihp hxs, ihq hys⟩
  | part name p ih => exact ih

/-- The texts between the edges of several patterns, if each is one for whole words and lists its
texts. -/
def wholeTexts? : List Pattern → Option (List (List Char))
  | [] => some []
  | seq (seq edge p) edge :: ps => do
    let xs ← p.texts?
    let ys ← wholeTexts? ps
    return xs ++ ys
  | _ => none

theorem exists_of_wholeTexts?_cons {p : Pattern} {ps : List Pattern} {ts : List (List Char)}
    (h : wholeTexts? (p :: ps) = some ts) : ∃ q xs ys, p = whole q ∧ q.texts? = some xs ∧
      wholeTexts? ps = some ys ∧ xs ++ ys = ts := by
  unfold wholeTexts? at h
  split at h
  · rename_i h'
    cases h'
  · rename_i q qs h'
    obtain ⟨rfl, rfl⟩ := List.cons.inj h'
    simp only [bind, Option.bind_eq_some_iff] at h
    obtain ⟨xs, hxs, ys, hys, hts⟩ := h
    exact ⟨q, xs, ys, rfl, hxs, hys, Option.some.inj hts⟩
  · cases h

/-! ### Words -/

theorem isOneOf_append_iff {vs ws : List String} {x : List Char} :
    IsOneOf (vs ++ ws) x ↔ IsOneOf vs x ∨ IsOneOf ws x := by
  simp only [IsOneOf, List.mem_append, or_and_right, exists_or]

theorem isOneOf_iff_mem_keys {ws : List String} {x : List Char} :
    IsOneOf ws x ↔ x.map caseKey ∈ keys ws := by
  simp [IsOneOf, keys, eq_comm]

/-- A text is not one of the words of two lists without a common word. -/
theorem not_isOneOf {vs ws : List String} (h : ∀ k ∈ keys vs, k ∉ keys ws) {x : List Char}
    (hx : IsOneOf vs x) : ¬ IsOneOf ws x := by
  rw [isOneOf_iff_mem_keys] at hx ⊢
  exact h _ hx

/-- A pattern whose texts are words fits exactly these words. -/
theorem fitsExactly_of_texts {p : Pattern} {ws : List String} (hws : AreWords ws)
    (h : p.texts? = some (keys ws)) : FitsExactly p ws where
  areWords := hws
  regular := regular_of_texts h
  only := by
    intro c d hd
    obtain ⟨x, hx, hr⟩ := hd.mem_texts h
    obtain ⟨w, hw, hxw⟩ := isOneOf_iff_mem_keys.2 hx
    exact ⟨w, hw, x, hxw, hr⟩
  every := fun c x rest hx hrest => exists_fits_of_mem_texts h (isOneOf_iff_mem_keys.1 hx) hrest

namespace FitsExactly

variable {p : Pattern} {ws : List String} (hp : FitsExactly p ws)
include hp

/-- The texts that are fitted from their beginning to their end are the words. -/
theorem fitsAll_iff {x : List Char} : p.fitsAll x = true ↔ IsOneOf ws x := by
  rw [Pattern.fitsAll_iff hp.regular]
  constructor
  · rintro ⟨d, hd, hnil⟩
    obtain ⟨w, hw, y, hy, hr⟩ := hp.only _ d hd
    have hx : x = y ++ d.rest := hr.rest
    rw [hnil, List.append_nil] at hx
    exact ⟨w, hw, hx ▸ hy⟩
  · intro hx
    have hrest : (Cursor.ofText x).rest = x ++ [] := (List.append_nil x).symm
    obtain ⟨d, hd, -, hnil⟩ := hp.every _ x [] hx hrest
    exact ⟨d, hd, hnil⟩

/-- The words have no character of a class that the pattern is apart from. -/
theorem has_eq_false {x : List Char} (hx : IsOneOf ws x) {cls : CharClass}
    (hapart : p.apart cls = true) : ∀ e ∈ x, cls.has e = false := by
  have hrest : (Cursor.ofText x).rest = x ++ [] := (List.append_nil x).symm
  obtain ⟨d, hd, hr, -⟩ := hp.every _ x [] hx hrest
  obtain ⟨y, hy, hnone⟩ := hd.has_eq_false cls hapart
  have hxy : x = y := List.append_cancel_right (hr.rest.symm.trans hy.rest)
  rwa [hxy]

end FitsExactly

/-- Patterns for whole words occur where one of the words of the text is one of theirs. -/
theorem anyOccurs_iff_of_wholeTexts {s : List Char} {ps : List Pattern} : ∀ {ws : List String},
    AreWords ws → wholeTexts? ps = some (keys ws) →
      (anyOccurs ps s = true ↔ ∃ x ∈ words s, IsOneOf ws x) := by
  induction ps with
  | nil =>
    intro ws _ h
    obtain rfl : ws = [] := List.map_eq_nil_iff.1 (Option.some.inj h).symm
    simp [anyOccurs, IsOneOf]
  | cons p ps ih =>
    intro ws hws h
    obtain ⟨q, xs, ys, rfl, hxs, hys, hkeys⟩ := exists_of_wholeTexts?_cons h
    obtain ⟨us, vs, rfl, rfl, rfl⟩ := List.map_eq_append_iff.1 hkeys.symm
    obtain ⟨hus, hvs⟩ := List.forall_mem_append.1 hws
    have hp : FitsExactly q us := fitsExactly_of_texts hus hxs
    have hrest : anyOccurs ps s = true ↔ ∃ x ∈ words s, IsOneOf vs x := ih hvs hys
    have hcons : anyOccurs (whole q :: ps) s = ((whole q).occursIn s || anyOccurs ps s) := rfl
    rw [hcons, Bool.or_eq_true, hp.occursIn_whole_iff, hrest]
    simp only [isOneOf_append_iff, and_or_left, exists_or]

theorem fitsAll_either (p q : Pattern) (s : List Char) :
    (either p q).fitsAll s = (p.fitsAll s || q.fitsAll s) := by
  simp [fitsAll, run]

/-- A text is fitted by one of several patterns. -/
theorem fitsAll_anyOf (s : List Char) : ∀ ps : List Pattern,
    (anyOf ps).fitsAll s = ps.any (·.fitsAll s)
  | [] => by
    cases s <;> rfl
  | [p] => (Bool.or_false _).symm
  | p :: q :: ps => by
    have heither : anyOf (p :: q :: ps) = either p (anyOf (q :: ps)) := rfl
    rw [heither, fitsAll_either, fitsAll_anyOf s (q :: ps)]
    rfl

end Pattern

end CrmQuery
