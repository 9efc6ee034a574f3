import CrmQuery.Proofs.Pattern.Ends
import CrmQuery.Proofs.Pattern.Reading

/-!
# The longest fit

The ends of a repetition are `Descending`, the longest fit first, if what is repeated has one fit at
most (`descending_many`).  Patterns without parts remember nothing (`Fits.eq_advance`), and what
patterns without edges fit depends on the text ahead only (`Fits.exists_of_rest_eq`).
-/

namespace CrmQuery

namespace Pattern

/-- Longer fits come first. -/
def Descending (cs : List Cursor) : Prop :=
  cs.Pairwise fun d e => d.rest.length ≤ e.rest.length

theorem Descending.length_le {cs : List Cursor} (h : Descending cs) {d e : Cursor}
    (hd : cs.head? = some d) (he : e ∈ cs) : d.rest.length ≤ e.rest.length := by
  obtain ⟨ds, rfl⟩ := List.head?_eq_some_iff.1 hd
  rcases List.mem_cons.1 he with rfl | he
  · exact le_rfl
  · exact (List.pairwise_cons.1 h).1 e he

theorem exists_of_head?_seq {p q : Pattern} {c e : Cursor}
    (h : ((p ++ q).ends c).head? = some e) : ∃ d ∈ p.ends c, (q.ends d).head? = some e := by
  have hseq : ((p ++ q).ends c).head? = (p.ends c).findSome? fun d => (q.ends d).head? :=
    List.head?_flatMap ..
  exact List.exists_of_findSome?_eq_some (hseq.symm.trans h)

/-! ### Patterns with one fit -/

/-- A pattern without alternatives. -/
def single : Pattern → Bool
  | empty | one _ | edge => true
  | seq p q => p.single && q.single
  | either _ _ | many _ => false
  | part _ p => p.single

theorem ends_of_single {p : Pattern} (hp : p.single = true) (c : Cursor) :
    p.ends c = [] ∨ ∃ d, p.ends c = [d] := by
  induction p generalizing c with
  | empty => exact Or.inr ⟨c, rfl⟩
  | one cls =>
    unfold ends
    split
    · exact Or.inl rfl
    · split_ifs <;> simp
  | edge =>
    unfold ends
    split_ifs <;> simp
  | seq p q ihp ihq =>
    rw [single, Bool.and_eq_true] at hp
    rw [ends]
    rcases ihp hp.1 c with h | ⟨d, h⟩
    · exact Or.inl (by rw [h, List.flatMap_nil])
    · rw [h, List.flatMap_singleton]
      exact ihq hp.2 d
  | either p q => cases hp
  | many p => cases hp
  | part name p ih =>
    rw [ends]
    rcases ih hp c with h | ⟨d, h⟩
    · exact Or.inl (by rw [h, List.map_nil])
    · exact Or.inr ⟨_, by rw [h, List.map_singleton]⟩

/-- More repetitions of a pattern with one fit make a longer fit. -/
theorem descending_many {p : Pattern} (hsingle : p.single = true) (hp : p.consumes = true)
    (c : Cursor) : Descending ((many p).ends c) := by
  induction hn : c.rest.length using Nat.strong_induction_on generalizing c with
  | _ n ih =>
  rw [ends_many hp]
  rcases ends_of_single hsingle c with h | ⟨d, h⟩
  · rw [h, List.flatMap_nil]
    exact List.Pairwise.nil
  · have hd : Fits p c d := fits_of_mem_ends (h ▸ List.mem_singleton_self d)
    rw [h, List.flatMap_singleton]
    refine List.pairwise_append.2 ⟨ih _ (hn ▸ hd.length_lt hp) d rfl,
      List.pairwise_singleton _ d, fun e he e' he' => ?_⟩
    rw [List.mem_singleton.1 he']
    exact (fits_of_mem_ends he).length_le

/-! ### Patterns without parts and without edges -/

/-- Nothing is remembered. -/
def partless : Pattern → Bool
  | empty | one _ | edge => true
  | seq p q | either p q => p.partless && q.partless
  | many p => p.partless
  | part _ _ => false

theorem Fits.pieces_eq {p : Pattern} {c d : Cursor} (h : Fits p c d) (hp : p.partless = true) :
    d.pieces = c.pieces := by
  induction h with
  | empty | edge | one => rfl
  | seq _ _ ihp ihq =>
    rw [partless, Bool.and_eq_true] at hp
    exact (ihq hp.2).trans (ihp hp.1)
  | left _ _ ih => exact ih (Bool.and_eq_true_iff.1 hp).1
  | right _ _ ih => exact ih (Bool.and_eq_true_iff.1 hp).2
  | once _ ih => exact ih hp
  | more _ _ ihp ihm => exact (ihm hp).trans (ihp hp)
  | part => cases hp

/-- Where a fit ends is known from what it reads. -/
theorem Fits.eq_advance {p : Pattern} {c d : Cursor} {x : List Char} (h : Fits p c d)
    (hp : p.partless = true) (hx : c.Reads x d) : d = c.advance x := by
  have hpieces := h.pieces_eq hp
  have hpos := h.pos_add
  have hlen := congrArg List.length hx.rest
  rw [List.length_append] at hlen
  have hrest : c.rest.drop x.length = d.rest := by rw [hx.rest, List.drop_left]
  obtain ⟨pos, before, rest, pieces⟩ := d
  simp only [Cursor.advance, Cursor.mk.injEq]
  exact ⟨by simp only at hpos hlen; omega, hx.before, hrest.symm, hpieces⟩

/-- There are no edges. -/
def edgeless : Pattern → Bool
  | empty | one _ => true
  | edge => false
  | seq p q | either p q => p.edgeless && q.edgeless
  | many p | part _ p => p.edgeless

/-- What a pattern fits depends on the text ahead and, where it has edges, on the character
before it. -/
theorem Fits.exists_of_same {p : Pattern} {c d : Cursor} (h : Fits p c d) :
    ∀ {c' : Cursor}, c'.rest = c.rest → (p.edgeless = true ∨ c'.before = c.before) →
      ∃ d', Fits p c' d' ∧ d'.rest = d.rest ∧ (c'.before = c.before → d'.before = d.before) := by
  induction h with
  | empty => exact fun {c'} hc _ => ⟨c', .empty c', hc, id⟩
  | one hrest hx => exact fun hc _ => ⟨_, .one (hc.trans hrest) hx, rfl, fun _ => rfl⟩
  | @edge c hedge =>
    intro c' hc hp
    have hbefore : c'.before = c.before := hp.resolve_left Bool.false_ne_true
    refine ⟨c', .edge ?_, hc, id⟩
    rwa [Cursor.atEdge, hbefore, hc]
  | seq _ _ ihp ihq =>
    intro c' hc hp
    rw [edgeless, Bool.and_eq_true, and_or_right] at hp
    obtain ⟨d, hd, hrest, hbefore⟩ := ihp hc hp.1
    obtain ⟨e, he, hrest, hbefore'⟩ := ihq hrest (hp.2.imp_right hbefore)
    exact ⟨e, .seq hd he, hrest, hbefore' ∘ hbefore⟩
  | left q _ ih =>
    intro c' hc hp
    rw [edgeless, Bool.and_eq_true, and_or_right] at hp
    obtain ⟨d, hd, hsame⟩ := ih hc hp.1
    exact ⟨d, .left q hd, hsame⟩
  | right p _ ih =>
    intro c' hc hp
    rw [edgeless, Bool.and_eq_true, and_or_right] at hp
    obtain ⟨d, hd, hsame⟩ := ih hc hp.2
    exact ⟨d, .right p hd, hsame⟩
  | once _ ih =>
    intro c' hc hp
    obtain ⟨d, hd, hsame⟩ := ih hc hp
    exact ⟨d, .once hd, hsame⟩
  | more _ _ ihp ihm =>
    intro c' hc hp
    obtain ⟨d, hd, hrest, hbefore⟩ := ihp hc hp
    obtain ⟨e, he, hrest, hbefore'⟩ := ihm hrest (hp.imp_right hbefore)
    exact ⟨e, .more hd he, hrest, hbefore' ∘ hbefore⟩
  | part name _ ih =>
    intro c' hc hp
    obtain ⟨d, hd, hsame⟩ := ih hc hp
    exact ⟨_, .part name hd, hsame⟩

theorem Fits.exists_of_rest_eq {p : Pattern} {c d c' : Cursor} (h : Fits p c d)
    (hp : p.edgeless = true) (hc : c'.rest = c.rest) : ∃ d', Fits p c' d' ∧ d'.rest = d.rest := by
  obtain ⟨d', hd', hrest, -⟩ := h.exists_of_same hc (Or.inl hp)
  exact ⟨d', hd', hrest⟩

end Pattern

end CrmQuery
