import CrmQuery.Proofs.Pattern.Greedy

/-!
# Texts that go on

When a text goes on with `r`, into which no word runs on, the fits that end before the seam stay the
same, in the same order of preference (`ends_extend`).  So a pattern keeps occurring
(`occursIn_append`), and a search finds the same as long as no earlier fit crosses the seam
(`search_append`).  A search remembers pieces of the text, so none is longer than the text
(`length_text_le_of_search`).
-/

namespace CrmQuery

open Text

/-- The same piece of a text that goes on with `r`. -/
def Piece.extend (r : List Char) (p : Piece) : Piece := { p with rest := p.rest ++ r }

/-- The same pieces of a text that goes on with `r`. -/
def extendPieces (r : List Char) (ps : List (Part × Piece)) : List (Part × Piece) :=
  ps.map fun p => (p.1, p.2.extend r)

/-- The same place in a text that goes on with `r`. -/
def Cursor.extend (r : List Char) (c : Cursor) : Cursor :=
  { c with rest := c.rest ++ r, pieces := extendPieces r c.pieces }

/-- The same match in a text that goes on with `r`. -/
def Match.extend (r : List Char) (m : Match) : Match :=
  { m with pieces := extendPieces r m.pieces }

variable {r : List Char}

theorem Match.piece?_extend (m : Match) (name : Part) :
    (m.extend r).piece? name = (m.piece? name).map (Piece.extend r) := by
  obtain ⟨start, stop, pieces⟩ := m
  simp only [Match.piece?, Match.extend]
  induction pieces with
  | nil => rfl
  | cons p ps ih =>
    obtain ⟨name', p⟩ := p
    simp only [extendPieces, List.map_cons, List.lookup_cons]
    cases name == name' with
    | true => rfl
    | false => exact ih

theorem Cursor.atEdge_extend (hr : isWordAt r.head? = false) (c : Cursor) :
    (c.extend r).atEdge = c.atEdge := by
  obtain ⟨pos, before, rest, pieces⟩ := c
  simp only [Cursor.atEdge, Cursor.extend, isEdge]
  cases rest with
  | nil => rw [List.nil_append, hr]; rfl
  | cons x rest => rfl

theorem Cursor.inText_extend {s : List Char} {i : Nat} (hi : i ≤ s.length) :
    (Cursor.inText s i).extend r = Cursor.inText (s ++ r) i := by
  rw [Cursor.inText, Cursor.inText, List.take_append_of_le_length hi,
    List.drop_append_of_le_length hi]
  rfl

/-! ### Places of a text -/

/-- The cursor stands at a place of the text. -/
structure Cursor.In (s : List Char) (c : Cursor) : Prop where
  pos_le : c.pos ≤ s.length
  rest : c.rest = s.drop c.pos
  before : c.before = (s.take c.pos).getLast?

theorem Cursor.inText_in {s : List Char} {i : Nat} (hi : i ≤ s.length) :
    (Cursor.inText s i).In s :=
  ⟨hi, rfl, rfl⟩

theorem Cursor.In.length_rest {s : List Char} {c : Cursor} (hc : c.In s) :
    c.pos + c.rest.length = s.length := by
  have hle := hc.pos_le
  rw [hc.rest, List.length_drop]
  omega

namespace Pattern

section Reads

variable {p : Pattern} {c d : Cursor} {s x : List Char}

theorem Fits.pos_eq (h : Fits p c d) (hx : c.Reads x d) : d.pos = c.pos + x.length := by
  have hpos := h.pos_add
  have hlen := congrArg List.length hx.rest
  rw [List.length_append] at hlen
  omega

theorem Fits.ne_nil (h : Fits p c d) (hp : p.consumes = true) (hx : c.Reads x d) : x ≠ [] := by
  rintro rfl
  have hlt := h.length_lt hp
  rw [hx.rest] at hlt
  exact absurd hlt (lt_irrefl _)

theorem Fits.mem_of_rest (h : Fits p c d) (hp : p.consumes = true) (hx : c.Reads x d) {a : Char}
    {rest : List Char} (ha : c.rest = a :: rest) : a ∈ x := by
  obtain ⟨b, x, rfl⟩ := List.exists_cons_of_ne_nil (h.ne_nil hp hx)
  rw [hx.rest, List.cons_append, List.cons.injEq] at ha
  exact ha.1 ▸ List.mem_cons_self

theorem Fits.inText (h : Fits p c d) (hc : c.In s) : d.In s := by
  obtain ⟨x, hx, -⟩ := h.exists_reads
  have hpos := h.pos_eq hx
  have hdrop : s.drop c.pos = x ++ d.rest := hc.rest ▸ hx.rest
  refine ⟨?_, ?_, ?_⟩
  · have hlen := hc.length_rest
    have hadd := h.pos_add
    omega
  · rw [hpos, ← List.drop_drop, hdrop, List.drop_left]
  · rw [hx.before, hc.before, hpos, List.take_add, hdrop, List.take_left, List.getLast?_append]

/-- A fit reads what stands between its ends. -/
theorem Fits.take_eq (h : Fits p c d) (hc : c.In s) (hx : c.Reads x d) :
    s.take d.pos = s.take c.pos ++ x := by
  have hdrop : s.drop c.pos = x ++ d.rest := hc.rest ▸ hx.rest
  rw [h.pos_eq hx, List.take_add, hdrop, List.take_left]

/-- What was remembered before a place does not matter to the fits from there. -/
theorem Fits.exists_of_pos_eq {c' : Cursor} (h : Fits p c d) (hc : c.In s) (hc' : c'.In s)
    (hpos : c'.pos = c.pos) : ∃ d', Fits p c' d' ∧ d'.In s ∧ d'.pos = d.pos := by
  have hrest : c'.rest = c.rest := by rw [hc.rest, hc'.rest, hpos]
  have hbefore : c'.before = c.before := by rw [hc.before, hc'.before, hpos]
  obtain ⟨d', hd', hdrest, -⟩ := h.exists_of_same hrest (Or.inr hbefore)
  have hadd := h.pos_add
  have hadd' := hd'.pos_add
  rw [hdrest, hrest, hpos] at hadd'
  exact ⟨d', hd', hd'.inText hc', by omega⟩

/-- Each character that a fit reads belongs to a class of the pattern. -/
theorem Fits.exists_class_at (h : Fits p c d) (hc : c.In s) {t : Nat} (hle : c.pos ≤ t)
    (hlt : t < d.pos) : ∃ a cls, s[t]? = some a ∧ cls ∈ p.classes ∧ cls.has a = true := by
  obtain ⟨x, hx, hclass⟩ := h.exists_reads
  have hpos := h.pos_eq hx
  have hi : t - c.pos < x.length := by omega
  have hget : s[t]? = some x[t - c.pos] := by
    have hdrop : s.drop c.pos = x ++ d.rest := hc.rest ▸ hx.rest
    calc s[t]? = (s.drop c.pos)[t - c.pos]? := by rw [List.getElem?_drop]; congr 1; omega
      _ = some x[t - c.pos] := by
        rw [hdrop, List.getElem?_append_left hi, List.getElem?_eq_getElem hi]
  obtain ⟨cls, hcls, hhas⟩ := hclass _ (List.getElem_mem hi)
  exact ⟨_, cls, hget, hcls, hhas⟩

/-- Fits of patterns for different characters do not overlap. -/
theorem Fits.not_overlap {q : Pattern} {e e' : Cursor} (h : Fits p c d) (hc : c.In s)
    (hq : Fits q e e') (he : e.In s) (hapart : ∀ cls ∈ q.classes, p.apart cls = true) :
    min d.pos e'.pos ≤ max c.pos e.pos := by
  by_contra hlt
  obtain ⟨a, cls, ha, hcls, hhas⟩ :=
    h.exists_class_at hc (t := max c.pos e.pos) (by omega) (by omega)
  obtain ⟨a', cls', ha', hcls', hhas'⟩ :=
    hq.exists_class_at he (t := max c.pos e.pos) (by omega) (by omega)
  obtain rfl : a = a' := Option.some.inj (ha.symm.trans ha')
  have hnone := CharClass.has_eq_false (List.all_eq_true.1 (hapart cls' hcls') cls hcls) hhas
  rw [hhas'] at hnone
  cases hnone

theorem Fits.pos_lt (h : Fits p c d) (hp : p.consumes = true) : c.pos < d.pos := by
  have hlen := h.length_lt hp
  have hpos := h.pos_add
  omega

theorem Fits.pos_le (h : Fits p c d) : c.pos ≤ d.pos := by
  have hlen := h.length_le
  have hpos := h.pos_add
  omega

/-- Where a fit ends, no fit of a pattern for other characters goes on. -/
theorem Fits.pos_le_of_le {q : Pattern} {e e' : Cursor} (h : Fits p c d) (hp : p.consumes = true)
    (hc : c.In s) (hq : Fits q e e') (he : e.In s) (hapart : ∀ cls ∈ q.classes, p.apart cls = true)
    (hle : d.pos ≤ e'.pos) : d.pos ≤ e.pos := by
  have hlt := h.pos_lt hp
  have hoverlap := h.not_overlap hc hq he hapart
  omega

/-- Of two readings that begin at the same place, the one that ends first is part of the other. -/
theorem prefix_of_reads {e : Cursor} {y : List Char} (hx : c.Reads x d) (hy : c.Reads y e)
    (hle : e.rest.length ≤ d.rest.length) : x <+: y := by
  have hxrest : x <+: c.rest := ⟨d.rest, hx.rest.symm⟩
  have hyrest : y <+: c.rest := ⟨e.rest, hy.rest.symm⟩
  have hxlen := congrArg List.length hx.rest
  have hylen := congrArg List.length hy.rest
  rw [List.length_append] at hxlen hylen
  exact List.prefix_of_prefix_length_le hxrest hyrest (by omega)

end Reads

/-! ### Ends before the seam -/

/-- The places that do not lie behind the seam, after which the text is `r`. -/
def within (r : List Char) (cs : List Cursor) : List Cursor :=
  cs.filter fun d => r.length ≤ d.rest.length

theorem mem_within {cs : List Cursor} {d : Cursor} :
    d ∈ within r cs ↔ d ∈ cs ∧ r.length ≤ d.rest.length := by
  simp [within]

theorem within_eq_nil {cs : List Cursor} (h : ∀ d ∈ cs, d.rest.length < r.length) :
    within r cs = [] :=
  List.filter_eq_nil_iff.2 fun d hd => by simpa using h d hd

theorem within_singleton_extend (c : Cursor) : within r [c.extend r] = [c.extend r] := by
  simp [within, Cursor.extend]

theorem within_append (cs ds : List Cursor) : within r (cs ++ ds) = within r cs ++ within r ds :=
  List.filter_append ..

/-- Once a place lies behind the seam, so do all that are reached from it. -/
theorem within_flatMap {f g : Cursor → List Cursor} {cs ds : List Cursor}
    (hcs : within r cs = ds.map (Cursor.extend r))
    (hbehind : ∀ d ∈ cs, d.rest.length < r.length → within r (f d) = [])
    (hstep : ∀ d ∈ ds, within r (f (d.extend r)) = (g d).map (Cursor.extend r)) :
    within r (cs.flatMap f) = (ds.flatMap g).map (Cursor.extend r) := by
  have hskip : cs.flatMap (fun d => within r (f d)) =
      (within r cs).flatMap fun d => within r (f d) := by
    clear hcs
    induction cs with
    | nil => rfl
    | cons c cs ih =>
      rw [List.flatMap_cons, ih fun d hd => hbehind d (List.mem_cons_of_mem c hd)]
      by_cases hc : r.length ≤ c.rest.length
      · have hkeep : within r (c :: cs) = c :: within r cs :=
          List.filter_cons_of_pos (by simpa using hc)
        rw [hkeep, List.flatMap_cons]
      · have hdrop : within r (c :: cs) = within r cs :=
          List.filter_cons_of_neg (by simpa using hc)
        rw [hdrop, hbehind c List.mem_cons_self (Nat.lt_of_not_le hc), List.nil_append]
  calc within r (cs.flatMap f)
      = cs.flatMap fun d => within r (f d) := List.filter_flatMap ..
    _ = (ds.map (Cursor.extend r)).flatMap fun d => within r (f d) := by rw [hskip, hcs]
    _ = ds.flatMap fun d => (g d).map (Cursor.extend r) := by
      rw [List.flatMap_map]
      exact List.flatMap_congr hstep
    _ = (ds.flatMap g).map (Cursor.extend r) := by rw [List.map_flatMap]

theorem within_ends_of_lt {c : Cursor} (p : Pattern) (h : c.rest.length < r.length) :
    within r (p.ends c) = [] :=
  within_eq_nil fun _ hd => (fits_of_mem_ends hd).length_le.trans_lt h

section Extend

variable {p : Pattern} (hp : p.regular = true) (hr : isWordAt r.head? = false)

theorem ends_extend_many (hp : p.consumes = true)
    (ih : ∀ c : Cursor, within r (p.ends (c.extend r)) = (p.ends c).map (Cursor.extend r))
    (c : Cursor) :
    within r ((many p).ends (c.extend r)) = ((many p).ends c).map (Cursor.extend r) := by
  induction hn : c.rest.length using Nat.strong_induction_on generalizing c with
  | _ n hlt =>
  rw [ends_many hp, ends_many hp]
  refine within_flatMap (ih c) (fun d _ hd => ?_) (fun d hd => ?_)
  · rw [within_append, within_ends_of_lt _ hd, within_eq_nil (by simpa using hd)]
    rfl
  · have hlen := (fits_of_mem_ends hd).length_lt hp
    rw [within_append, hlt _ (hn ▸ hlen) d rfl, within_singleton_extend, List.map_append]
    rfl

include hp hr

/-- Where a text goes on, the ends before the seam are those that there were. -/
theorem ends_extend (c : Cursor) :
    within r (p.ends (c.extend r)) = (p.ends c).map (Cursor.extend r) := by
  induction p generalizing c with
  | empty => exact within_singleton_extend c
  | one cls =>
    obtain ⟨pos, before, rest, pieces⟩ := c
    cases rest with
    | nil =>
      refine within_eq_nil fun d hd => ?_
      exact (fits_of_mem_ends hd).length_lt rfl
    | cons x rest =>
      simp only [ends, Cursor.extend, List.cons_append]
      split_ifs
      · exact within_singleton_extend (Cursor.step ⟨pos, before, x :: rest, pieces⟩ x rest)
      · rfl
  | edge =>
    simp only [ends, Cursor.atEdge_extend hr]
    split_ifs
    · exact within_singleton_extend c
    · rfl
  | seq p q ihp ihq =>
    rw [regular, Bool.and_eq_true] at hp
    exact within_flatMap (ihp hp.1 c) (fun d _ hd => within_ends_of_lt q hd)
      (fun d _ => ihq hp.2 d)
  | either p q ihp ihq =>
    rw [regular, Bool.and_eq_true] at hp
    rw [ends, ends, within_append, ihp hp.1, ihq hp.2, List.map_append]
  | many p ih =>
    rw [regular, Bool.and_eq_true] at hp
    exact ends_extend_many hp.1 (ih hp.2) c
  | part name p ih =>
    have hmap : within r (((p.ends (c.extend r)).map fun d => d.remember name (c.extend r))) =
        (within r (p.ends (c.extend r))).map fun d => d.remember name (c.extend r) :=
      List.filter_map ..
    rw [ends, ends, hmap, ih hp, List.map_map, List.map_map]
    rfl

theorem Fits.extend {c d : Cursor} (h : Fits p c d) : Fits p (c.extend r) (d.extend r) := by
  have hmem : d.extend r ∈ within r (p.ends (c.extend r)) := by
    rw [ends_extend hp hr]
    exact List.mem_map_of_mem ((mem_ends_iff hp).2 h)
  exact fits_of_mem_ends (mem_within.1 hmem).1

/-- A fit that ends before the seam is one that there was. -/
theorem Fits.exists_of_extend {c e : Cursor} (h : Fits p (c.extend r) e)
    (he : r.length ≤ e.rest.length) : ∃ d, Fits p c d ∧ e = d.extend r := by
  have hmem := mem_within.2 ⟨(mem_ends_iff hp).2 h, he⟩
  rw [ends_extend hp hr] at hmem
  obtain ⟨d, hd, rfl⟩ := List.mem_map.1 hmem
  exact ⟨d, fits_of_mem_ends hd, rfl⟩

/-! ### Searches -/

/-- A pattern that occurs in a text still occurs when the text goes on. -/
theorem occursIn_append {s : List Char} (h : p.occursIn s = true) :
    p.occursIn (s ++ r) = true := by
  rw [occursIn_iff hp] at h ⊢
  obtain ⟨i, hi, d, hd⟩ := h
  refine ⟨i, by rw [List.length_append]; omega, d.extend r, ?_⟩
  rw [← Cursor.inText_extend hi]
  exact hd.extend hp hr

/-- A search finds the same when the text goes on, if no fit that begins as early crosses the
seam. -/
theorem search_append {s : List Char} {m : Match} (h : p.search s = some m)
    (hcross : ∀ i ≤ m.start, ∀ e, Fits p (.inText (s ++ r) i) e → e.pos ≤ s.length) :
    p.search (s ++ r) = some (m.extend r) := by
  obtain ⟨i, hi, hfit, hbefore⟩ := search_eq_some_iff.1 h
  obtain ⟨d, hd, rfl⟩ := fitAt_eq_some_iff.1 hfit
  have hends : ∀ j ≤ i, p.ends (.inText (s ++ r) j) =
      (p.ends (.inText s j)).map (Cursor.extend r) := by
    intro j hj
    rw [← ends_extend hp hr, Cursor.inText_extend (hj.trans hi), within, eq_comm,
      List.filter_eq_self]
    intro e he
    have hfits := fits_of_mem_ends he
    have hin : e.In (s ++ r) := hfits.inText (Cursor.inText_in (by rw [List.length_append]; omega))
    have hlen := hin.length_rest
    have hpos := hcross j hj e hfits
    rw [List.length_append] at hlen
    exact decide_eq_true (by omega)
  refine search_eq_some_iff.2 ⟨i, by rw [List.length_append]; omega, ?_, fun j hj => ?_⟩
  · rw [fitAt_eq, hends i le_rfl, List.head?_map, hd]
    rfl
  · rw [hends j hj.le, hbefore j hj]
    rfl

/-- What is found only when the text goes on ends behind the seam. -/
theorem lt_pos_of_search_eq_none {s : List Char} (h : p.search s = none) {i : Nat} {e : Cursor}
    (hi : i ≤ (s ++ r).length) (he : Fits p (.inText (s ++ r) i) e) : s.length < e.pos := by
  have hlen := (he.inText (Cursor.inText_in hi)).length_rest
  rw [List.length_append] at hlen
  by_contra hle
  have hpos : (Cursor.inText (s ++ r) i).pos ≤ e.pos := by
    have hadd := he.pos_add
    have hrest := he.length_le
    omega
  have his : i ≤ s.length := hpos.trans (Nat.le_of_not_lt hle)
  rw [← Cursor.inText_extend his] at he
  obtain ⟨d, hd, -⟩ := he.exists_of_extend hp hr (by omega)
  exact (ends_eq_nil_iff hp).1 (search_eq_none_iff.1 h i his) d hd

end Extend

/-! ### The seam -/

section Seam

variable {s : List Char} {p : Pattern} {c d : Cursor}

/-- A pattern that reads no blanks does not cross a seam behind which there is one. -/
theorem Fits.pos_le_of_apart (h : Fits p c d) (hp : p.apart .blank = true) (hc : c.In (s ++ r))
    (hr : ∀ x ∈ r.head?, isBlank x = true) (hle : c.pos ≤ s.length) : d.pos ≤ s.length := by
  obtain ⟨x, hx, hblank⟩ := h.has_eq_false _ hp
  have hpos := h.pos_eq hx
  by_contra hlt
  cases r with
  | nil =>
    have hd := (h.inText hc).pos_le
    rw [List.append_nil] at hd
    exact hlt hd
  | cons b r =>
    have hrest : c.rest = s.drop c.pos ++ b :: r := by
      rw [hc.rest, List.drop_append_of_le_length hle]
    have hxrest : x <+: c.rest := ⟨d.rest, hx.rest.symm⟩
    have hseam : s.drop c.pos ++ [b] <+: c.rest := by
      rw [hrest]
      exact ⟨r, List.append_assoc ..⟩
    have hlen : (s.drop c.pos ++ [b]).length ≤ x.length := by
      rw [List.length_append, List.length_drop, List.length_singleton]
      omega
    have hbegins := List.prefix_of_prefix_length_le hseam hxrest hlen
    have hb : isBlank b = false := hblank b (hbegins.subset (by simp))
    rw [hr b rfl] at hb
    cases hb

/-- What is read up to a place behind the seam has all the text before the seam. -/
theorem prefix_of_behind {x : List Char} (hc : c.In (s ++ r)) (hle : c.pos ≤ s.length)
    (hd : d.In (s ++ r)) (hbehind : s.length ≤ d.pos) (hx : c.Reads x d) : s.drop c.pos <+: x := by
  have hxrest : x <+: c.rest := ⟨d.rest, hx.rest.symm⟩
  have hseam : s.drop c.pos <+: c.rest := by
    rw [hc.rest, List.drop_append_of_le_length hle]
    exact List.prefix_append ..
  have hclen := hc.length_rest
  have hdlen := hd.length_rest
  have hxlen := congrArg List.length hx.rest
  rw [List.length_append] at hclen hdlen hxlen
  refine List.prefix_of_prefix_length_le hseam hxrest ?_
  rw [List.length_drop]
  omega

/-- Of two characters of a text that is read in two steps, the second is read by the second step if
the first one is not read by the first. -/
theorem mem_of_pair_sublist {a b : Char} {x y : List Char} (h : [a, b].Sublist (x ++ y))
    (ha : a ∉ x) : b ∈ y := by
  obtain ⟨l₁, l₂, hl, h₁, h₂⟩ := List.sublist_append_iff.1 h
  cases l₁ with
  | nil =>
    rw [List.nil_append] at hl
    exact h₂.subset (hl ▸ by simp)
  | cons c l₁ =>
    rw [List.cons_append, List.cons.injEq] at hl
    exact absurd (h₁.subset (hl.1 ▸ List.mem_cons_self)) ha

theorem pair_sublist {a b : Char} {x y z v : List Char} (ha : a ∈ y) (hb : b ∈ v) :
    [a, b].Sublist (x ++ (y ++ (z ++ v))) := by
  have hab : ([a] ++ [b]).Sublist (y ++ (z ++ v)) :=
    (List.singleton_sublist.2 ha).append (List.singleton_sublist.2 (List.mem_append_right z hb))
  exact hab.trans (List.sublist_append_right ..)

/-- A pattern of three parts, the last one without blanks, is not found across a seam if there are,
before the seam, a character that the first part does not read and, after it, one that the second
part does not read. -/
theorem Fits.pos_le_of_pair {front middle tail : Pattern} {e f : Cursor}
    (hfront : Fits front c d) (hmiddle : Fits middle d e) (htail : Fits tail e f)
    (hc : c.In (s ++ r)) (hle : c.pos ≤ s.length) (hr : ∀ x ∈ r.head?, isBlank x = true)
    (hblank : tail.apart .blank = true) {a b : Char} (hpair : [a, b].Sublist (s.drop c.pos))
    (ha : ∃ cls : CharClass, cls.has a = true ∧ front.apart cls = true)
    (hb : ∃ cls : CharClass, cls.has b = true ∧
      ∀ cls' ∈ middle.classes, cls.apart cls' = true) :
    f.pos ≤ s.length := by
  obtain ⟨cls, ha, hcls⟩ := ha
  obtain ⟨cls', hb, hcls'⟩ := hb
  have he := hmiddle.inText (hfront.inText hc)
  by_contra hlt
  have hbehind : s.length < e.pos := by
    by_contra hle
    exact hlt (htail.pos_le_of_apart hblank he hr (Nat.le_of_not_lt hle))
  -- All of the text before the seam would have been read by the first two parts.
  obtain ⟨x, hx, hnone⟩ := hfront.has_eq_false cls hcls
  obtain ⟨y, hy, hclass⟩ := hmiddle.exists_reads
  have hbegins := prefix_of_behind hc hle he hbehind.le (hx.trans hy)
  have hax : a ∉ x := by
    intro hmem
    rw [hnone a hmem] at ha
    cases ha
  obtain ⟨cls'', hmem, hb'⟩ := hclass b (mem_of_pair_sublist (hpair.trans hbegins.sublist) hax)
  rw [CharClass.has_eq_false (hcls' cls'' hmem) hb] at hb'
  cases hb'

end Seam

/-! ### Remembered pieces -/

end Pattern

/-- The text that was last remembered of a part. -/
def Cursor.remembered (c : Cursor) (name : Part) : Option (List Char) :=
  (c.pieces.lookup name).map Piece.text

theorem Cursor.remembered_remember_of_ne {name name' : Part} (h : name' ≠ name) (c d : Cursor) :
    (d.remember name c).remembered name' = d.remembered name' := by
  simp [remembered, remember, List.lookup_cons, beq_false_of_ne h]

namespace Pattern

theorem Fits.remembered_eq {p : Pattern} {c d : Cursor} (h : Fits p c d) (hp : p.partless = true)
    (name : Part) : d.remembered name = c.remembered name := by
  rw [Cursor.remembered, Cursor.remembered, h.pieces_eq hp]

/-- A part is remembered as what was read of it. -/
theorem Fits.remembered_self {p : Pattern} {c d : Cursor} {x : List Char} (h : Fits p c d)
    (hx : c.Reads x d) (name : Part) : (d.remember name c).remembered name = some x := by
  have hlen : d.pos - c.pos = x.length := by
    rw [h.pos_eq hx, Nat.add_sub_cancel_left]
  simp only [Cursor.remembered, Cursor.remember, List.lookup_cons, beq_self_eq_true,
    Option.map_some, Piece.text, hlen, hx.rest, List.take_left]

/-- The remembered pieces lie within the text. -/
def Cursor.Bounded (c : Cursor) : Prop :=
  ∀ p ∈ c.pieces, p.2.stop ≤ p.2.start + p.2.rest.length

theorem Fits.bounded {p : Pattern} {c d : Cursor} (h : Fits p c d) (hc : Cursor.Bounded c) :
    Cursor.Bounded d := by
  induction h with
  | empty | edge | one => exact hc
  | seq _ _ ihp ihq => exact ihq (ihp hc)
  | more _ _ ihp ihm => exact ihm (ihp hc)
  | left _ _ ih | right _ _ ih | once _ ih => exact ih hc
  | part name h ih =>
    refine List.forall_mem_cons.2 ⟨?_, ih hc⟩
    have hpos := h.pos_add
    simp only
    omega

/-- The pieces that a search remembers keep their texts when the text goes on. -/
theorem text_piece?_extend {p : Pattern} {s : List Char} {m : Match} (h : p.search s = some m)
    (name : Part) :
    ((m.extend r).piece? name).map Piece.text = (m.piece? name).map Piece.text := by
  obtain ⟨i, -, hfit, -⟩ := search_eq_some_iff.1 h
  obtain ⟨d, hd, rfl⟩ := fitAt_eq_some_iff.1 hfit
  have hbounded : Cursor.Bounded d :=
    (fits_of_mem_ends (List.mem_of_head? hd)).bounded (by simp [Cursor.Bounded, Cursor.inText])
  rw [Match.piece?_extend, Option.map_map]
  refine Option.map_congr fun q hq => ?_
  obtain ⟨l₁, l₂, hl, -⟩ := List.lookup_eq_some_iff.1 hq
  have hmem : (name, q) ∈ l₁ ++ (name, q) :: l₂ := by simp
  rw [← hl] at hmem
  have hle : q.stop ≤ q.start + q.rest.length := hbounded _ hmem
  exact List.take_append_of_le_length (by simp only [Piece.extend]; omega)

/-- What is remembered on the way to a place is no longer than the text that was ahead. -/
theorem Fits.length_text_le {p : Pattern} {c d : Cursor} (h : Fits p c d) :
    ∀ x ∈ d.pieces, x ∈ c.pieces ∨ x.2.text.length ≤ c.rest.length := by
  induction h with
  | empty | edge | one => exact fun x hx => Or.inl hx
  | seq hp _ ihp ihq | more hp _ ihp ihq =>
    intro x hx
    rcases ihq x hx with hx | hle
    · exact ihp x hx
    · exact Or.inr (hle.trans hp.length_le)
  | left _ _ ih | right _ _ ih | once _ ih => exact ih
  | part name _ ih =>
    refine List.forall_mem_cons.2 ⟨Or.inr ?_, ih⟩
    exact List.length_take_le' ..

/-- A search remembers no more than the text has. -/
theorem length_text_le_of_search {p : Pattern} {s : List Char} {m : Match}
    (h : p.search s = some m) {name : Part} {x : Piece} (hx : m.piece? name = some x) :
    x.text.length ≤ s.length := by
  obtain ⟨i, -, hfit, -⟩ := search_eq_some_iff.1 h
  obtain ⟨d, hd, rfl⟩ := fitAt_eq_some_iff.1 hfit
  obtain ⟨l₁, l₂, hl, -⟩ := List.lookup_eq_some_iff.1 hx
  have hmem : (name, x) ∈ l₁ ++ (name, x) :: l₂ := by simp
  rw [← hl] at hmem
  have hfits : Fits p (.inText s i) d := fits_of_mem_ends (List.mem_of_head? hd)
  rcases hfits.length_text_le _ hmem with hnone | hle
  · simp [Cursor.inText] at hnone
  · refine hle.trans ?_
    show (s.drop i).length ≤ s.length
    simp

end Pattern

end CrmQuery
