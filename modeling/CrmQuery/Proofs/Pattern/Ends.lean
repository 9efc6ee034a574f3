import CrmQuery.Proofs.Pattern.Fits
import Mathlib.Data.List.Basic
import Mathlib.Data.Nat.Init
import Mathlib.Order.Nat

/-!
# The ends of fits

`Pattern.ends p c` lists the places where the fits of a pattern from a place end, the preferred ones
first, and `Pattern.run` tries them in this order (`run_eq_findSome?`).  A pattern is `regular` if
only parts that read something are repeated in it.  Then no fit is missing (`mem_ends_iff`), so a
search ends at the first place of a text where there is one (`search_eq_some_iff`,
`occursIn_iff`).
-/

namespace CrmQuery

namespace Pattern

/-- Where chains of steps end, of one step or as many as the given text has characters, the longest
chain first. -/
def chains (step : Cursor → List Cursor) : List Char → Cursor → List Cursor
  | [], _ => []
  | _ :: bound, c => (step c).flatMap fun d => chains step bound d ++ [d]

/-- Where the fits of a pattern from a place end, in the order of preference. -/
def ends : Pattern → Cursor → List Cursor
  | empty, c => [c]
  | one cls, c =>
    match c.rest with
    | [] => []
    | x :: rest => if cls.has x then [c.step x rest] else []
  | edge, c => if c.atEdge then [c] else []
  | seq p q, c => (p.ends c).flatMap q.ends
  | either p q, c => p.ends c ++ q.ends c
  | many p, c => chains p.ends c.rest c
  | part name p, c => (p.ends c).map fun d => d.remember name c

/-! ### Runs -/

section Run

variable {α : Type}

theorem findSome?_flatMap {β γ : Type} (f : β → List γ) (k : γ → Option α) (l : List β) :
    (l.flatMap f).findSome? k = l.findSome? fun a => (f a).findSome? k := by
  induction l with
  | nil => rfl
  | cons a l ih =>
    rw [List.flatMap_cons, List.findSome?_append, ih, List.findSome?_cons]
    cases (f a).findSome? k <;> rfl

theorem repeated_eq_findSome? {run : (Cursor → Option α) → Cursor → Option α}
    {step : Cursor → List Cursor} (h : ∀ k c, run k c = (step c).findSome? k)
    (k : Cursor → Option α) : ∀ (bound : List Char) (c : Cursor),
      repeated run bound k c = (chains step bound c).findSome? k
  | [], _ => rfl
  | _ :: bound, c => by
    unfold repeated chains
    rw [h, findSome?_flatMap]
    congr 1
    funext d
    rw [repeated_eq_findSome? h k bound d, List.findSome?_append]
    cases hk : k d <;> simp [hk]

/-- A run takes the first end from which what follows leads on. -/
theorem run_eq_findSome? (p : Pattern) (k : Cursor → Option α) (c : Cursor) :
    p.run k c = (p.ends c).findSome? k := by
  induction p generalizing k c with
  | empty => simp [run, ends]
  | one cls =>
    unfold run ends
    cases c.rest with
    | nil => rfl
    | cons x rest => by_cases hx : cls.has x = true <;> simp [hx]
  | edge =>
    unfold run ends
    split_ifs <;> simp
  | seq p q ihp ihq =>
    unfold run ends
    rw [ihp, findSome?_flatMap]
    congr 1
    funext d
    exact ihq k d
  | either p q ihp ihq =>
    unfold run ends
    rw [ihp, ihq, List.findSome?_append]
  | many p ih => exact repeated_eq_findSome? ih k c.rest c
  | part name p ih =>
    unfold run ends
    rw [ih, List.findSome?_map]
    rfl

end Run

theorem fitAt_eq (p : Pattern) (c : Cursor) :
    p.fitAt c = (p.ends c).head?.map fun d => ⟨c.pos, d.pos, d.pieces⟩ := by
  unfold fitAt
  rw [run_eq_findSome?]
  cases p.ends c <;> rfl

theorem fitAt_eq_none_iff {p : Pattern} {c : Cursor} : p.fitAt c = none ↔ p.ends c = [] := by
  rw [fitAt_eq, Option.map_eq_none_iff, List.head?_eq_none_iff]

theorem fitAt_eq_some_iff {p : Pattern} {c : Cursor} {m : Match} :
    p.fitAt c = some m ↔ ∃ d, (p.ends c).head? = some d ∧ m = ⟨c.pos, d.pos, d.pieces⟩ := by
  rw [fitAt_eq, Option.map_eq_some_iff]
  simp only [eq_comm]

/-! ### Ends of fits -/

theorem fits_of_mem_chains {p : Pattern} (ih : ∀ c, ∀ d ∈ p.ends c, Fits p c d) :
    ∀ (bound : List Char) (c : Cursor), ∀ d ∈ chains p.ends bound c, Fits (.many p) c d
  | [], _, d, hd => absurd hd List.not_mem_nil
  | _ :: bound, c, d, hd => by
    simp only [chains, List.mem_flatMap, List.mem_append, List.mem_singleton] at hd
    obtain ⟨e, he, hd | rfl⟩ := hd
    · exact .more (ih c e he) (fits_of_mem_chains ih bound e d hd)
    · exact .once (ih c d he)

theorem fits_of_mem_ends {p : Pattern} {c d : Cursor} (h : d ∈ p.ends c) : Fits p c d := by
  induction p generalizing c d with
  | empty =>
    rw [ends, List.mem_singleton] at h
    exact h ▸ .empty c
  | one cls =>
    unfold ends at h
    split at h
    · cases h
    · rename_i x rest hrest
      split_ifs at h with hx
      · rw [List.mem_singleton.1 h]
        exact .one hrest hx
      · cases h
  | edge =>
    unfold ends at h
    split_ifs at h with hc
    · rw [List.mem_singleton.1 h]
      exact .edge hc
    · cases h
  | seq p q ihp ihq =>
    obtain ⟨e, he, hd⟩ := List.mem_flatMap.1 h
    exact .seq (ihp he) (ihq hd)
  | either p q ihp ihq =>
    rcases List.mem_append.1 h with h | h
    · exact .left q (ihp h)
    · exact .right p (ihq h)
  | many p ih => exact fits_of_mem_chains (fun _ _ h => ih h) c.rest c d h
  | part name p ih =>
    obtain ⟨e, he, rfl⟩ := List.mem_map.1 h
    exact .part name (ih he)

/-- A bound that is long enough does not matter. -/
theorem chains_eq_of_le {step : Cursor → List Cursor}
    (hstep : ∀ c, ∀ d ∈ step c, d.rest.length < c.rest.length) :
    ∀ {bound bound' : List Char} {c : Cursor}, c.rest.length ≤ bound.length →
      c.rest.length ≤ bound'.length → chains step bound c = chains step bound' c := by
  have hend : ∀ {c : Cursor} (bound : List Char), c.rest.length ≤ 0 → chains step bound c = [] := by
    intro c bound hc
    cases bound with
    | nil => rfl
    | cons x bound =>
      rw [chains, List.flatMap_eq_nil_iff]
      exact fun d hd => absurd (hstep c d hd) (by omega)
  intro bound
  induction bound with
  | nil => exact fun hc _ => (hend [] hc).trans (hend _ hc).symm
  | cons x bound ih =>
    intro bound' c hc hc'
    cases bound' with
    | nil => exact (hend _ hc').trans (hend [] hc').symm
    | cons y bound' =>
      unfold chains
      refine List.flatMap_congr fun d hd => ?_
      have hlt := hstep c d hd
      rw [List.length_cons] at hc hc'
      have heq : chains step bound d = chains step bound' d := ih (by omega) (by omega)
      rw [heq]

/-- A repetition is one step, after which there may be more. -/
theorem ends_many {p : Pattern} (hp : p.consumes = true) (c : Cursor) :
    (many p).ends c = (p.ends c).flatMap fun d => (many p).ends d ++ [d] := by
  have hstep : ∀ c, ∀ d ∈ p.ends c, d.rest.length < c.rest.length :=
    fun c d hd => (fits_of_mem_ends hd).length_lt hp
  have hone : (many p).ends c = chains p.ends (' ' :: c.rest) c :=
    chains_eq_of_le hstep le_rfl (by simp)
  rw [hone, chains]
  refine List.flatMap_congr fun d hd => ?_
  rw [chains_eq_of_le hstep (hstep c d hd).le le_rfl]
  rfl

theorem mem_ends_many {p : Pattern} (hp : p.consumes = true)
    (ih : ∀ {c d : Cursor}, Fits p c d → d ∈ p.ends c) {d : Cursor} :
    ∀ {c : Cursor}, Fits (.many p) c d → d ∈ (many p).ends c := by
  intro c h
  induction hn : c.rest.length using Nat.strong_induction_on generalizing c with
  | _ n hlt =>
  rw [ends_many hp, List.mem_flatMap]
  cases h with
  | once h => exact ⟨d, ih h, by simp⟩
  | @more _ _ e _ h hm =>
    have hlen := h.length_lt hp
    exact ⟨e, ih h, List.mem_append_left _ (hlt _ (hn ▸ hlen) hm rfl)⟩

/-- The ends are those of the fits. -/
theorem mem_ends_iff {p : Pattern} (hp : p.regular = true) {c d : Cursor} :
    d ∈ p.ends c ↔ Fits p c d := by
  refine ⟨fits_of_mem_ends, fun h => ?_⟩
  induction p generalizing c d with
  | empty =>
    cases h
    exact List.mem_singleton_self _
  | one cls =>
    cases h with
    | one hrest hx => simp [ends, hrest, hx]
  | edge =>
    cases h with
    | edge hc => simp [ends, hc]
  | seq p q ihp ihq =>
    rw [regular, Bool.and_eq_true] at hp
    cases h with
    | seq h h' => exact List.mem_flatMap.2 ⟨_, ihp hp.1 h, ihq hp.2 h'⟩
  | either p q ihp ihq =>
    rw [regular, Bool.and_eq_true] at hp
    cases h with
    | left _ h => exact List.mem_append_left _ (ihp hp.1 h)
    | right _ h => exact List.mem_append_right _ (ihq hp.2 h)
  | many p ih =>
    rw [regular, Bool.and_eq_true] at hp
    exact mem_ends_many hp.1 (ih hp.2) h
  | part name p ih =>
    cases h with
    | part _ h => exact List.mem_map_of_mem (ih hp h)

theorem ends_eq_nil_iff {p : Pattern} (hp : p.regular = true) {c : Cursor} :
    p.ends c = [] ↔ ∀ d, ¬ Fits p c d := by
  simp only [List.eq_nil_iff_forall_not_mem, mem_ends_iff hp]

theorem isSome_fitAt_iff {p : Pattern} (hp : p.regular = true) {c : Cursor} :
    (p.fitAt c).isSome = true ↔ ∃ d, Fits p c d := by
  rw [Option.isSome_iff_ne_none, ne_eq, fitAt_eq_none_iff, ends_eq_nil_iff hp]
  simp

end Pattern

/-! ### Searches -/

/-- The place after the first `i` characters of a text. -/
def Cursor.inText (s : List Char) (i : Nat) : Cursor := ⟨i, (s.take i).getLast?, s.drop i, []⟩

namespace Pattern

theorem inText_of_drop_eq_cons {s rest : List Char} {x : Char} {i : Nat}
    (h : s.drop i = x :: rest) :
    i < s.length ∧ s.drop (i + 1) = rest ∧ (s.take (i + 1)).getLast? = some x := by
  have hi : i < s.length := by
    have hlen := congrArg List.length h
    simp only [List.length_drop, List.length_cons] at hlen
    omega
  rw [List.drop_eq_getElem_cons hi, List.cons.injEq] at h
  refine ⟨hi, h.2, ?_⟩
  rw [← List.take_append_getElem hi, List.getLast?_append, h.1]
  simp

theorem searchFrom_eq_some_iff {p : Pattern} {m : Match} {s rest : List Char} :
    ∀ {i : Nat}, i ≤ s.length → s.drop i = rest →
      (p.searchFrom i (s.take i).getLast? rest = some m ↔
        ∃ j, i ≤ j ∧ j ≤ s.length ∧ p.fitAt (.inText s j) = some m ∧
          ∀ k, i ≤ k → k < j → p.ends (.inText s k) = []) := by
  induction rest with
  | nil =>
    intro i hi hrest
    have hcursor : Cursor.inText s i = ⟨i, (s.take i).getLast?, [], []⟩ := by
      rw [Cursor.inText, hrest]
    have hlen : s.length ≤ i := List.drop_eq_nil_iff.1 hrest
    rw [searchFrom, ← hcursor]
    constructor
    · exact fun h => ⟨i, le_rfl, hi, h, fun k hik hki => absurd hki (by omega)⟩
    · rintro ⟨j, hij, hj, h, -⟩
      rwa [show i = j by omega]
  | cons x rest ih =>
    intro i hi hrest
    obtain ⟨hlt, hdrop, hlast⟩ := inText_of_drop_eq_cons hrest
    have hcursor : Cursor.inText s i = ⟨i, (s.take i).getLast?, x :: rest, []⟩ := by
      rw [Cursor.inText, hrest]
    rw [searchFrom, ← hcursor, Option.or_eq_some_iff, fitAt_eq_none_iff, ← hlast,
      ih hlt hdrop]
    constructor
    · rintro (h | ⟨hnone, j, hij, hj, h, hbefore⟩)
      · exact ⟨i, le_rfl, hi, h, fun k hik hki => absurd hki (by omega)⟩
      · refine ⟨j, by omega, hj, h, fun k hik hkj => ?_⟩
        rcases eq_or_lt_of_le hik with rfl | hik
        · exact hnone
        · exact hbefore k hik hkj
    · rintro ⟨j, hij, hj, h, hbefore⟩
      rcases eq_or_lt_of_le hij with rfl | hij
      · exact Or.inl h
      · exact Or.inr ⟨hbefore i le_rfl hij, j, hij, hj, h,
          fun k hik hkj => hbefore k (by omega) hkj⟩

/-- A search finds the preferred fit at the first place where there is one. -/
theorem search_eq_some_iff {p : Pattern} {s : List Char} {m : Match} :
    p.search s = some m ↔ ∃ i ≤ s.length, p.fitAt (.inText s i) = some m ∧
      ∀ j < i, p.ends (.inText s j) = [] := by
  have h : p.searchFrom 0 (s.take 0).getLast? s = some m ↔ _ :=
    searchFrom_eq_some_iff (Nat.zero_le _) List.drop_zero
  unfold search
  simpa using h

theorem search_eq_none_iff {p : Pattern} {s : List Char} :
    p.search s = none ↔ ∀ i ≤ s.length, p.ends (.inText s i) = [] := by
  constructor
  · intro h i
    induction i using Nat.strong_induction_on with
    | _ i ih =>
    intro hi
    by_contra hne
    obtain ⟨m, hm⟩ := Option.ne_none_iff_exists'.1 (mt fitAt_eq_none_iff.1 hne)
    have hsome := search_eq_some_iff.2 ⟨i, hi, hm, fun j hj => ih j hj (by omega)⟩
    rw [h] at hsome
    cases hsome
  · intro h
    by_contra hne
    obtain ⟨m, hm⟩ := Option.ne_none_iff_exists'.1 hne
    obtain ⟨i, hi, hfit, -⟩ := search_eq_some_iff.1 hm
    rw [fitAt_eq_none_iff.2 (h i hi)] at hfit
    cases hfit

theorem exists_fits_of_occursIn {p : Pattern} {s : List Char} (h : p.occursIn s = true) :
    ∃ a c d, s = a ++ c.rest ∧ c.before = a.getLast? ∧ Fits p c d := by
  obtain ⟨m, hm⟩ := Option.isSome_iff_exists.1 h
  obtain ⟨i, -, hfit, -⟩ := search_eq_some_iff.1 hm
  obtain ⟨d, hd, -⟩ := fitAt_eq_some_iff.1 hfit
  exact ⟨s.take i, .inText s i, d, (List.take_append_drop i s).symm, rfl,
    fits_of_mem_ends (List.mem_of_head? hd)⟩

/-- A pattern occurs wherever it fits. -/
theorem occursIn_iff {p : Pattern} (hp : p.regular = true) {s : List Char} :
    p.occursIn s = true ↔ ∃ i ≤ s.length, ∃ d, Fits p (.inText s i) d := by
  rw [occursIn, Option.isSome_iff_ne_none, ne_eq, search_eq_none_iff]
  simp only [ends_eq_nil_iff hp]
  push Not
  rfl

end Pattern

end CrmQuery
