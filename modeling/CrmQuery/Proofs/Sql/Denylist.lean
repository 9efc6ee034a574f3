import CrmQuery.Sql.Safety
import CrmQuery.Proofs.Pattern.WholeWords
import Mathlib.Data.List.Infix

/-!
# The rules for statements

`breaches s` lists the rules that a text without blanks at its ends breaks, in terms of its words
and signs alone: which word it begins with, which words it has, and where its semicolons, dashes and
slashes are.  The searches of `violations` find just these (`violations_eq_breaches`).
-/

namespace CrmQuery.Sql

open Text Pattern

/-- The words that a statement may begin with. -/
def startingWords : List String := ["select", "with"]

/-- The rules that a text breaks. -/
def breaches (s : List Char) : List Violation :=
  if s = [] then [.empty]
  else
    (if ∃ w ∈ startingWords, Spells w (s.takeWhile isWord) then [] else [.notSelect]) ++
    (if ';' ∈ s.dropLast then [.severalStatements] else []) ++
    (if ∃ x ∈ words s, Spells "union" x then [.union] else []) ++
    (((words s).find? fun x => ∃ w ∈ dangerousWords, Spells w x).map fun x =>
      .dangerous (String.ofList (x.map capital))).toList ++
    (if "--".toList <:+: s then [.inlineComment] else []) ++
    (if "/*".toList <:+: s then [.blockComment] else [])

/-! ### Words -/

theorem isOneOf_iff {ws : List String} (hws : ∀ w ∈ ws, ∀ k ∈ w.toList, k.isLower = true)
    (hkey : ∀ w ∈ ws, w.toList.map caseKey = w.toList) {x : List Char} :
    IsOneOf ws x ↔ ∃ w ∈ ws, Spells w x :=
  exists_congr fun w => and_congr_right fun hw => by rw [hkey w hw, spells_iff (hws w hw)]

theorem readOnlyStart_fitAt_iff {s : List Char} :
    (readOnlyStart.fitAt (.ofText s)).isSome = true ↔
      ∃ w ∈ startingWords, Spells w (s.takeWhile isWord) := by
  have hfits : FitsExactly (anyOf (startingWords.map lit)) startingWords :=
    fitsExactly_anyOf_lit (by decide)
  rw [← isOneOf_iff (by decide) (by decide)]
  exact (isSome_fitAt_iff (by decide)).trans hfits.exists_fits_append_edge_iff

theorem unionWord_occursIn_iff {s : List Char} :
    unionWord.occursIn s = true ↔ ∃ x ∈ words s, Spells "union" x := by
  have hfits := fitsExactly_lit (w := "union") (by decide)
  refine hfits.occursIn_whole_iff.trans
    (exists_congr fun x => and_congr_right fun _ => ?_)
  rw [isOneOf_iff (by decide) (by decide)]
  simp

theorem firstDangerous?_eq (s : List Char) :
    firstDangerous? s =
      ((words s).find? fun x => ∃ w ∈ dangerousWords, Spells w x).map fun x =>
        String.ofList (x.map capital) := by
  have hfits : FitsExactly (anyOf (dangerousWords.map lit)) dangerousWords :=
    fitsExactly_anyOf_lit (by decide)
  have hspells : ∀ x, IsOneOf dangerousWords x ↔ ∃ w ∈ dangerousWords, Spells w x :=
    fun x => isOneOf_iff (by decide) (by decide)
  have hsearch := hfits.search_whole_part .keyword s
  simp only [hspells] at hsearch
  rw [← hsearch, Option.map_map]
  rfl

/-! ### Signs -/

theorem lit_occursIn_iff {w : String} (hw : AreSigns w.toList) {s : List Char} :
    (lit w).occursIn s = true ↔ w.toList <:+: s := by
  refine ⟨isInfix_of_lit hw, ?_⟩
  rintro ⟨a, b, rfl⟩
  have hrest : (Cursor.inText (a ++ w.toList ++ b) a.length).rest = w.toList ++ b := by
    simp [Cursor.inText]
  rw [occursIn_iff (regular_lit w)]
  exact ⟨a.length, by simp, _, fits_lit rfl hrest⟩

theorem exists_append_of_nonBlank {t : List Char} {c : Char} (hc : c ∈ t)
    (h : isBlank c = false) : ∃ x y rest, t = x ++ y :: rest ∧ (∀ e ∈ x, isBlank e = true) ∧
      isBlank y = false := by
  obtain ⟨y, hy⟩ := Option.isSome_iff_exists.1
    (List.find?_isSome (p := fun e => !isBlank e).2 ⟨c, hc, by rw [h]; rfl⟩)
  obtain ⟨hblank, x, rest, ht, hx⟩ := List.find?_eq_some_iff_append.1 hy
  exact ⟨x, y, rest, ht, by simpa using hx, by simpa using hblank⟩

theorem furtherStatement_occursIn_iff {s : List Char}
    (hlast : ∀ c ∈ s.getLast?, isBlank c = false) :
    furtherStatement.occursIn s = true ↔ ';' ∈ s.dropLast := by
  constructor
  · intro h
    obtain ⟨a, c, d, hs, -, hd⟩ := exists_fits_of_occursIn h
    cases hd with
    | seq h₁ h₂ =>
    cases h₁ with
    | seq h₁ h₃ =>
    obtain ⟨x, hx, hr⟩ := h₁.lit
    obtain ⟨y, hy, -⟩ := h₃.exists_reads
    cases h₂ with
    | @one _ _ z rest hrest _ =>
    rw [hs, hr.rest, eq_of_map_caseKey_eq (by decide) hx, hy.rest, hrest,
      List.dropLast_append_of_ne_nil (by simp), List.dropLast_append_of_ne_nil (by simp)]
    simp
  · intro h
    have hne : s ≠ [] := by
      rintro rfl
      cases h
    obtain ⟨a, b, hab⟩ := List.append_of_mem h
    -- After the semicolon, the blanks end before the last character at the latest.
    have hend : isBlank (s.getLast hne) = false := hlast _ (List.getLast?_eq_some_getLast hne)
    obtain ⟨x, y, rest, hsplit, hx, hy⟩ := exists_append_of_nonBlank (t := b ++ [s.getLast hne])
      (by simp) hend
    have hs : s = a ++ (";".toList ++ (x ++ y :: rest)) := by
      rw [← hsplit]
      conv_lhs => rw [← List.dropLast_append_getLast hne, hab]
      simp
    have hdrop : (Cursor.inText s a.length).rest = ";".toList ++ (x ++ y :: rest) := by
      rw [Cursor.inText, hs, List.drop_left]
    have hsemicolon := (Cursor.reads_advance hdrop).2
    have hblanks := (Cursor.reads_advance hsemicolon).2
    rw [occursIn_iff (by decide)]
    refine ⟨a.length, by rw [hs]; simp, _, .seq (.seq (fits_lit rfl hdrop)
      (fits_blanks hx hsemicolon)) (.one hblanks ?_)⟩
    rw [CharClass.has, hy]
    rfl

/-! ### Texts -/

theorem words_strip (s : List Char) : words (strip s) = words s := by
  obtain ⟨a, b, hs, ha, hb⟩ := exists_eq_strip s
  have hnone : ∀ {l : List Char}, (∀ c ∈ l, isBlank c = true) → words l = [] :=
    fun hl => words_eq_nil fun c hc => isWord_of_isBlank (hl c hc)
  have hfirst : isWordAt a.getLast? = false := by
    cases h : a.getLast? with
    | none => rfl
    | some c => exact isWord_of_isBlank (ha c (List.mem_of_getLast? h))
  have hsecond : isWordAt b.head? = false := by
    cases b with
    | nil => rfl
    | cons c b => exact isWord_of_isBlank (hb c List.mem_cons_self)
  conv_rhs => rw [hs]
  rw [words_append (Or.inr hsecond), words_append (Or.inl hfirst), hnone ha, hnone hb,
    List.nil_append, List.append_nil]

theorem count_strip {c : Char} (hc : isBlank c = false) (s : List Char) :
    (strip s).count c = s.count c := by
  obtain ⟨a, b, hs, ha, hb⟩ := exists_eq_strip s
  have hnone : ∀ {l : List Char}, (∀ d ∈ l, isBlank d = true) → l.count c = 0 := by
    refine fun hl => List.count_eq_zero_of_not_mem fun hmem => ?_
    rw [hl c hmem] at hc
    cases hc
  conv_rhs => rw [hs]
  rw [List.count_append, List.count_append, hnone ha, hnone hb, Nat.zero_add, Nat.add_zero]

theorem violations_eq (sql : String) : violations sql = breaches (strip sql.toList) := by
  have hlast : ∀ c ∈ (strip sql.toList).getLast?, isBlank c = false :=
    fun c hc => isBlank_of_mem_getLast?_strip hc
  unfold violations breaches
  simp only [List.isEmpty_iff, readOnlyStart_fitAt_iff, furtherStatement_occursIn_iff hlast,
    unionWord_occursIn_iff, firstDangerous?_eq, lit_occursIn_iff (w := "--") (by decide),
    lit_occursIn_iff (w := "/*") (by decide), Option.map_map]
  rfl

theorem breaches_eq_nil_iff {s : List Char} :
    breaches s = [] ↔ s ≠ [] ∧ (∃ w ∈ startingWords, Spells w (s.takeWhile isWord)) ∧
      ';' ∉ s.dropLast ∧ (∀ x ∈ words s, ∀ w ∈ "union" :: dangerousWords, ¬ Spells w x) ∧
        ¬ "--".toList <:+: s ∧ ¬ "/*".toList <:+: s := by
  by_cases hs : s = []
  · simp [breaches, hs]
  · rw [breaches, if_neg hs]
    simp only [List.append_eq_nil_iff, ite_eq_left_iff, ite_eq_right_iff, List.cons_ne_nil,
      Option.toList_eq_nil_iff, Option.map_eq_none_iff, List.find?_eq_none, decide_eq_true_eq,
      not_exists, not_and, imp_false, not_forall, exists_prop, not_not, List.forall_mem_cons,
      forall_and, hs, ne_eq, not_false_eq_true, true_and, and_assoc]

/-- A text that breaks no rule has one semicolon at most, at its end. -/
theorem semicolon_of_breaches_eq_nil {s : List Char} (h : breaches s = []) :
    s.count ';' ≤ 1 ∧ (';' ∈ s → s.getLast? = some ';') := by
  obtain ⟨hs, -, hsemicolon, -⟩ := breaches_eq_nil_iff.1 h
  have hsplit := List.dropLast_append_getLast hs
  have hbefore : s.dropLast.count ';' = 0 := List.count_eq_zero_of_not_mem hsemicolon
  constructor
  · rw [← hsplit, List.count_append, hbefore, Nat.zero_add]
    exact List.count_le_length
  · intro hmem
    rw [← hsplit, List.mem_append, List.mem_singleton] at hmem
    rw [List.getLast?_eq_some_getLast hs, ← hmem.resolve_left hsemicolon]

/-- The violations of a text, of which a missing one counts as empty, are the rules that it breaks
without the blanks at its ends.  A text that may be run has one semicolon at most, which is its last
character, and none of the denied words in any case. -/
theorem violations_eq_breaches (sql : Option String) :
    let text := (sql.getD "").toList
    violations (sql.getD "") = breaches (strip text) ∧
      (isSafe (sql.getD "") = true →
        text.count ';' ≤ 1 ∧ (';' ∈ text → (strip text).getLast? = some ';') ∧
          ∀ x ∈ words text, ∀ w ∈ "union" :: dangerousWords, ¬ Spells w x) := by
  intro text
  have heq := violations_eq (sql.getD "")
  refine ⟨heq, fun hsafe => ?_⟩
  have hnil : breaches (strip text) = [] := heq ▸ List.isEmpty_iff.1 hsafe
  obtain ⟨hcount, hlast⟩ := semicolon_of_breaches_eq_nil hnil
  obtain ⟨-, -, -, hwords, -⟩ := breaches_eq_nil_iff.1 hnil
  rw [count_strip (by decide)] at hcount
  rw [words_strip] at hwords
  refine ⟨hcount, fun hmem => hlast ?_, hwords⟩
  rwa [← List.count_pos_iff, count_strip (by decide), List.count_pos_iff]

/-- Words that only contain denied ones are accepted; the first denied word is named, a long s
counting as an s. -/
theorem violations_eq_breaches_updated :
    (isSafe "  \u017Felect updated_at, drop_off FROM bookings;\n" = true ∧
      ∀ x ∈ words "  \u017Felect updated_at, drop_off FROM bookings;\n".toList,
        ∀ w ∈ "union" :: dangerousWords, ¬ Spells w x) ∧
    violations "WITH t AS (TRUNCATE; union -- in\u017Fert" =
      [.severalStatements, .union, .dangerous "TRUNCATE", .inlineComment] := by
  obtain ⟨-, haccepted⟩ :=
    violations_eq_breaches (some "  \u017Felect updated_at, drop_off FROM bookings;\n")
  obtain ⟨hrefused, -⟩ := violations_eq_breaches (some "WITH t AS (TRUNCATE; union -- in\u017Fert")
  have hsafe : isSafe "  \u017Felect updated_at, drop_off FROM bookings;\n" = true := by
    decide +kernel
  exact ⟨⟨hsafe, (haccepted hsafe).2.2⟩, hrefused.trans (by decide +kernel)⟩

end CrmQuery.Sql
