import CrmQuery.Proofs.Question.Numbers

/-!
# The mentions of a budget

A question has two mentions of a budget at most, one before a currency and one after the word
budget.  What a mention says depends only on the place where its number begins
(`NamesNumber.ofMention_eq`), so mentions of the same number say the same, and it does not matter
which of them is read first (`mentions_agree`).
-/

namespace CrmQuery

open Text Pattern AmountPhrase

namespace Budget

/-- The mentions whose number comes first. -/
def earliest (found : List Match) : List Match :=
  found.filter fun m => found.all fun m' => (number m).start ≤ (number m').start

/-- The budget that mentions name, in the order in which they are read. -/
def ofMentions (found : List Match) : Except NumeralTooLong (Option Budget) :=
  match earliest found with
  | [] => .ok none
  | m :: ms => do
    let amount ← readAmount (number m).text
    return some ⟨amount, ((m :: ms).findSome? words?).bind Bound.ofWords?⟩

theorem ofText?_eq_ofMentions (s : List Char) : ofText? s = ofMentions (mentions s) := rfl

/-- The budget that one mention names. -/
def ofMention (m : Match) : Except NumeralTooLong (Option Budget) :=
  (readAmount (number m).text).map fun n => some ⟨n, (words? m).bind Bound.ofWords?⟩

theorem ofMention_eq_ok_iff {m : Match} {b : Budget} : ofMention m = .ok (some b) ↔
    readAmount (number m).text = .ok b.amount ∧ b.bound = (words? m).bind Bound.ofWords? := by
  unfold ofMention
  cases b
  cases readAmount (number m).text with
  | error e => simp [Except.map]
  | ok n => simp [Except.map, eq_comm]

theorem mem_earliest {found : List Match} {m : Match} : m ∈ earliest found ↔
    m ∈ found ∧ ∀ m' ∈ found, (number m).start ≤ (number m').start := by
  simp [earliest]

theorem findSome?_eq_of_forall_eq {f : Match → Option (List Char)} {m : Match} {ms : List Match}
    (h : ∀ m' ∈ ms, f m' = f m) : (m :: ms).findSome? f = f m := by
  cases hm : f m with
  | some w => rw [List.findSome?_cons, hm]
  | none =>
    rw [List.findSome?_eq_none_iff, List.forall_mem_cons]
    exact ⟨hm, fun m' hm' => (h m' hm').trans hm⟩

end Budget

open Budget

/-! ### One mention -/

section Mention

variable {s : List Char} {m m' : Match} (h : NamesNumber s m)
include h

theorem NamesNumber.words?_eq_of_start_eq (h' : NamesNumber s m')
    (hstart : (number m).start = (number m').start) : words? m = words? m' := by
  rw [h.words?_eq, h'.words?_eq, (h.eq_of_start_eq h' hstart).2]

/-- Mentions whose numbers begin at the same place name the same budget. -/
theorem NamesNumber.ofMention_eq (h' : NamesNumber s m')
    (hstart : (number m).start = (number m').start) : ofMention m = ofMention m' := by
  unfold ofMention
  rw [(h.eq_of_start_eq h' hstart).1, h.words?_eq_of_start_eq h' hstart]

/-- The bound of a mention is the one that the words before its number tell. -/
theorem NamesNumber.boundBefore :
    BoundBefore s (number m).start ((words? m).bind Bound.ofWords?) := by
  intro β
  rw [h.words?_eq, Option.bind_eq_some_iff]
  simp only [h.qualifier, Bound.ofWords?_eq_some_iff]

end Mention

/-! ### Several mentions -/

namespace Budget

variable {s : List Char}

/-- Of several mentions, one whose number comes first is what counts. -/
theorem ofMentions_eq_ofMention {found : List Match} {m : Match}
    (hfound : ∀ m' ∈ found, NamesNumber s m') (hm : m ∈ found)
    (hfirst : ∀ m' ∈ found, (number m).start ≤ (number m').start) :
    ofMentions found = ofMention m := by
  have hstart : ∀ m' ∈ earliest found, (number m').start = (number m).start := by
    intro m' hm'
    obtain ⟨hmem, hle⟩ := mem_earliest.1 hm'
    exact le_antisymm (hle m hm) (hfirst m' hmem)
  have hnames : ∀ m' ∈ earliest found, NamesNumber s m' :=
    fun m' hm' => hfound m' (mem_earliest.1 hm').1
  unfold ofMentions
  cases hearliest : earliest found with
  | nil =>
    have hmem := mem_earliest.2 ⟨hm, hfirst⟩
    rw [hearliest] at hmem
    cases hmem
  | cons k ks =>
    rw [hearliest, List.forall_mem_cons] at hstart hnames
    have hwords : (k :: ks).findSome? words? = words? k := by
      apply findSome?_eq_of_forall_eq
      intro m' hm'
      exact (hnames.2 m' hm').words?_eq_of_start_eq hnames.1 ((hstart.2 m' hm').trans hstart.1.symm)
    rw [← hnames.1.ofMention_eq (hfound m hm) hstart.1, ofMention, ← hwords]
    dsimp only
    cases readAmount (number k).text <;> rfl

/-- Where the number before a currency is the one after the word budget, the two mentions agree on
it and on the words before it.  So the budget of the text is read from any of them, in any order,
and it has no bound if and only if no words for one stand before the number. -/
theorem mentions_agree {c k : Match} (hc : withCurrency.search s = some c)
    (hk : withKeyword.search s = some k) (hstart : (number c).start = (number k).start) :
    number c = number k ∧
      (c.piece? .qualifier).map Piece.text = (k.piece? .qualifier).map Piece.text ∧
      (∀ found, found ≠ [] → found ⊆ [c, k] → ofMentions found = ofText? s) ∧
      ∀ b, ofText? s = .ok (some b) →
        (b.bound = none ↔ ∀ q, ¬ StandsBefore s (number c).start q) := by
  have hnamesc := namesNumber_of_withCurrency hc
  have hnamesk := namesNumber_of_withKeyword hk
  obtain ⟨hnumber, hqualifier⟩ := hnamesc.eq_of_start_eq hnamesk hstart
  have hnames : ∀ m ∈ [c, k], NamesNumber s m ∧ (number m).start = (number c).start := by
    intro m hm
    rcases List.mem_pair.1 hm with rfl | rfl
    · exact ⟨hnamesc, rfl⟩
    · exact ⟨hnamesk, hstart.symm⟩
  have hmention : ∀ found, found ≠ [] → found ⊆ [c, k] → ofMentions found = ofMention c := by
    intro found hne hfound
    obtain ⟨m, hm⟩ := List.exists_mem_of_ne_nil found hne
    obtain ⟨hnamesm, hstartm⟩ := hnames m (hfound hm)
    rw [← hnamesm.ofMention_eq hnamesc hstartm]
    apply ofMentions_eq_ofMention (fun m' hm' => (hnames m' (hfound hm')).1) hm
    intro m' hm'
    rw [hstartm, (hnames m' (hfound hm')).2]
  have htext : ofText? s = ofMention c := by
    have hmentions : mentions s = [c, k] := by
      unfold mentions
      simp [hc, hk]
    rw [ofText?_eq_ofMentions, hmentions]
    exact hmention [c, k] (List.cons_ne_nil c [k]) (List.Subset.refl _)
  refine ⟨hnumber, hqualifier, ?_, fun b hb => ?_⟩
  · rw [htext]
    exact hmention
  · rw [htext, ofMention_eq_ok_iff] at hb
    rw [hb.2]
    exact hnamesc.boundBefore.eq_none_iff

theorem mentions_agree_over :
    let s := "budget über 2.000 euro".toList
    let c : Match := ⟨7, 22, [(.amount, ⟨12, 17, "2.000 euro".toList⟩),
      (.qualifier, ⟨7, 11, "über 2.000 euro".toList⟩)]⟩
    let k : Match := ⟨0, 17, [(.amount, ⟨12, 17, "2.000 euro".toList⟩),
      (.qualifier, ⟨7, 11, "über 2.000 euro".toList⟩)]⟩
    withCurrency.search s = some c ∧ withKeyword.search s = some k ∧ number c = number k ∧
      (c.piece? .qualifier).map Piece.text = (k.piece? .qualifier).map Piece.text ∧
        (∀ found, found ≠ [] → found ⊆ [c, k] → ofMentions found = ofText? s) ∧
          ∀ b, ofText? s = .ok (some b) →
            (b.bound = none ↔ ∀ q, ¬ StandsBefore s (number c).start q) := by
  intro s c k
  have hc : withCurrency.search s = some c := by decide +kernel
  have hk : withKeyword.search s = some k := by decide +kernel
  exact ⟨hc, hk, mentions_agree hc hk rfl⟩

end Budget

end CrmQuery
