import CrmQuery.Proofs.Question.Budget
import CrmQuery.Proofs.Question.Classify
import CrmQuery.Proofs.Question.Window

/-!
# More words, no less understood

Whatever was understood of a question is still understood when words are added to it
(`Classification.keeps_of_ofQuestion`): the words that occurred still occur, the budget and the
timeframe that were found are found again, and the confidence does not sink.
-/

namespace CrmQuery

open Text Pattern

/-! ### The first of several -/

/-- If more members of a list qualify, the first one that does is not later. -/
theorem exists_find?_of_imp {α : Type} [DecidableEq α] {l : List α} {p q : α → Bool}
    (h : ∀ a ∈ l, p a = true → q a = true) {a : α} (ha : l.find? p = some a) :
    ∃ b, l.find? q = some b ∧ l.idxOf b ≤ l.idxOf a := by
  induction l with
  | nil => cases ha
  | cons x l ih =>
    by_cases hq : q x = true
    · exact ⟨x, List.find?_cons_of_pos hq, by simp⟩
    · have hp : ¬ p x = true := mt (h x List.mem_cons_self) hq
      rw [List.find?_cons_of_neg hp] at ha
      obtain ⟨b, hb, hle⟩ := ih (fun c hc => h c (List.mem_cons_of_mem x hc)) ha
      have hxa : x ≠ a := fun e => hp (e ▸ List.find?_some ha)
      have hxb : x ≠ b := fun e => hq (e ▸ List.find?_some hb)
      refine ⟨b, by rw [List.find?_cons_of_neg hq, hb], ?_⟩
      rw [List.idxOf_cons_ne l hxa, List.idxOf_cons_ne l hxb]
      omega

/-! ### Evidence -/

namespace Topic

variable {s : List Char} {hint : Option Domain}

theorem mem_byPriority {d : Domain} : d ∈ Domain.byPriority ↔ d ≠ .unknown := by
  cases d <;> decide

/-- Words of any domain are the best evidence, and a hint is the next best. -/
theorem evidence_ofText (s : List Char) (hint : Option Domain) :
    (ofText s hint).evidence =
      if (Domain.ofText? s).isSome then .words
      else if (hint.filter (· != .unknown)).isSome then .hint
      else .nothing := by
  unfold ofText
  cases hhint : hint.filter (· != .unknown) with
  | none => cases Domain.ofText? s <;> rfl
  | some d =>
    have hd : d ≠ .unknown := by simpa using (Option.filter_eq_some_iff.1 hhint).2
    by_cases hoccurs : anyOccurs d.patterns s = true
    · have hsome : (Domain.ofText? s).isSome = true :=
        List.find?_isSome.2 ⟨d, mem_byPriority.2 hd, hoccurs⟩
      simp [Option.filter, hoccurs, hsome]
    · cases hdomain : Domain.ofText? s <;> simp [Option.filter, hoccurs]

theorem domain_ne_unknown_iff (s : List Char) (hint : Option Domain) :
    (ofText s hint).domain ≠ .unknown ↔ (ofText s hint).evidence ≠ .nothing := by
  unfold ofText
  cases hhint : hint.filter (· != .unknown) with
  | none =>
    cases hdomain : Domain.ofText? s with
    | none => simp
    | some d => simpa using mem_byPriority.1 (List.mem_of_find?_eq_some hdomain)
  | some d =>
    have hd : d ≠ .unknown := by simpa using (Option.filter_eq_some_iff.1 hhint).2
    by_cases hoccurs : anyOccurs d.patterns s = true
    · simpa [Option.filter, hoccurs] using hd
    · cases hdomain : Domain.ofText? s with
      | none => simpa [Option.filter, hoccurs] using hd
      | some d' =>
        simpa [Option.filter, hoccurs] using mem_byPriority.1 (List.mem_of_find?_eq_some hdomain)

theorem domain_ofText_of_no_hint (s : List Char) (h : hint = none ∨ hint = some .unknown) :
    (ofText s hint).domain = (Domain.ofText? s).getD .unknown := by
  have hnone : hint.filter (· != .unknown) = none := by rcases h with rfl | rfl <;> rfl
  unfold ofText
  rw [hnone]
  cases Domain.ofText? s <;> rfl

end Topic

/-- The confidence grows with the evidence, the intent, the entities and the timeframe. -/
theorem Evidence.confidence_le {e e' : Evidence} (he : e ≠ .other) (he' : e' = e ∨ e' = .words)
    {i i' t t' : Bool} {n n' : Nat} (hi : i = true → i' = true) (hn : n ≤ n') (hn' : n' ≤ 4)
    (ht : t = true → t' = true) : e.confidence i n t ≤ e'.confidence i' n' t' := by
  have key : ∀ e ∈ [Evidence.words, .hint, .nothing], ∀ e' ∈ [e, .words], ∀ n n' : Fin 5, n ≤ n' →
      ∀ i i' : Bool, (i = true → i' = true) → ∀ t t' : Bool, (t = true → t' = true) →
        e.confidence i n.val t ≤ e'.confidence i' n'.val t' := by
    decide +kernel
  have hmem : e ∈ [Evidence.words, .hint, .nothing] := by
    cases e with
    | other => exact absurd rfl he
    | words | hint | nothing => decide
  exact key e hmem e' (by simpa using he') ⟨n, by omega⟩ ⟨n', by omega⟩ hn i i' hi t t' ht

theorem keys_sublist {α α' β : Type} {o : Option α} {o' : Option α'} {f : α → β} {f' : α' → β}
    {key : String} (h : o.isSome = true → o'.isSome = true) :
    ((o.map fun a => (key, f a)).toList.map Prod.fst).Sublist
      ((o'.map fun a => (key, f' a)).toList.map Prod.fst) := by
  cases o with
  | none => exact List.nil_sublist _
  | some a =>
    obtain ⟨a', rfl⟩ := Option.isSome_iff_exists.1 (h rfl)
    exact List.Sublist.refl _

section GoesOn

variable {s s' : List Char} (h : GoesOn s s')
include h

/-! ### Topics -/

theorem exists_domain_of_goesOn {d : Domain} (hd : Domain.ofText? s = some d) :
    ∃ d', Domain.ofText? s' = some d' ∧
      Domain.byPriority.idxOf d' ≤ Domain.byPriority.idxOf d :=
  exists_find?_of_imp (fun d _ => h.anyOccurs d.areProper_patterns) hd

theorem exists_intent_of_goesOn {i : Intent} (hi : Intent.ofText? s = some i) :
    ∃ i', Intent.ofText? s' = some i' ∧
      Intent.byPriority.idxOf i' ≤ Intent.byPriority.idxOf i :=
  exists_find?_of_imp (fun i _ => h.anyOccurs i.areProper_patterns) hi

theorem isSome_firstNamed? {α : Type} [DecidableEq α] {family : List α}
    {patterns : α → List Pattern} (hproper : ∀ a, AreProper (patterns a))
    (hs : (firstNamed? family patterns s).isSome = true) :
    (firstNamed? family patterns s').isSome = true := by
  obtain ⟨a, ha⟩ := Option.isSome_iff_exists.1 hs
  obtain ⟨b, hb, -⟩ := exists_find?_of_imp (fun a _ => h.anyOccurs (hproper a)) ha
  exact Option.isSome_iff_exists.2 ⟨b, hb⟩

theorem language_of_goesOn (hs : Language.ofText s = .de) : Language.ofText s' = .de := by
  unfold Language.ofText at hs ⊢
  split_ifs at hs with hoccurs
  exact if_pos (h.anyOccurs Language.areProper_germanMarkers hoccurs)

theorem evidence_of_goesOn (hint : Option Domain) :
    (Topic.ofText s' hint).evidence = (Topic.ofText s hint).evidence ∨
      (Topic.ofText s' hint).evidence = .words := by
  rw [Topic.evidence_ofText, Topic.evidence_ofText]
  cases hs : Domain.ofText? s with
  | none =>
    cases hs' : Domain.ofText? s' with
    | none => exact Or.inl rfl
    | some d => exact Or.inr rfl
  | some d =>
    obtain ⟨d', hd', -⟩ := exists_domain_of_goesOn h hs
    rw [hd']
    exact Or.inr rfl

/-! ### Entities -/

theorem keys_of_goesOn {e e' : Entities} (he : Entities.ofText s = .ok e)
    (he' : Entities.ofText s' = .ok e') :
    (e.fields.map Prod.fst).Sublist (e'.fields.map Prod.fst) ∧
      ∀ v, e.fields.lookup "budgetAmount" = some v → e'.fields.lookup "budgetAmount" = some v := by
  obtain ⟨b, hb, rfl⟩ := Entities.of_ofText_eq_ok he
  obtain ⟨b', hb', rfl⟩ := Entities.of_ofText_eq_ok he'
  have hbudget : ∀ a, b = some a → ∃ a', b' = some a' ∧ a'.amount = a.amount := by
    rintro a rfl
    obtain ⟨a', ha', hamount⟩ := Budget.exists_ofText?_of_goesOn h hb
    exact ⟨a', Except.ok.inj (hb'.symm.trans ha'), hamount⟩
  constructor
  · simp only [Entities.fields, List.map_append]
    refine (((keys_sublist ?_).append (keys_sublist ?_)).append (keys_sublist ?_)).append
      (keys_sublist ?_)
    · exact isSome_firstNamed? h LeadStatus.areProper_patterns
    · exact isSome_firstNamed? h Country.areProper_patterns
    · intro hsome
      obtain ⟨a, ha⟩ := Option.isSome_iff_exists.1 hsome
      obtain ⟨a', ha', -⟩ := hbudget a ha
      exact Option.isSome_iff_exists.2 ⟨a', ha'⟩
    · exact isSome_firstNamed? h BookingStatus.areProper_patterns
  · intro v hv
    rw [Entities.lookup_budgetAmount, Option.map_eq_some_iff] at hv ⊢
    obtain ⟨a, ha, rfl⟩ := hv
    obtain ⟨a', ha', hamount⟩ := hbudget a ha
    exact ⟨a', ha', by rw [hamount]⟩

end GoesOn

/-! ### Classifications -/

/-- Nothing that the first classification understands, under a hint, is lost in the second. -/
structure Classification.Keeps (hint : Option Domain) (a b : Classification) : Prop where
  confidence : a.confidence ≤ b.confidence
  entities : ∀ key ∈ a.entities.map Prod.fst, key ∈ b.entities.map Prod.fst
  budget : ∀ v, a.entities.lookup "budgetAmount" = some v →
    b.entities.lookup "budgetAmount" = some v
  timeframe : a.timeframe.isSome = true → b.timeframe.isSome = true
  domain : a.domain ≠ .unknown → b.domain ≠ .unknown
  language : a.language = .de → b.language = .de
  intent : Intent.byPriority.idxOf b.intent ≤ Intent.byPriority.idxOf a.intent
  /-- A missing domain counts as the last one. -/
  priority : hint = none ∨ hint = some .unknown →
    Domain.byPriority.idxOf b.domain ≤ Domain.byPriority.idxOf a.domain

/-- A missing member counts as one that is not before any other. -/
theorem idxOf_getD_le {α : Type} [DecidableEq α] {l : List α} {o o' : Option α} {z : α}
    (hz : ∀ a, o' = some a → l.idxOf a ≤ l.idxOf z)
    (h : ∀ a, o = some a → ∃ b, o' = some b ∧ l.idxOf b ≤ l.idxOf a) :
    l.idxOf (o'.getD z) ≤ l.idxOf (o.getD z) := by
  cases o with
  | none =>
    cases o' with
    | none => exact le_rfl
    | some b => exact hz b rfl
  | some a =>
    obtain ⟨b, rfl, hle⟩ := h a rfl
    exact hle

theorem Classification.keeps_of_goesOn {q q' : String} (h : GoesOn (normalize q) (normalize q'))
    {hint : Option Domain} {now : Moment} {a b : Classification}
    (ha : ofQuestion q hint now = .ok a) (hb : ofQuestion q' hint now = .ok b) :
    a.Keeps hint b := by
  obtain ⟨e, timeframe, he, htimeframe, rfl⟩ := of_ofQuestion_eq_ok ha
  obtain ⟨e', timeframe', he', htimeframe', rfl⟩ := of_ofQuestion_eq_ok hb
  obtain ⟨hkeys, hbudget⟩ := keys_of_goesOn h he he'
  have hwindow : timeframe.isSome = true → timeframe'.isSome = true := by
    intro hsome
    obtain ⟨w, rfl⟩ := Option.isSome_iff_exists.1 hsome
    exact Timeframe.isSome_ofText?_of_goesOn h htimeframe htimeframe'
  have hintent : (Intent.ofText? (normalize q)).isSome = true →
      (Intent.ofText? (normalize q')).isSome = true := by
    intro hsome
    obtain ⟨i, hi⟩ := Option.isSome_iff_exists.1 hsome
    obtain ⟨i', hi', -⟩ := exists_intent_of_goesOn h hi
    exact Option.isSome_iff_exists.2 ⟨i', hi'⟩
  have hevidence := evidence_of_goesOn h hint
  refine ⟨?_, fun key hkey => hkeys.subset hkey, hbudget, hwindow, ?_, language_of_goesOn h, ?_, ?_⟩
  · have hlength := hkeys.length_le
    rw [List.length_map, List.length_map] at hlength
    refine Evidence.confidence_le ?_ hevidence hintent hlength e'.length_fields_le hwindow
    rw [Topic.evidence_ofText]
    split_ifs <;> decide
  · simp only [Topic.domain_ne_unknown_iff]
    intro hne
    rcases hevidence with heq | heq
    · rwa [heq]
    · rw [heq]
      decide
  · refine idxOf_getD_le (fun i _ => ?_) fun i hi => exists_intent_of_goesOn h hi
    cases i <;> decide
  · intro hnone
    simp only [Topic.domain_ofText_of_no_hint _ hnone]
    refine idxOf_getD_le (fun d _ => ?_) fun d hd => exists_domain_of_goesOn h hd
    cases d <;> decide

/-- Adding words to a question, after blanks, never loses what was understood of it. -/
theorem Classification.keeps_of_ofQuestion {t w u : String} (hw : w ≠ "")
    (hblank : ∀ c ∈ w.toList, isBlank c = true) {hint : Option Domain} {now : Moment}
    {a b : Classification} (ha : ofQuestion t hint now = .ok a)
    (hb : ofQuestion (t ++ w ++ u) hint now = .ok b) : a.Keeps hint b :=
  keeps_of_goesOn (normalize_append (by simpa using hw) hblank) ha hb

/-- A currency that is added names the same budget, and a number that is added does not change
it. -/
theorem Classification.keeps_of_ofQuestion_currency :
    let now : Moment :=
      ⟨.startOfDay ⟨2024, 6, 15, by decide, by decide, by decide, by decide, by decide, by decide⟩,
        .floating, false⟩
    ∃ a b, ofQuestion "Leads, Budget 3.000" none now = .ok a ∧
      ofQuestion ("Leads, Budget 3.000" ++ "\n " ++ "Euro, letzte 7 Tage") none now = .ok b ∧
      a.Keeps none b ∧ b.entities.lookup "budgetAmount" = some (.int 3000) := by
  intro now
  have hread : ∃ a b, ofQuestion "Leads, Budget 3.000" none now = .ok a ∧
      ofQuestion ("Leads, Budget 3.000" ++ "\n " ++ "Euro, letzte 7 Tage") none now = .ok b ∧
      a.entities.lookup "budgetAmount" = some (.int 3000) :=
    ⟨_, _, rfl, rfl, rfl⟩
  obtain ⟨a, b, ha, hb, hamount⟩ := hread
  have hkeeps := keeps_of_ofQuestion (t := "Leads, Budget 3.000") (w := "\n ")
    (u := "Euro, letzte 7 Tage") (by decide) (by decide) ha hb
  exact ⟨a, b, ha, hb, hkeeps, hkeeps.budget _ hamount⟩

end CrmQuery
