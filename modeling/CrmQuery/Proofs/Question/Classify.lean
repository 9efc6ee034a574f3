import CrmQuery.Question.Classify
import Mathlib.Tactic.Common

/-!
# What classifications are made of

A classification puts together what its parts find in the normal form of a question
(`of_ofQuestion_eq_ok`).  Each entity that is found is one field of it.
-/

namespace CrmQuery

/-! ### Results -/

theorem exists_of_bind_eq_ok {ε α β : Type} {x : Except ε α} {f : α → Except ε β} {b : β}
    (h : x >>= f = .ok b) : ∃ a, x = .ok a ∧ f a = .ok b := by
  cases x with
  | error e => cases h
  | ok a => exact ⟨a, rfl, h⟩

theorem eq_ok_of_mapError {ε ε' α : Type} {x : Except ε α} {f : ε → ε'} {a : α}
    (h : x.mapError f = .ok a) : x = .ok a := by
  cases x with
  | error e => cases h
  | ok b =>
    cases h
    rfl

/-! ### Entities -/

namespace Entities

variable (e : Entities)

theorem lookup_leadStatus : e.fields.lookup "leadStatus" =
    e.leadStatus.map fun a => .string a.name := by
  rcases e with ⟨_ | a, _ | b, _ | m, _ | s⟩ <;> rfl

theorem lookup_country : e.fields.lookup "country" = e.country.map fun a => .string a.key := by
  rcases e with ⟨_ | a, _ | b, _ | m, _ | s⟩ <;> rfl

theorem lookup_budgetAmount : e.fields.lookup "budgetAmount" =
    e.budget.map fun a => .int a.amount := by
  rcases e with ⟨_ | a, _ | b, _ | m, _ | s⟩ <;> rfl

theorem lookup_bookingStatus : e.fields.lookup "bookingStatus" =
    e.bookingStatus.map fun a => .string a.name := by
  rcases e with ⟨_ | a, _ | b, _ | m, _ | s⟩ <;> rfl

theorem length_fields_le : e.fields.length ≤ 4 := by
  rcases e with ⟨_ | a, _ | b, _ | m, _ | s⟩ <;> simp [fields]

theorem of_ofText_eq_ok {s : List Char} {e : Entities} (h : ofText s = .ok e) :
    ∃ budget, Budget.ofText? s = .ok budget ∧
      e = {
        leadStatus := firstNamed? LeadStatus.all LeadStatus.patterns s
        country := firstNamed? Country.all Country.patterns s
        budget := budget
        bookingStatus := firstNamed? BookingStatus.all BookingStatus.patterns s } := by
  unfold ofText at h
  obtain ⟨budget, hbudget, h⟩ := exists_of_bind_eq_ok h
  cases h
  exact ⟨budget, hbudget, rfl⟩

end Entities

/-! ### Classifications -/

theorem of_ofQuestion_eq_ok {question : String} {hint : Option Domain} {now : Moment}
    {c : Classification} (h : Classification.ofQuestion question hint now = .ok c) :
    ∃ e timeframe, Entities.ofText (normalize question) = .ok e ∧
      Timeframe.ofText? (normalize question) now = .ok timeframe ∧
        let topic := Topic.ofText (normalize question) hint
        let intent? := Intent.ofText? (normalize question)
        c = {
          domain := topic.domain
          intent := intent?.getD .list
          entities := e.fields
          filters := e.filters topic.domain
          timeframe := timeframe
          aggregation := (intent?.getD .list).aggregation?
          confidence :=
            topic.evidence.confidence intent?.isSome e.fields.length timeframe.isSome
          language := Language.ofText (normalize question) } := by
  unfold Classification.ofQuestion at h
  obtain ⟨e, he, h⟩ := exists_of_bind_eq_ok h
  obtain ⟨timeframe, htimeframe, h⟩ := exists_of_bind_eq_ok h
  cases h
  exact ⟨e, timeframe, eq_ok_of_mapError he, htimeframe, rfl⟩

end CrmQuery
