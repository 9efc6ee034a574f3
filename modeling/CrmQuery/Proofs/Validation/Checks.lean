import CrmQuery.Validation.Lenient
import CrmQuery.Proofs.Question.Classify
import Mathlib.Data.List.Forall2

/-!
# When checks succeed

A check of several parts succeeds if and only if each part does; the lemmas say which values come
out.
-/

namespace CrmQuery

theorem map_eq_ok_iff {ε α β : Type} {r : Except ε α} {f : α → β} {b : β} :
    r.map f = .ok b ↔ ∃ a, r = .ok a ∧ f a = b := by
  cases r with
  | error e => simp [Except.map]
  | ok a => simp [Except.map]

namespace Checked

variable {α β : Type}

theorem under_eq_ok_iff {step : Step} {r : Checked α} {a : α} :
    under step r = .ok a ↔ r = .ok a := by
  cases r with
  | error e => simp [under, Except.mapError]
  | ok b => simp [under, Except.mapError]

theorem both_eq_ok_iff {r : Checked α} {r' : Checked β} {a : α} {b : β} :
    both r r' = .ok (a, b) ↔ r = .ok a ∧ r' = .ok b := by
  cases r <;> cases r' <;> simp [both]

theorem required_eq_ok_iff {key : String} {check : Json → Checked α} {v : Json} {a : α} :
    required key check v = .ok a ↔ ∃ w, v.field? key = some w ∧ check w = .ok a := by
  unfold required
  rw [under_eq_ok_iff]
  cases v.field? key with
  | none => simp [fault]
  | some w => simp

theorem optional_eq_ok_iff {key : String} {default : α} {check : Json → Checked α} {v : Json}
    {a : α} : optional key default check v = .ok a ↔
      (v.field? key = none ∧ default = a) ∨ ∃ w, v.field? key = some w ∧ check w = .ok a := by
  unfold optional
  rw [under_eq_ok_iff]
  cases v.field? key with
  | none => simp
  | some w => simp

theorem each_eq_ok_iff {check : α → Checked β} {items : List α} {n : Nat} {values : List β} :
    each check n items = .ok values ↔ List.Forall₂ (fun a b => check a = .ok b) items values := by
  induction items generalizing n values with
  | nil =>
    unfold each
    rw [Except.ok.injEq, List.forall₂_nil_left_iff, eq_comm]
  | cons a items ih =>
    unfold each
    rw [map_eq_ok_iff]
    constructor
    · rintro ⟨⟨b, bs⟩, hboth, rfl⟩
      rw [both_eq_ok_iff, under_eq_ok_iff, ih] at hboth
      exact .cons hboth.1 hboth.2
    · intro h
      cases h with
      | cons hb hbs => exact ⟨(_, _), both_eq_ok_iff.2 ⟨under_eq_ok_iff.2 hb, ih.2 hbs⟩, rfl⟩

/-- Every value of a list comes from an item. -/
theorem exists_of_each_eq_ok {check : α → Checked β} {items : List α} {n : Nat} {values : List β}
    (h : each check n items = .ok values) : ∀ b ∈ values, ∃ a ∈ items, check a = .ok b := by
  have hall := each_eq_ok_iff.1 h
  clear h
  induction hall with
  | nil => simp
  | cons hb _ ih =>
    rw [List.forall_mem_cons]
    refine ⟨⟨_, List.mem_cons_self, hb⟩, fun b hmem => ?_⟩
    obtain ⟨a, ha, hab⟩ := ih b hmem
    exact ⟨a, List.mem_cons_of_mem _ ha, hab⟩

theorem each_map_eq_ok {check : α → Checked β} {f : β → α} {values : List β}
    (h : ∀ b ∈ values, check (f b) = .ok b) (n : Nat) :
    each check n (values.map f) = .ok values := by
  rw [each_eq_ok_iff, List.forall₂_map_left_iff, List.forall₂_same]
  exact h

end Checked

end CrmQuery
