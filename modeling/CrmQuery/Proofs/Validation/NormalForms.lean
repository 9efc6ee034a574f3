import CrmQuery.Proofs.Calendar.Iso
import CrmQuery.Proofs.Json.ReadBack
import CrmQuery.Proofs.Validation.Checks
import CrmQuery.Validation.Records

/-!
# Normal forms

What a check accepts is written as JSON in a form that the check accepts as the same value
(`NormalForm.again`), and the JSON can be written as a text if the JSON that was checked came from
one (`NormalForm.writable`).
-/

namespace CrmQuery

open Json (Everywhere Writable)
open Text (maxNumeralDigits)

/-- Writing the values of a check as JSON. -/
structure NormalForm {α : Type} (check : Json → Checked α) (toJson : α → Json) : Prop where
  again : ∀ {j : Json} {a : α}, check j = .ok a → check (toJson a) = .ok a
  writable : ∀ {j : Json} {a : α}, j.Everywhere Writable → check j = .ok a →
    (toJson a).Everywhere Writable

namespace NormalForm

variable {α : Type} {check : Json → Checked α} {toJson : α → Json}

/-- A value that has one form only is in normal form. -/
theorem of_eq (h : ∀ {j : Json} {a : α}, check j = .ok a → toJson a = j) :
    NormalForm check toJson where
  again hj := by rwa [h hj]
  writable hw hj := by rwa [h hj]

/-- The JSON of a value is written whatever it was read from. -/
theorem of_writable (again : ∀ {j : Json} {a : α}, check j = .ok a → check (toJson a) = .ok a)
    (writable : ∀ a, (toJson a).Writable) (leaf : ∀ a, (toJson a).parts = []) :
    NormalForm check toJson where
  again := again
  writable _ _ := Everywhere.of_parts_eq_nil (writable _) (leaf _)

end NormalForm

/-! ### Simple values -/

theorem eq_of_named? {α : Type} {all : List α} {name : α → String} {s : String} {a : α}
    (h : named? all name s = some a) : name a = s := by
  simpa using List.find?_some h

namespace Lenient

theorem normalForm_string : NormalForm string .string :=
  .of_eq fun {j} s h => by
    cases j with
    | string t => rw [Except.ok.inj h]
    | _ => cases h

theorem normalForm_any : NormalForm any id := .of_eq fun h => (Except.ok.inj h).symm

theorem normalForm_fields : NormalForm fields .object :=
  .of_eq fun {j} f h => by
    cases j with
    | object g => rw [Except.ok.inj h]
    | _ => cases h

theorem normalForm_named {α : Type} (all : List α) (name : α → String) :
    NormalForm (named all name) fun a => .string (name a) :=
  .of_eq fun {j} a h => by
    cases j with
    | string s =>
      unfold named at h
      dsimp only at h
      split at h
      · rename_i b hb
        cases h
        rw [eq_of_named? hb]
      · cases h
    | _ => cases h

theorem normalForm_literal {α : Type} (all : List α) (name : α → String) :
    NormalForm (literal all name) fun a => .string (name a) :=
  .of_eq fun {j} a h => by
    cases j with
    | string s =>
      unfold literal at h
      dsimp only at h
      split at h
      · rename_i b hb
        cases h
        rw [eq_of_named? hb]
      · cases h
    | _ => cases h

theorem isWritten_of_moment {j : Json} {m : Moment} (h : moment j = .ok m) : m.IsWritten := by
  unfold moment at h
  split at h
  · rename_i s
    have hread := eq_ok_of_mapError h
    cases htext : Moment.ofUnixText? s.toList with
    | none =>
      rw [htext] at hread
      exact Moment.isWritten_of_read hread
    | some r =>
      obtain ⟨n, micros, rfl⟩ := Moment.exists_of_ofUnixText? htext
      rw [htext] at hread
      exact Moment.isWritten_of_ofUnix hread
  · split_ifs at h
    · exact Moment.isWritten_of_ofUnix (eq_ok_of_mapError h)
    · cases h
  · have hread := eq_ok_of_mapError h
    unfold Moment.ofUnixFloat at hread
    split_ifs at hread
    · exact Moment.isWritten_of_ofUnix hread
  · cases h

theorem moment_jsonText {m : Moment} (h : m.IsWritten) : moment (.string m.jsonText) = .ok m := by
  unfold moment
  dsimp only
  rw [Moment.ofUnixText?_jsonText h, Option.getD_none, Moment.read_jsonText h]
  rfl

theorem normalForm_moment : NormalForm moment fun m => .string m.jsonText :=
  .of_writable (fun h => moment_jsonText (isWritten_of_moment h)) (fun _ => True.intro) fun _ => rfl

/-! ### Numbers -/

theorem natAbs_lt_of_plainInt {s : List Char} {i : Int} (h : plainInt s = .ok i) :
    i.natAbs < 10 ^ maxNumeralDigits := by
  unfold plainInt at h
  split at h
  rename_i negative rest _
  dsimp only at h
  generalize rest.takeWhile Char.isDigit = digits at h
  have hlength : digits.length ≤ if negative then digits.length + 1 else digits.length := by
    split <;> omega
  generalize (if negative then digits.length + 1 else digits.length) = width at h hlength
  split at h
  · cases h
  · split at h
    · cases h
    · split at h
      · cases h
      · obtain rfl := Except.ok.inj h
        exact Json.natAbs_lt_of_length (by omega) negative

theorem natAbs_lt_of_intOfText {s : List Char} {i : Int} (h : intOfText s = .ok i) :
    i.natAbs < 10 ^ maxNumeralDigits := by
  unfold intOfText at h
  split at h
  · split at h
    · exact natAbs_lt_of_plainInt h
    · cases h
  · exact natAbs_lt_of_plainInt h

theorem wordBound_le : wordBound ≤ 10 ^ maxNumeralDigits :=
  calc wordBound ≤ 10 ^ 19 := by decide
    _ ≤ 10 ^ maxNumeralDigits := Nat.pow_le_pow_right (by decide) (by decide)

/-- An integer has few enough digits to be written, whatever stands for it. -/
theorem natAbs_lt_of_int {j : Json} (hj : j.Writable) {i : Int} (h : int j = .ok i) :
    i.natAbs < 10 ^ maxNumeralDigits := by
  unfold int at h
  split at h
  · cases h
    exact hj
  · rename_i b
    cases h
    have hone : (ofBool b).natAbs < wordBound := by cases b <;> decide
    exact hone.trans_le wordBound_le
  · dsimp only at h
    split at h
    · cases h
    · split at h
      · cases h
      · split at h
        · rename_i hbound
          cases h
          exact hbound.trans_le wordBound_le
        · cases h
  · exact natAbs_lt_of_intOfText (eq_ok_of_mapError h)
  · cases h

end Lenient

theorem normalForm_positiveCount : NormalForm positiveCount fun n => .int n.1 where
  again := fun {j} n hj => by
    have hone : (1 : Int) ≤ n.1 := by exact_mod_cast n.2
    show (if h : (1 : Int) ≤ n.1 then _ else _) = _
    rw [dif_pos hone]
    rfl
  writable := fun {j} n hw hj => by
    obtain ⟨i, hi, h⟩ := exists_of_bind_eq_ok hj
    split at h
    · cases h
      refine Everywhere.of_parts_eq_nil ?_ rfl
      have hlt := Lenient.natAbs_lt_of_int hw.here hi
      show ((i.toNat : Int)).natAbs < 10 ^ maxNumeralDigits
      omega
    · cases h

theorem normalForm_share : NormalForm share .float :=
  .of_writable
    (fun {j} x h => by
      obtain ⟨y, -, hy⟩ := exists_of_bind_eq_ok h
      obtain rfl : y = x := by
        split at hy
        · cases hy
        · split at hy
          · cases hy
          · exact Except.ok.inj hy
      exact hy)
    (fun _ => True.intro) fun _ => rfl

/-! ### Lists and options -/

namespace Lenient

theorem nullable_eq_ok {α : Type} {check : Json → Checked α} {j : Json} {o : Option α}
    (hj : nullable check j = .ok o) :
    (o = none ∧ j = .null) ∨ ∃ a, o = some a ∧ check j = .ok a := by
  unfold nullable at hj
  split at hj
  · exact Or.inl ⟨(Except.ok.inj hj).symm, rfl⟩
  · obtain ⟨a, ha, rfl⟩ := map_eq_ok_iff.1 hj
    exact Or.inr ⟨a, rfl, ha⟩

variable {α : Type} {check : Json → Checked α} {toJson : α → Json} (h : NormalForm check toJson)
include h

theorem normalForm_list (kind : FaultKind) :
    NormalForm (list kind check) fun as => .array (as.map toJson) where
  again := fun {j} as hj => by
    cases j with
    | array items =>
      refine Checked.each_map_eq_ok (fun a ha => ?_) 0
      obtain ⟨item, -, hitem⟩ := Checked.exists_of_each_eq_ok hj a ha
      exact h.again hitem
    | _ => cases hj
  writable := fun {j} as hw hj => by
    cases j with
    | array items =>
      refine .of True.intro fun w hmem => ?_
      obtain ⟨a, ha, rfl⟩ := List.mem_map.1 hmem
      obtain ⟨item, hin, hitem⟩ := Checked.exists_of_each_eq_ok hj a ha
      exact h.writable (hw.inside item hin) hitem
    | _ => cases hj

theorem normalForm_nullable (hnull : ∀ a, toJson a ≠ .null) :
    NormalForm (nullable check) (Json.ofOption toJson) where
  again := fun {j} o hj => by
    rcases nullable_eq_ok hj with ⟨rfl, -⟩ | ⟨a, rfl, ha⟩
    · rfl
    · show nullable check (toJson a) = .ok (some a)
      unfold nullable
      split
      · rename_i heq
        exact absurd heq (hnull a)
      · rw [h.again ha]
        rfl
  writable := fun {j} o hw hj => by
    rcases nullable_eq_ok hj with ⟨rfl, -⟩ | ⟨a, rfl, ha⟩
    · exact .of_parts_eq_nil True.intro rfl
    · exact h.writable hw ha

end Lenient

/-! ### Fields -/

/-- A value that a record holds in a field is in normal form: it is found again in every record that
holds its JSON there. -/
structure IsNormalField {α : Type} (checked : Json → Checked α) (key : String) (toJson : α → Json) :
    Prop where
  again : ∀ {j : Json} {a : α}, checked j = .ok a → ∀ {k : Json},
    k.field? key = some (toJson a) → checked k = .ok a
  writable : ∀ {j : Json} {a : α}, j.Everywhere Writable → checked j = .ok a →
    (toJson a).Everywhere Writable

theorem everywhere_of_field? {p : Json → Prop} {j w : Json} {key : String} (hj : j.Everywhere p)
    (h : j.field? key = some w) : w.Everywhere p := by
  cases j with
  | object fields =>
    refine hj.inside w ?_
    obtain ⟨before, after, rfl, -⟩ := List.lookup_eq_some_iff.1 h
    simp [Json.parts]
  | _ => cases h

namespace NormalForm

variable {α : Type} {check : Json → Checked α} {toJson : α → Json} (h : NormalForm check toJson)
include h

theorem required (key : String) : IsNormalField (Checked.required key check) key toJson where
  again := fun {_ _} hj {k} hk => by
    obtain ⟨w, -, hw⟩ := Checked.required_eq_ok_iff.1 hj
    exact Checked.required_eq_ok_iff.2 ⟨_, hk, h.again hw⟩
  writable := fun hw hj => by
    obtain ⟨w, hfield, hw'⟩ := Checked.required_eq_ok_iff.1 hj
    exact h.writable (everywhere_of_field? hw hfield) hw'

/-- The value that a missing field stands for has to be in normal form too. -/
theorem optional (key : String) {default : α} (hdefault : check (toJson default) = .ok default)
    (hwritable : (toJson default).Everywhere Writable) :
    IsNormalField (Checked.optional key default check) key toJson where
  again := fun {_ _} hj {k} hk => by
    rw [Checked.optional_eq_ok_iff] at hj ⊢
    rcases hj with ⟨-, rfl⟩ | ⟨w, -, hw⟩
    · exact Or.inr ⟨_, hk, hdefault⟩
    · exact Or.inr ⟨_, hk, h.again hw⟩
  writable := fun hw hj => by
    rcases Checked.optional_eq_ok_iff.1 hj with ⟨-, rfl⟩ | ⟨w, hfield, hw'⟩
    · exact hwritable
    · exact h.writable (everywhere_of_field? hw hfield) hw'

end NormalForm

end CrmQuery
