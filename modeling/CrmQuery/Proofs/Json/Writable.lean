import CrmQuery.Json.Reader
import CrmQuery.Proofs.Question.Classify
import CrmQuery.Proofs.Text.Numerals
import Mathlib.Data.List.Induction

/-!
# Values that can be written

A value can be written as a text that is read if no integer in it is too long and no object in it
repeats a key (`Json.Writable`).  What was read from a text can be written
(`Json.writable_of_read`).
-/

namespace CrmQuery.Json

open Text

/-! ### Values inside of values -/

/-- The values right inside of a value. -/
def parts : Json → List Json
  | array items => items
  | object fields => fields.map Prod.snd
  | _ => []

/-- A property of a value and of all values inside of it. -/
inductive Everywhere (p : Json → Prop) : Json → Prop
  | of {v : Json} (here : p v) (inside : ∀ w ∈ v.parts, Everywhere p w) : Everywhere p v

namespace Everywhere

variable {p : Json → Prop} {v : Json}

theorem here (h : v.Everywhere p) : p v := by
  cases h with
  | of here _ => exact here

theorem inside (h : v.Everywhere p) : ∀ w ∈ v.parts, w.Everywhere p := by
  cases h with
  | of _ inside => exact inside

theorem of_parts_eq_nil (h : p v) (hparts : v.parts = []) : v.Everywhere p :=
  .of h (by simp [hparts])

end Everywhere

/-- The value itself does not prevent its text from being read: an integer has few enough digits,
and an object does not repeat a key. -/
def Writable : Json → Prop
  | int i => i.natAbs < 10 ^ maxNumeralDigits
  | object fields => (fields.map Prod.fst).Nodup
  | _ => True

/-! ### Simple values -/

@[simp] theorem everywhere_string (s : String) : (string s).Everywhere Writable :=
  .of_parts_eq_nil True.intro rfl

@[simp] theorem everywhere_float (x : Float) : (float x).Everywhere Writable :=
  .of_parts_eq_nil True.intro rfl

@[simp] theorem everywhere_bool (b : Bool) : (bool b).Everywhere Writable :=
  .of_parts_eq_nil True.intro rfl

@[simp] theorem everywhere_null : null.Everywhere Writable := .of_parts_eq_nil True.intro rfl

/-! ### What is read -/

theorem digit?_getD_lt (d : Char) : (digit? d).getD 0 < 10 := by
  cases hd : digit? d with
  | none => decide
  | some k =>
    obtain ⟨z, -, hk, -⟩ := exists_zero_of_digitFrom? hd
    exact hk

/-- A number with so many digits is less than the power of ten. -/
theorem numeral_lt (ds : List Char) : numeral ds < 10 ^ ds.length := by
  induction ds using List.reverseRecOn with
  | nil => exact Nat.one_pos
  | append_singleton ds d ih =>
    have hd := digit?_getD_lt d
    rw [numeral_concat, List.length_append, List.length_singleton, Nat.pow_succ]
    omega

theorem natAbs_lt_of_length {ds : List Char} (h : ¬ maxNumeralDigits < ds.length)
    (negative : Bool) :
    (if negative then -(numeral ds : Int) else numeral ds).natAbs < 10 ^ maxNumeralDigits := by
  have hlt : numeral ds < 10 ^ maxNumeralDigits :=
    (numeral_lt ds).trans_le (Nat.pow_le_pow_right (by decide) (Nat.not_lt.1 h))
  cases negative
  · exact hlt
  · rw [if_pos rfl, Int.natAbs_neg]
    exact hlt

theorem writable_of_readUnsigned {start : Input} {negative : Bool} {s s' : Input} {v : Json}
    (h : readUnsigned start negative s = .ok (v, s')) : v.Everywhere Writable := by
  unfold readUnsigned at h
  split at h
  · cases h
  · rename_i d _ _
    dsimp only at h
    generalize (if d = '0' then ['0'] else s.rest.takeWhile Char.isDigit) = whole at h
    generalize fraction? (s.skip whole.length).rest = fraction at h
    generalize (s.skip whole.length).skip
      (if fraction.isSome then (fraction.getD []).length + 1 else 0) = t at h
    split at h
    · split at h
      · cases h
        exact Everywhere.of_parts_eq_nil True.intro rfl
      · split at h
        · cases h
        · rename_i hshort
          cases h
          exact Everywhere.of_parts_eq_nil (natAbs_lt_of_length hshort negative) rfl
    · cases h

theorem writable_of_readWord {word : String} {value v : Json} {s s' : Input}
    (h : readWord word value s = .ok (v, s')) (hvalue : value.Everywhere Writable) :
    v.Everywhere Writable := by
  unfold readWord at h
  split_ifs at h
  · cases h
    exact hvalue
  · cases h

theorem writable_of_readScalar {s s' : Input} {v : Json} (h : readScalar s = .ok (v, s')) :
    v.Everywhere Writable := by
  unfold readScalar at h
  split at h
  case h_7 => exact writable_of_readUnsigned h
  case h_8 => exact writable_of_readUnsigned h
  all_goals exact writable_of_readWord h (Everywhere.of_parts_eq_nil True.intro rfl)

/-- Fields with different keys and with values that can be written. -/
def FieldsWritable (fields : List (String × Json)) : Prop :=
  (fields.map Prod.fst).Nodup ∧ ∀ f ∈ fields, f.2.Everywhere Writable

theorem FieldsWritable.object {fields : List (String × Json)} (h : FieldsWritable fields) :
    (object fields).Everywhere Writable := by
  refine .of h.1 fun w hw => ?_
  obtain ⟨f, hf, rfl⟩ := List.mem_map.1 hw
  exact h.2 f hf

theorem FieldsWritable.setField {key : String} {value : Json} {fields : List (String × Json)}
    (h : FieldsWritable fields) (hvalue : value.Everywhere Writable) :
    FieldsWritable (setField key value fields) := by
  have hkeys : ∀ {fields : List (String × Json)} {k : String},
      k ∈ (Json.setField key value fields).map Prod.fst ↔ k = key ∨ k ∈ fields.map Prod.fst := by
    intro fields k
    induction fields with
    | nil => simp [Json.setField]
    | cons f fields ih =>
      unfold Json.setField
      split_ifs with hf
      · simp [hf]
      · rw [List.map_cons, List.mem_cons, ih, List.map_cons, List.mem_cons]
        tauto
  induction fields with
  | nil => exact ⟨by simp [Json.setField], by simpa [Json.setField] using hvalue⟩
  | cons f fields ih =>
    obtain ⟨hnodup, hall⟩ := h
    rw [List.map_cons, List.nodup_cons] at hnodup
    obtain ⟨hf, hfields⟩ := List.forall_mem_cons.1 hall
    unfold Json.setField
    split_ifs with hkey
    · exact ⟨by simpa using hnodup, List.forall_mem_cons.2 ⟨hvalue, hfields⟩⟩
    · obtain ⟨hrest, hvalues⟩ := ih ⟨hnodup.2, hfields⟩
      refine ⟨?_, List.forall_mem_cons.2 ⟨hf, hvalues⟩⟩
      rw [List.map_cons, List.nodup_cons, hkeys, not_or]
      exact ⟨⟨hkey, hnodup.1⟩, hrest⟩

section Step

variable {fuel : Nat}

/-- All values that are read with the fuel can be written. -/
def ReadsWritable (fuel : Nat) : Prop :=
  ∀ s v s', readValue fuel s = .ok (v, s') → v.Everywhere Writable

/-- All items that are read with the fuel can be written. -/
def ReadsWritableItems (fuel : Nat) : Prop :=
  ∀ s items s', readItems fuel s = .ok (items, s') → ∀ v ∈ items, v.Everywhere Writable

/-- With the fuel, fields that can be written stay so. -/
def ReadsWritableFields (fuel : Nat) : Prop :=
  ∀ s before fields s', FieldsWritable before → readFields fuel before s = .ok (fields, s') →
    FieldsWritable fields

theorem readsWritable_succ (hitems : ReadsWritableItems fuel) (hfields : ReadsWritableFields fuel) :
    ReadsWritable (fuel + 1) := by
  intro s v s' h
  rw [readValue] at h
  split at h
  · obtain ⟨⟨t, u⟩, -, h⟩ := exists_of_bind_eq_ok h
    cases h
    exact Everywhere.of_parts_eq_nil True.intro rfl
  · dsimp only at h
    split at h
    · cases h
      exact Everywhere.of_parts_eq_nil True.intro rfl
    · obtain ⟨⟨items, u⟩, hread, h⟩ := exists_of_bind_eq_ok h
      cases h
      exact .of True.intro (hitems _ _ _ hread)
  · dsimp only at h
    split at h
    · cases h
      exact Everywhere.of_parts_eq_nil List.nodup_nil rfl
    · obtain ⟨⟨fields, u⟩, hread, h⟩ := exists_of_bind_eq_ok h
      cases h
      exact (hfields _ [] _ _ ⟨by simp, by simp⟩ hread).object
  · exact writable_of_readScalar h

theorem readsWritableItems_succ (hvalue : ReadsWritable fuel) (hitems : ReadsWritableItems fuel) :
    ReadsWritableItems (fuel + 1) := by
  intro s items s' h
  rw [readItems] at h
  obtain ⟨⟨v, u⟩, hv, h⟩ := exists_of_bind_eq_ok h
  dsimp only at h
  split at h
  · cases h
    exact List.forall_mem_singleton.2 (hvalue _ _ _ hv)
  · obtain ⟨⟨rest, w⟩, hrest, h⟩ := exists_of_bind_eq_ok h
    cases h
    exact List.forall_mem_cons.2 ⟨hvalue _ _ _ hv, hitems _ _ _ hrest⟩
  · cases h

theorem readsWritableFields_succ (hvalue : ReadsWritable fuel)
    (hfields : ReadsWritableFields fuel) : ReadsWritableFields (fuel + 1) := by
  intro s before fields s' hbefore h
  rw [readFields] at h
  dsimp only at h
  split at h
  · cases h
  · obtain ⟨⟨key, t⟩, -, h⟩ := exists_of_bind_eq_ok h
    dsimp only at h
    split at h
    · cases h
    · obtain ⟨⟨value, u⟩, hread, h⟩ := exists_of_bind_eq_ok h
      have hset : FieldsWritable (Json.setField key value before) :=
        hbefore.setField (hvalue _ _ _ hread)
      dsimp only at h
      split at h
      · cases h
        exact hset
      · exact hfields _ _ _ _ hset h
      · cases h

end Step

/-- What is read can be written. -/
theorem readsWritable (fuel : Nat) :
    ReadsWritable fuel ∧ ReadsWritableItems fuel ∧ ReadsWritableFields fuel := by
  induction fuel with
  | zero =>
    refine ⟨fun s v s' h => ?_, fun s items s' h => ?_, fun s before fields s' _ h => ?_⟩
    · rw [readValue] at h
      cases h
    · rw [readItems] at h
      cases h
    · rw [readFields] at h
      cases h
  | succ fuel ih =>
    obtain ⟨hvalue, hitems, hfields⟩ := ih
    exact ⟨readsWritable_succ hitems hfields, readsWritableItems_succ hvalue hitems,
      readsWritableFields_succ hvalue hfields⟩

/-- The value of a text can be written. -/
theorem writable_of_read {text : String} {v : Json} (h : read text = .ok v) :
    v.Everywhere Writable := by
  unfold read at h
  obtain ⟨⟨w, s⟩, hw, h⟩ := exists_of_bind_eq_ok h
  dsimp only at h
  split at h
  · cases h
    exact (readsWritable _).1 _ _ _ hw
  · cases h

end CrmQuery.Json
