import CrmQuery.Proofs.Json.Doubles
import CrmQuery.Proofs.Json.Quoted
import CrmQuery.Proofs.Json.Writable

/-!
# Values read back

The text of a value is read as the value (`Json.read_write`), if its integers are not too long and
the keys of each object in it are different (`Json.Writable`).
-/

namespace CrmQuery.Json

open Text

/-! ### Tokens -/

/-- No white space comes next. -/
def NoSpace (s : List Char) : Prop := ∀ c ∈ s.head?, c ∉ [' ', '\t', '\n', '\r']

theorem skipSpace_of_noSpace {pos : Nat} {s : List Char} (h : NoSpace s) :
    Input.skipSpace ⟨pos, s⟩ = ⟨pos, s⟩ := by
  unfold Input.skipSpace
  cases s with
  | nil => rfl
  | cons c s =>
    have hc := h c rfl
    simp only [List.mem_cons, List.not_mem_nil, or_false, not_or] at hc
    have hfalse : (c == ' ' || c == '\t' || c == '\n' || c == '\r') = false := by simp [hc]
    rw [List.takeWhile_cons_of_neg (by simp [hfalse])]
    rfl

/-- What a number or a word begins with. -/
theorem head?_of_readScalar {pos : Nat} {b : List Char} {r : Json × Input}
    (h : readScalar ⟨pos, b⟩ = .ok r) :
    ∃ c t, b = c :: t ∧ (c.isDigit = true ∨ c ∈ ['n', 't', 'f', 'N', 'I', '-']) := by
  unfold readScalar at h
  dsimp only at h
  split at h
  case h_8 =>
    obtain ⟨d, t, rfl, hd⟩ := exists_digit_of_readUnsigned h
    exact ⟨d, t, rfl, Or.inl hd⟩
  all_goals exact ⟨_, _, rfl, Or.inr (by decide)⟩

theorem not_mem_of_isScalarHead {c : Char}
    (h : c.isDigit = true ∨ c ∈ ['n', 't', 'f', 'N', 'I', '-']) :
    c ∉ [' ', '\t', '\n', '\r', '"', '[', '\x7b'] := by
  intro hc
  rcases h with h | h
  · have hnone : ∀ c ∈ [' ', '\t', '\n', '\r', '"', '[', '\x7b'], c.isDigit = false := by decide
    rw [hnone c hc] at h
    cases h
  · have hnone : ∀ c ∈ [' ', '\t', '\n', '\r', '"', '[', '\x7b'],
        c ∉ ['n', 't', 'f', 'N', 'I', '-'] := by decide
    exact hnone c hc h

theorem readValue_of_readScalar {pos : Nat} {b : List Char} {r : Json × Input}
    (h : readScalar ⟨pos, b⟩ = .ok r) (fuel : Nat) : readValue (fuel + 1) ⟨pos, b⟩ = .ok r := by
  obtain ⟨c, t, rfl, hc⟩ := head?_of_readScalar h
  have hnot := not_mem_of_isScalarHead hc
  rw [readValue]
  split
  case h_4 => exact h
  all_goals
    rename_i heq
    obtain ⟨rfl, -⟩ := List.cons.inj heq
    simp at hnot

/-! ### Structures -/

/-- The text of a value is read as the value if the fuel is enough for its length, whatever follows
it. -/
structure IsReadBack (v : Json) : Prop where
  head : ∃ c t, (write v).toList = c :: t ∧ c ∉ [' ', '\t', '\n', '\r', ']', '\x7d']
  read : ∀ (fuel pos : Nat) (rest : List Char), (write v).toList.length ≤ fuel → Stops rest →
    ∃ pos', readValue fuel ⟨pos, (write v).toList ++ rest⟩ = .ok (v, ⟨pos', rest⟩)

theorem IsReadBack.noSpace {v : Json} (h : IsReadBack v) (rest : List Char) :
    NoSpace ((write v).toList ++ rest) := by
  obtain ⟨c, t, htext, hc⟩ := h.head
  rw [htext]
  rintro d hd
  obtain rfl : c = d := Option.some.inj hd
  exact fun hmem => hc (List.mem_append_left [']', '\x7d'] hmem)

theorem isReadBack_of_readsBack {v : Json} (h : ReadsBack v) : IsReadBack v := by
  constructor
  case head =>
    obtain ⟨pos, hread⟩ := h
    obtain ⟨c, t, htext, hc⟩ := head?_of_readScalar hread
    refine ⟨c, t, htext, fun hmem => ?_⟩
    have hclose : ∀ d ∈ [']', '\x7d'], d.isDigit = false ∧ d ∉ ['n', 't', 'f', 'N', 'I', '-'] := by
      decide
    have happend : c ∈ [' ', '\t', '\n', '\r'] ++ [']', '\x7d'] := hmem
    rcases List.mem_append.1 happend with hd | hd
    · exact not_mem_of_isScalarHead hc (List.mem_append_left ['"', '[', '\x7b'] hd)
    · rcases hc with hc | hc
      · rw [(hclose c hd).1] at hc
        cases hc
      · exact (hclose c hd).2 hc
  case read =>
    intro fuel pos rest hfuel hrest
    obtain ⟨pos', hread⟩ := h.append hrest pos
    obtain ⟨c, t, htext, -⟩ := head?_of_readScalar h.choose_spec
    obtain ⟨fuel, rfl⟩ : ∃ k, fuel = k + 1 :=
      Nat.exists_eq_succ_of_ne_zero (by rw [htext, List.length_cons] at hfuel; omega)
    exact ⟨pos', readValue_of_readScalar hread fuel⟩

theorem isReadBack_string (t : String) : IsReadBack (string t) := by
  have htext : (write (string t)).toList = '"' :: (t.toList.flatMap escapeChar ++ ['"']) := by
    show (writeString t).toList = _
    simp [writeString]
  constructor
  case head => exact ⟨'"', _, htext, by decide⟩
  case read =>
    intro fuel pos rest hfuel hrest
    obtain ⟨pos', hread⟩ := readString_writeString t pos rest
    obtain ⟨fuel, rfl⟩ : ∃ k, fuel = k + 1 :=
      Nat.exists_eq_succ_of_ne_zero (by rw [htext, List.length_cons] at hfuel; omega)
    refine ⟨pos', ?_⟩
    have hwrite : (write (string t)).toList = (writeString t).toList := rfl
    rw [hwrite] at htext ⊢
    rw [htext, List.cons_append] at hread ⊢
    rw [readValue]
    dsimp only
    rw [hread]
    rfl

theorem writeItems_eq (items : List Json) : writeItems items = items.map write := by
  induction items with
  | nil => rfl
  | cons v items ih => rw [writeItems, ih, List.map_cons]

/-- The characters of the items of an array, with commas between them. -/
def itemsText (items : List Json) : List Char :=
  [','].intercalate (items.map fun v => (write v).toList)

theorem toList_write_array (items : List Json) :
    (write (array items)).toList = '[' :: (itemsText items ++ [']']) := by
  have hcomma : ",".toList = [','] := rfl
  show ("[" ++ ",".intercalate (writeItems items) ++ "]").toList = _
  rw [writeItems_eq, String.toList_append, String.toList_append, String.toList_intercalate,
    List.map_map, hcomma]
  rfl

theorem itemsText_cons_cons (v w : Json) (items : List Json) : itemsText (v :: w :: items) =
    (write v).toList ++ ',' :: itemsText (w :: items) := by
  unfold itemsText
  rw [List.map_cons, List.map_cons, List.intercalate_cons_cons, List.append_assoc]
  rfl

theorem stops_of_mem {c : Char} (h : c ∈ [',', ']', '\x7d', '"']) (rest : List Char) :
    Stops (c :: rest) := by
  have hstops : ∀ c ∈ [',', ']', '\x7d', '"'],
      c.isDigit = false ∧ c ∉ ['.', 'e', 'E', '+', '-'] := by decide
  rintro d hd
  obtain rfl : c = d := Option.some.inj hd
  exact hstops c h

theorem noSpace_of_mem {c : Char} (h : c ∈ [',', ']', '\x7d', '"', ':']) (rest : List Char) :
    NoSpace (c :: rest) := by
  have hspace : ∀ c ∈ [',', ']', '\x7d', '"', ':'], c ∉ [' ', '\t', '\n', '\r'] := by decide
  rintro d hd
  obtain rfl : c = d := Option.some.inj hd
  exact hspace c h

theorem exists_itemsText_eq (v : Json) (items : List Json) :
    ∃ t, itemsText (v :: items) = (write v).toList ++ t := by
  cases items with
  | nil => exact ⟨[], by simp [itemsText]⟩
  | cons w items => exact ⟨_, itemsText_cons_cons v w items⟩

theorem noSpace_itemsText {v : Json} (h : IsReadBack v) (items : List Json) (rest : List Char) :
    NoSpace (itemsText (v :: items) ++ rest) := by
  obtain ⟨t, ht⟩ := exists_itemsText_eq v items
  rw [ht, List.append_assoc]
  exact h.noSpace _

/-- The items of an array are read one after another. -/
theorem readItems_itemsText (rest : List Char) : ∀ {items : List Json}, items ≠ [] →
    (∀ v ∈ items, IsReadBack v) → ∀ (fuel pos : Nat),
      (itemsText items).length + 1 ≤ fuel → ∃ pos',
        readItems fuel ⟨pos, itemsText items ++ ']' :: rest⟩ = .ok (items, ⟨pos', rest⟩)
  | [v], _, h, fuel, pos, hfuel => by
    have hv : IsReadBack v := h v (List.mem_singleton_self v)
    have htext : itemsText [v] = (write v).toList := by simp [itemsText]
    rw [htext] at hfuel ⊢
    obtain ⟨fuel, rfl⟩ : ∃ k, fuel = k + 1 := Nat.exists_eq_succ_of_ne_zero (by omega)
    obtain ⟨pos', hread⟩ := hv.read fuel pos (']' :: rest) (by omega)
      (stops_of_mem (by decide) rest)
    refine ⟨pos' + 1, ?_⟩
    have hskip : Input.skipSpace ⟨pos', ']' :: rest⟩ = ⟨pos', ']' :: rest⟩ :=
      skipSpace_of_noSpace (noSpace_of_mem (by decide) rest)
    rw [readItems, hread]
    simp only [bind, Except.bind, hskip]
    rfl
  | v :: w :: items, _, h, fuel, pos, hfuel => by
    obtain ⟨hv, hitems⟩ := List.forall_mem_cons.1 h
    have hw : IsReadBack w := hitems w List.mem_cons_self
    rw [itemsText_cons_cons, List.length_append, List.length_cons] at hfuel
    obtain ⟨fuel, rfl⟩ : ∃ k, fuel = k + 1 := Nat.exists_eq_succ_of_ne_zero (by omega)
    obtain ⟨pos', hread⟩ := hv.read fuel pos
      (',' :: (itemsText (w :: items) ++ ']' :: rest)) (by omega)
      (stops_of_mem (by decide) _)
    obtain ⟨pos'', hreads⟩ := readItems_itemsText rest (List.cons_ne_nil w items) hitems
      fuel (pos' + 1) (by omega)
    have hcomma : Input.skipSpace ⟨pos', ',' :: (itemsText (w :: items) ++ ']' :: rest)⟩ =
        ⟨pos', ',' :: (itemsText (w :: items) ++ ']' :: rest)⟩ :=
      skipSpace_of_noSpace (noSpace_of_mem (by decide) _)
    have hitem : Input.skipSpace
        (Input.skip 1 ⟨pos', ',' :: (itemsText (w :: items) ++ ']' :: rest)⟩) =
          ⟨pos' + 1, itemsText (w :: items) ++ ']' :: rest⟩ :=
      skipSpace_of_noSpace (noSpace_itemsText hw items _)
    refine ⟨pos'', ?_⟩
    rw [itemsText_cons_cons, List.append_assoc, List.cons_append, readItems, hread]
    simp only [bind, Except.bind, hcomma, hitem, hreads]
    rfl

theorem isReadBack_array {items : List Json} (h : ∀ v ∈ items, IsReadBack v) :
    IsReadBack (array items) := by
  constructor
  case head => exact ⟨'[', _, toList_write_array items, by decide⟩
  case read =>
    intro fuel pos rest hfuel hrest
    rw [toList_write_array, List.length_cons, List.length_append, List.length_singleton] at hfuel
    rw [toList_write_array]
    obtain ⟨fuel, rfl⟩ : ∃ k, fuel = k + 1 := Nat.exists_eq_succ_of_ne_zero (by omega)
    cases items with
    | nil => exact ⟨pos + 1 + 1, rfl⟩
    | cons v items =>
      obtain ⟨pos', hreads⟩ := readItems_itemsText rest (List.cons_ne_nil v items) h
        fuel (pos + 1) (by omega)
      obtain ⟨t, ht⟩ := exists_itemsText_eq v items
      obtain ⟨c, u, hc, hnot⟩ := (h v List.mem_cons_self).head
      have hopen : (itemsText (v :: items) ++ ']' :: rest).head? ≠ some ']' := by
        rw [ht, hc]
        rintro heq
        obtain rfl : c = ']' := Option.some.inj heq
        exact hnot (by decide)
      refine ⟨pos', ?_⟩
      have hskip :
          Input.skipSpace (Input.skip 1 ⟨pos, '[' :: (itemsText (v :: items) ++ ']' :: rest)⟩) =
            ⟨pos + 1, itemsText (v :: items) ++ ']' :: rest⟩ :=
        skipSpace_of_noSpace (noSpace_itemsText (h v List.mem_cons_self) items _)
      rw [List.cons_append, List.append_assoc, List.singleton_append, readValue]
      dsimp only
      rw [hskip, if_neg hopen, hreads]
      rfl

/-! ### Objects -/

theorem setField_of_not_mem {key : String} {value : Json} {fields : List (String × Json)}
    (h : key ∉ fields.map Prod.fst) : setField key value fields = fields ++ [(key, value)] := by
  induction fields with
  | nil => rfl
  | cons f fields ih =>
    obtain ⟨k, v⟩ := f
    rw [List.map_cons, List.mem_cons, not_or] at h
    rw [setField, if_neg (Ne.symm h.1), ih h.2, List.cons_append]

/-- The characters of a field. -/
def fieldText (f : String × Json) : List Char :=
  (writeString f.1).toList ++ ':' :: (write f.2).toList

/-- The characters of the fields of an object, with commas between them. -/
def fieldsText (fields : List (String × Json)) : List Char :=
  [','].intercalate (fields.map fieldText)

theorem toList_write_object (fields : List (String × Json)) :
    (write (object fields)).toList = '\x7b' :: (fieldsText fields ++ ['\x7d']) := by
  have hcomma : ",".toList = [','] := rfl
  have hfields : (writeFields fields).map String.toList = fields.map fieldText := by
    induction fields with
    | nil => rfl
    | cons f fields ih =>
      rw [writeFields, List.map_cons, List.map_cons, ih]
      simp [fieldText]
  show ("\x7b" ++ ",".intercalate (writeFields fields) ++ "\x7d").toList = _
  rw [String.toList_append, String.toList_append, String.toList_intercalate, hfields, hcomma]
  rfl

theorem fieldsText_cons_cons (f g : String × Json) (fields : List (String × Json)) :
    fieldsText (f :: g :: fields) = fieldText f ++ ',' :: fieldsText (g :: fields) := by
  unfold fieldsText
  rw [List.map_cons, List.map_cons, List.intercalate_cons_cons, List.append_assoc]
  rfl

theorem exists_fieldsText_eq (f : String × Json) (fields : List (String × Json)) :
    ∃ t, fieldsText (f :: fields) = '"' :: t := by
  obtain ⟨t, ht⟩ : ∃ t, fieldText f = '"' :: t := by simp [fieldText, writeString]
  cases fields with
  | nil => exact ⟨t, by simp [fieldsText, ht]⟩
  | cons g fields => exact ⟨_, by rw [fieldsText_cons_cons, ht, List.cons_append]⟩

/-- A field is read up to its value, and a brace or a comma tells what is read next. -/
theorem readFields_fieldText {key : String} {value : Json} (h : IsReadBack value) {fuel : Nat}
    (hfuel : (fieldText (key, value)).length ≤ fuel) (fields : List (String × Json)) (pos : Nat)
    {c : Char} (hc : c = '\x7d' ∨ c = ',') (rest : List Char) : ∃ pos',
      readFields (fuel + 1) fields ⟨pos, fieldText (key, value) ++ c :: rest⟩ =
        if c = '\x7d' then .ok (setField key value fields, ⟨pos', rest⟩)
        else readFields fuel (setField key value fields) (Input.skipSpace ⟨pos', rest⟩) := by
  have hmem : c ∈ [',', ']', '\x7d', '"'] := by
    rcases hc with rfl | rfl <;> decide
  have htext : fieldText (key, value) ++ c :: rest =
      (writeString key).toList ++ ':' :: ((write value).toList ++ c :: rest) := by
    simp [fieldText]
  have hquote : ((writeString key).toList ++ ':' :: ((write value).toList ++ c :: rest)).head? =
      some '"' := by
    simp [writeString]
  have hlength : (write value).toList.length ≤ fuel := by
    simp only [fieldText, List.length_append, List.length_cons] at hfuel
    omega
  obtain ⟨pos₁, hkey⟩ := readString_writeString key pos (':' :: ((write value).toList ++ c :: rest))
  obtain ⟨pos₂, hvalue⟩ := h.read fuel (pos₁ + 1) (c :: rest) hlength (stops_of_mem hmem rest)
  have hcolon : Input.skipSpace ⟨pos₁, ':' :: ((write value).toList ++ c :: rest)⟩ =
      ⟨pos₁, ':' :: ((write value).toList ++ c :: rest)⟩ :=
    skipSpace_of_noSpace (noSpace_of_mem (by decide) _)
  have hbegin : Input.skipSpace (Input.skip 1 ⟨pos₁, ':' :: ((write value).toList ++ c :: rest)⟩) =
      ⟨pos₁ + 1, (write value).toList ++ c :: rest⟩ :=
    skipSpace_of_noSpace (h.noSpace (c :: rest))
  have hend : Input.skipSpace ⟨pos₂, c :: rest⟩ = ⟨pos₂, c :: rest⟩ :=
    skipSpace_of_noSpace (noSpace_of_mem (List.mem_append_left [':'] hmem) rest)
  refine ⟨pos₂ + 1, ?_⟩
  rw [htext, readFields]
  dsimp only
  rw [if_neg (by simp [hquote]), hkey]
  simp only [bind, Except.bind, hcolon, hbegin, hvalue, hend]
  rcases hc with rfl | rfl <;> rfl

theorem key_not_mem_of_nodup {before fields : List (String × Json)} {f : String × Json}
    (h : ((before ++ f :: fields).map Prod.fst).Nodup) : f.1 ∉ before.map Prod.fst := by
  rw [List.map_append, List.nodup_append] at h
  exact fun hmem => h.2.2 f.1 hmem f.1 (by simp) rfl

/-- The fields of an object are read one after another. -/
theorem readFields_fieldsText (rest : List Char) (fields : List (String × Json)) :
    ∀ (f : String × Json), (∀ g ∈ f :: fields, IsReadBack g.2) →
      ∀ (fuel : Nat) (before : List (String × Json)) (pos : Nat),
        ((before ++ f :: fields).map Prod.fst).Nodup →
          (fieldsText (f :: fields)).length + 1 ≤ fuel →
          ∃ pos', readFields fuel before ⟨pos, fieldsText (f :: fields) ++ '\x7d' :: rest⟩ =
            .ok (before ++ f :: fields, ⟨pos', rest⟩) := by
  induction fields with
  | nil =>
    intro f h fuel before pos hnodup hfuel
    have htext : fieldsText [f] = fieldText f := by simp [fieldsText]
    have hkey := key_not_mem_of_nodup hnodup
    rw [htext] at hfuel ⊢
    obtain ⟨fuel, rfl⟩ : ∃ k, fuel = k + 1 := Nat.exists_eq_succ_of_ne_zero (by omega)
    have hvalue : IsReadBack f.2 := h f (List.mem_singleton_self f)
    have hlength : (fieldText f).length ≤ fuel := by omega
    obtain ⟨pos', hread⟩ := readFields_fieldText hvalue hlength before pos (Or.inl rfl) rest
    exact ⟨pos', by rw [hread, setField_of_not_mem hkey, if_pos rfl]⟩
  | cons g fields ih =>
    intro f h fuel before pos hnodup hfuel
    obtain ⟨hvalue, hfields⟩ := List.forall_mem_cons.1 h
    have hkey := key_not_mem_of_nodup hnodup
    have happend : before ++ f :: g :: fields = before ++ [f] ++ g :: fields := by simp
    rw [happend] at hnodup ⊢
    rw [fieldsText_cons_cons, List.length_append, List.length_cons] at hfuel
    obtain ⟨fuel, rfl⟩ : ∃ k, fuel = k + 1 := Nat.exists_eq_succ_of_ne_zero (by omega)
    have hlength : (fieldText f).length ≤ fuel := by omega
    have hlengths : (fieldsText (g :: fields)).length + 1 ≤ fuel := by omega
    obtain ⟨pos', hread⟩ := readFields_fieldText hvalue hlength before pos (Or.inr rfl)
      (fieldsText (g :: fields) ++ '\x7d' :: rest)
    obtain ⟨pos'', hreads⟩ := ih g hfields fuel (before ++ [f]) pos' hnodup hlengths
    obtain ⟨t, ht⟩ := exists_fieldsText_eq g fields
    have hspace : NoSpace (fieldsText (g :: fields) ++ '\x7d' :: rest) := by
      rw [ht, List.cons_append]
      exact noSpace_of_mem (by decide) _
    refine ⟨pos'', ?_⟩
    rw [fieldsText_cons_cons, List.append_assoc, List.cons_append, hread, setField_of_not_mem hkey,
      if_neg (by decide), skipSpace_of_noSpace hspace, hreads]

theorem isReadBack_object {fields : List (String × Json)} (hnodup : (fields.map Prod.fst).Nodup)
    (h : ∀ f ∈ fields, IsReadBack f.2) : IsReadBack (object fields) := by
  constructor
  case head => exact ⟨'\x7b', _, toList_write_object fields, by decide⟩
  case read =>
    intro fuel pos rest hfuel hrest
    rw [toList_write_object, List.length_cons, List.length_append, List.length_singleton] at hfuel
    rw [toList_write_object]
    obtain ⟨fuel, rfl⟩ : ∃ k, fuel = k + 1 := Nat.exists_eq_succ_of_ne_zero (by omega)
    cases fields with
    | nil => exact ⟨pos + 1 + 1, rfl⟩
    | cons f fields =>
      obtain ⟨pos', hreads⟩ := readFields_fieldsText rest fields f h fuel [] (pos + 1) hnodup
        (by omega)
      obtain ⟨t, ht⟩ := exists_fieldsText_eq f fields
      have hspace : NoSpace (fieldsText (f :: fields) ++ '\x7d' :: rest) := by
        rw [ht, List.cons_append]
        exact noSpace_of_mem (by decide) _
      have hopen : (fieldsText (f :: fields) ++ '\x7d' :: rest).head? ≠ some '\x7d' := by
        rw [ht]
        simp
      refine ⟨pos', ?_⟩
      have hskip :
          Input.skipSpace
            (Input.skip 1 ⟨pos, '\x7b' :: (fieldsText (f :: fields) ++ '\x7d' :: rest)⟩) =
            ⟨pos + 1, fieldsText (f :: fields) ++ '\x7d' :: rest⟩ :=
        skipSpace_of_noSpace hspace
      rw [List.cons_append, List.append_assoc, List.singleton_append, readValue]
      dsimp only
      rw [hskip, if_neg hopen, hreads]
      rfl

/-! ### Values -/

theorem isReadBack_of_everywhere {v : Json} (h : v.Everywhere Writable) : IsReadBack v := by
  induction h with
  | @of v here inside ih =>
    cases v with
    | null => exact isReadBack_of_readsBack readsBack_null
    | bool b => exact isReadBack_of_readsBack (readsBack_bool b)
    | int i => exact isReadBack_of_readsBack (readsBack_int here)
    | float x => exact isReadBack_of_readsBack (readsBack_float x)
    | string t => exact isReadBack_string t
    | array items => exact isReadBack_array ih
    | object fields =>
      refine isReadBack_object here fun f hf => ih f.2 ?_
      exact List.mem_map_of_mem hf

/-- The text of a value is read as the value. -/
theorem read_write {v : Json} (h : v.Everywhere Writable) : read (write v) = .ok v := by
  have hback := isReadBack_of_everywhere h
  have hspace : NoSpace (write v).toList := by
    have hnil := hback.noSpace []
    rwa [List.append_nil] at hnil
  have hend : Stops [] := by simp [Stops]
  obtain ⟨pos, hread⟩ := hback.read ((write v).toList.length + 1) 0 [] (by omega) hend
  rw [List.append_nil] at hread
  unfold read
  dsimp only
  rw [skipSpace_of_noSpace hspace, hread]
  rfl

end CrmQuery.Json
