import FilterSql.Sql.Table
import Mathlib.Logic.Function.Basic

/-!
# Laws of tables

How looking up, inserting and erasing a key act on the keys of a table, on a table that continues
another one, and on a table whose keys were renamed.
-/

namespace FilterSql.Sql.Table

variable {κ ν : Type} [DecidableEq κ]

/-- The entries of `u` after those of `t`. -/
instance : Append (Table κ ν) := ⟨fun t u => ⟨t.entries ++ u.entries⟩⟩

omit [DecidableEq κ] in
@[simp] theorem entries_append (t u : Table κ ν) : (t ++ u).entries = t.entries ++ u.entries := rfl

omit [DecidableEq κ] in
@[simp] theorem entries_mapKeys {κ' : Type} (f : κ → κ') (t : Table κ ν) :
    (t.mapKeys f).entries = t.entries.map fun e => (f e.1, e.2) := rfl

omit [DecidableEq κ] in
@[simp] theorem keys_empty : (empty : Table κ ν).keys = [] := rfl

omit [DecidableEq κ] in
@[simp] theorem keys_append (t u : Table κ ν) : (t ++ u).keys = t.keys ++ u.keys := by
  simp [keys]

omit [DecidableEq κ] in
@[simp] theorem keys_mapKeys {κ' : Type} (f : κ → κ') (t : Table κ ν) :
    (t.mapKeys f).keys = t.keys.map f := by
  simp [keys]

/-! ## Keys -/

theorem mem_keys_of_get? {t : Table κ ν} {key : κ} {value : ν} (h : t.get? key = some value) :
    key ∈ t.keys := by
  obtain ⟨e, found, -⟩ := Option.map_eq_some_iff.1 h
  have same : e.1 = key := by simpa using List.find?_some found
  exact List.mem_map.2 ⟨e, List.mem_of_find?_eq_some found, same⟩

theorem get?_eq_none {t : Table κ ν} {key : κ} (h : key ∉ t.keys) : t.get? key = none := by
  cases found : t.get? key with
  | none => rfl
  | some value => exact absurd (mem_keys_of_get? found) h

theorem exists_get?_of_mem {t : Table κ ν} {key : κ} (h : key ∈ t.keys) :
    ∃ value, t.get? key = some value := by
  obtain ⟨e, member, rfl⟩ := List.mem_map.1 h
  have found : (t.entries.find? (·.1 = e.1)).isSome := by
    rw [List.find?_isSome]
    exact ⟨e, member, by simp⟩
  obtain ⟨x, hx⟩ := Option.isSome_iff_exists.1 found
  exact ⟨x.2, by rw [get?, hx, Option.map_some]⟩

theorem map_fst_put (key : κ) (value : ν) (es : List (κ × ν)) :
    (put key value es).map (·.1) =
      if key ∈ es.map (·.1) then es.map (·.1) else es.map (·.1) ++ [key] := by
  induction es with
  | nil => rfl
  | cons e es ih =>
    by_cases h : e.1 = key
    · simp [put, h]
    · have h' : ¬key = e.1 := fun same => h same.symm
      simp only [put, h, if_false, List.map_cons, ih, List.mem_cons, h', false_or]
      split <;> rfl

theorem keys_insert_of_mem {t : Table κ ν} {key : κ} (h : key ∈ t.keys) (value : ν) :
    (t.insert key value).keys = t.keys :=
  (map_fst_put key value t.entries).trans (if_pos h)

theorem keys_insert_of_notMem {t : Table κ ν} {key : κ} (h : key ∉ t.keys) (value : ν) :
    (t.insert key value).keys = t.keys ++ [key] :=
  (map_fst_put key value t.entries).trans (if_neg h)

theorem keys_erase (t : Table κ ν) (key : κ) : (t.erase key).keys = t.keys.erase key := by
  obtain ⟨es⟩ := t
  induction es with
  | nil => rfl
  | cons e es ih =>
    by_cases h : e.1 = key
    · simp [erase, keys, h]
    · simpa [erase, keys, h, List.erase_cons] using ih

/-! ## Values -/

@[simp] theorem get?_insert_self (t : Table κ ν) (key : κ) (value : ν) :
    (t.insert key value).get? key = some value := by
  obtain ⟨es⟩ := t
  induction es with
  | nil => simp [insert, put, get?]
  | cons e es ih =>
    by_cases h : e.1 = key
    · simp [insert, put, get?, h]
    · simpa [insert, put, get?, h] using ih

theorem get?_insert_of_ne {key other : κ} (h : other ≠ key) (t : Table κ ν) (value : ν) :
    (t.insert key value).get? other = t.get? other := by
  obtain ⟨es⟩ := t
  induction es with
  | nil => simp [insert, put, get?, h.symm]
  | cons e es ih =>
    by_cases same : e.1 = key
    · simp [insert, put, get?, same, h.symm]
    · by_cases found : e.1 = other
      · simp [insert, put, get?, found, h]
      · simpa [insert, put, get?, same, found] using ih

theorem get?_erase_of_ne {key other : κ} (h : other ≠ key) (t : Table κ ν) :
    (t.erase key).get? other = t.get? other := by
  obtain ⟨es⟩ := t
  induction es with
  | nil => rfl
  | cons e es ih =>
    by_cases same : e.1 = key
    · simp [erase, get?, same, h.symm]
    · by_cases found : e.1 = other
      · simp [erase, get?, found, h]
      · simpa [erase, get?, same, found] using ih

/-! ## Tables that continue another one -/

theorem get?_append_of_notMem {t : Table κ ν} {key : κ} (h : key ∉ t.keys) (u : Table κ ν) :
    (t ++ u).get? key = u.get? key := by
  have absent : t.entries.find? (·.1 = key) = none := Option.map_eq_none_iff.1 (get?_eq_none h)
  simp [get?, List.find?_append, absent]

theorem get?_append_of_mem {t : Table κ ν} {key : κ} (h : key ∈ t.keys) (u : Table κ ν) :
    (t ++ u).get? key = t.get? key := by
  obtain ⟨value, found⟩ := exists_get?_of_mem h
  obtain ⟨e, first, -⟩ := Option.map_eq_some_iff.1 found
  simp [get?, List.find?_append, first]

theorem insert_append_of_notMem {t : Table κ ν} {key : κ} (h : key ∉ t.keys) (u : Table κ ν)
    (value : ν) : (t ++ u).insert key value = t ++ u.insert key value := by
  have passes : ∀ es : List (κ × ν), key ∉ es.map (·.1) →
      put key value (es ++ u.entries) = es ++ put key value u.entries := by
    intro es absent
    induction es with
    | nil => rfl
    | cons e es ih =>
      simp only [List.map_cons, List.mem_cons, not_or] at absent
      have different : ¬e.1 = key := fun same => absent.1 same.symm
      simp [put, different, ih absent.2]
  exact congrArg Table.mk (passes t.entries h)

theorem erase_append_of_notMem {t : Table κ ν} {key : κ} (h : key ∉ t.keys) (u : Table κ ν) :
    (t ++ u).erase key = t ++ u.erase key := by
  refine congrArg Table.mk (List.eraseP_append_right _ ?_)
  intro e member
  simpa using fun same : e.1 = key => h (List.mem_map.2 ⟨e, member, same⟩)

/-! ## Renamed keys -/

section Renaming

variable {κ' : Type} [DecidableEq κ'] {f : κ → κ'}

theorem get?_mapKeys (hf : f.Injective) (t : Table κ ν) (key : κ) :
    (t.mapKeys f).get? (f key) = t.get? key := by
  simp [get?, List.find?_map, Function.comp_def, hf.eq_iff]

theorem insert_mapKeys (hf : f.Injective) (t : Table κ ν) (key : κ) (value : ν) :
    (t.mapKeys f).insert (f key) value = (t.insert key value).mapKeys f := by
  have renamed : ∀ es : List (κ × ν), put (f key) value (es.map fun e => (f e.1, e.2)) =
      (put key value es).map fun e => (f e.1, e.2) := by
    intro es
    induction es with
    | nil => rfl
    | cons e es ih =>
      by_cases h : e.1 = key
      · simp [put, h]
      · simp [put, h, hf.eq_iff, ih]
  exact congrArg Table.mk (renamed t.entries)

theorem erase_mapKeys (hf : f.Injective) (t : Table κ ν) (key : κ) :
    (t.mapKeys f).erase (f key) = (t.erase key).mapKeys f := by
  refine congrArg Table.mk ?_
  simp [erase, List.eraseP_map, Function.comp_def, hf.eq_iff]

end Renaming

end FilterSql.Sql.Table
