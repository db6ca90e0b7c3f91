import FilterSql.Proofs.Table
import Mathlib.Data.List.Induction
import Mathlib.Data.List.Nodup

/-!
# Histories of a table

A table that was only changed by inserting and removing keys, starting from the empty one, behaves as
a map that remembers the order of insertion. The search for the first entry of a key is as good as a
search for its only entry: no history makes two entries of one key.

## Main definitions

* `Table.Change`, `Table.replay`: a change of a table, and the table that a history of changes makes.
* `Table.Binds`: the history inserts the key with the value and does not change it afterwards.

## Main statements

* `Table.replay_ordered`: what the table of a history holds, and what the next change does to it.
-/

namespace FilterSql.Sql.Table

/-- A change of a table. -/
inductive Change (κ ν : Type)
  | insert (key : κ) (value : ν)
  | remove (key : κ)

namespace Change

variable {κ ν : Type}

def key : Change κ ν → κ
  | insert key _ => key
  | remove key => key

/-- The value that the change gives to its key. -/
def value? : Change κ ν → Option ν
  | insert _ value => some value
  | remove _ => none

theorem eq_insert_iff {change : Change κ ν} {key : κ} {value : ν} :
    change = insert key value ↔ change.key = key ∧ change.value? = some value := by
  cases change <;> simp [Change.key, value?]

end Change

variable {κ ν : Type} [DecidableEq κ] {t : Table κ ν} {key : κ} {value old : ν}
  {history : List (Change κ ν)}

def apply (t : Table κ ν) : Change κ ν → Table κ ν
  | .insert key value => t.insert key value
  | .remove key => (t.remove key).2

/-- The table that a history of changes makes of the empty table. -/
def replay (history : List (Change κ ν)) : Table κ ν := history.foldl apply empty

theorem replay_concat (history : List (Change κ ν)) (change : Change κ ν) :
    replay (history ++ [change]) = (replay history).apply change := by
  simp [replay]

/-! ## Distinct keys -/

/-- No change makes a second entry of a key. -/
theorem nodup_keys_apply (distinct : t.keys.Nodup) (change : Change κ ν) :
    (t.apply change).keys.Nodup := by
  cases change with
  | insert key value =>
    by_cases present : key ∈ t.keys
    · rwa [apply, keys_insert_of_mem present]
    · rw [apply, keys_insert_of_notMem present]
      exact List.nodup_append_comm.1 (List.nodup_cons.2 ⟨present, distinct⟩)
  | remove key =>
    rw [apply, remove, keys_erase]
    exact distinct.erase key

theorem nodup_keys_replay (history : List (Change κ ν)) : (replay history).keys.Nodup := by
  induction history using List.reverseRecOn with
  | nil => exact List.nodup_nil
  | append_singleton history change ih =>
    rw [replay_concat]
    exact nodup_keys_apply ih change

/-! ## Values -/

theorem get?_erase_self (distinct : t.keys.Nodup) (key : κ) : (t.erase key).get? key = none := by
  apply get?_eq_none
  rw [keys_erase]
  exact distinct.not_mem_erase

/-- A change sets the value of its key and leaves all others. -/
theorem get?_apply (distinct : t.keys.Nodup) (change : Change κ ν) (key : κ) :
    (t.apply change).get? key = if change.key = key then change.value? else t.get? key := by
  cases change with
  | insert changed value =>
    by_cases same : changed = key
    · subst same
      simp [apply, Change.key, Change.value?]
    · simpa [apply, Change.key, same] using get?_insert_of_ne (Ne.symm same) t value
  | remove changed =>
    by_cases same : changed = key
    · subst same
      simpa [apply, remove, Change.key, Change.value?] using get?_erase_self distinct changed
    · simpa [apply, remove, Change.key, same] using get?_erase_of_ne (Ne.symm same) t

/-- The history inserts the key with the value, and no later change is to that key. -/
def Binds (history : List (Change κ ν)) (key : κ) (value : ν) : Prop :=
  ∃ before after, history = before ++ .insert key value :: after ∧
    ∀ change ∈ after, change.key ≠ key

omit [DecidableEq κ] in
theorem binds_concat {change : Change κ ν} :
    Binds (history ++ [change]) key value ↔
      (change.key = key ∧ change.value? = some value) ∨
        (change.key ≠ key ∧ Binds history key value) := by
  constructor
  · rintro ⟨before, after, eq, unchanged⟩
    -- either the last change is the one that binds the key, or it comes after that one
    rcases List.eq_nil_or_concat after with rfl | ⟨after, last, rfl⟩
    · obtain ⟨-, same⟩ := List.append_inj' eq rfl
      exact .inl (Change.eq_insert_iff.1 (List.singleton_inj.1 same))
    · have parts : history ++ [change] = (before ++ .insert key value :: after) ++ [last] := by
        simpa using eq
      obtain ⟨rfl, same⟩ := List.append_inj' parts rfl
      obtain rfl := List.singleton_inj.1 same
      exact .inr ⟨unchanged _ (by simp),
        before, after, rfl, fun c member => unchanged c (by simp [member])⟩
  · rintro (bound | ⟨other, before, after, rfl, unchanged⟩)
    · obtain rfl := Change.eq_insert_iff.2 bound
      exact ⟨history, [], rfl, by simp⟩
    · refine ⟨before, after ++ [change], by simp, ?_⟩
      intro c member
      rcases List.mem_append.1 member with member | member
      · exact unchanged c member
      · rwa [List.mem_singleton.1 member]

/-- The last change of a key decides its value. -/
theorem get?_replay : (replay history).get? key = some value ↔ Binds history key value := by
  induction history using List.reverseRecOn with
  | nil => simp [replay, empty, get?, Binds]
  | append_singleton history change ih =>
    rw [replay_concat, get?_apply (nodup_keys_replay history), binds_concat, ← ih]
    by_cases same : change.key = key <;> simp [same]

/-! ## Places -/

section Places

variable {before after : List (κ × ν)}

omit [DecidableEq κ] in
/-- An entry is the only one of its key. -/
theorem notMem_before (distinct : t.keys.Nodup) (split : t.entries = before ++ (key, old) :: after) :
    key ∉ (⟨before⟩ : Table κ ν).keys := by
  intro member
  rw [keys, split, List.map_append, List.nodup_append] at distinct
  exact distinct.2.2 key member key (by simp) rfl

theorem insert_of_split (distinct : t.keys.Nodup)
    (split : t.entries = before ++ (key, old) :: after) (value : ν) :
    (t.insert key value).entries = before ++ (key, value) :: after := by
  have parts : t = ⟨before⟩ ++ ⟨(key, old) :: after⟩ := congrArg Table.mk split
  rw [parts, insert_append_of_notMem (notMem_before distinct split)]
  simp [insert, put]

theorem remove_of_split (distinct : t.keys.Nodup)
    (split : t.entries = before ++ (key, old) :: after) :
    t.remove key = (some old, ⟨before ++ after⟩) := by
  have absent := notMem_before distinct split
  have parts : t = ⟨before⟩ ++ ⟨(key, old) :: after⟩ := congrArg Table.mk split
  have first : (⟨(key, old) :: after⟩ : Table κ ν).remove key = (some old, ⟨after⟩) := by
    simp [remove, get?, erase]
  obtain ⟨value, rest⟩ := Prod.mk.inj first
  rw [remove, parts, get?_append_of_notMem absent, erase_append_of_notMem absent, value, rest]
  rfl

theorem insert_of_notMem (absent : key ∉ t.keys) (value : ν) :
    (t.insert key value).entries = t.entries ++ [(key, value)] := by
  have parts : t = t ++ empty := congrArg Table.mk (List.append_nil t.entries).symm
  rw [parts, insert_append_of_notMem absent]
  simp [insert, put, empty]

theorem remove_of_notMem (absent : key ∉ t.keys) : t.remove key = (none, t) := by
  have parts : t = t ++ empty := congrArg Table.mk (List.append_nil t.entries).symm
  have same : t.erase key = t := by
    conv_lhs => rw [parts, erase_append_of_notMem absent]
    exact parts.symm
  rw [remove, get?_eq_none absent, same]

end Places

/-- A table made by insertions and removals is a map in order of insertion. It has one entry for each
of its keys, with the value of the last insertion that no removal follows. The next insertion changes
the entry of its key in place, or appends one; the next removal takes out the entry of its key alone
and returns its value, or changes nothing. -/
theorem replay_ordered (history : List (Change κ ν)) :
    (replay history).keys.Nodup ∧
      (∀ key value, (replay history).get? key = some value ↔ Binds history key value) ∧
      (∀ before key old after, (replay history).entries = before ++ (key, old) :: after →
        (∀ value, ((replay history).insert key value).entries = before ++ (key, value) :: after) ∧
          (replay history).remove key = (some old, ⟨before ++ after⟩)) ∧
      ∀ key, key ∉ (replay history).keys →
        (∀ value, ((replay history).insert key value).entries =
          (replay history).entries ++ [(key, value)]) ∧
          (replay history).remove key = (none, replay history) := by
  have distinct := nodup_keys_replay history
  refine ⟨distinct, fun _ _ => get?_replay, ?_, ?_⟩
  · intro before key old after split
    exact ⟨insert_of_split distinct split, remove_of_split distinct split⟩
  · intro key absent
    exact ⟨insert_of_notMem absent, remove_of_notMem absent⟩

/-- A name that is bound twice keeps its place, and one that is taken out and bound again goes to the
end. -/
theorem replay_ordered_names :
    let t : Table String Nat := replay [.insert "@p1" 1, .insert "@p2" 2, .insert "@p3" 3,
      .insert "@p1" 4, .remove "@p2", .insert "@p2" 5]
    t.entries = [("@p1", 4), ("@p3", 3), ("@p2", 5)] ∧ t.get? "@p1" = some 4 ∧
      t.remove "@p3" = (some 3, ⟨[("@p1", 4), ("@p2", 5)]⟩) ∧
      (t.insert "@p3" 6).entries = [("@p1", 4), ("@p3", 6), ("@p2", 5)] ∧
      (t.insert "@p4" 7).entries = [("@p1", 4), ("@p3", 3), ("@p2", 5), ("@p4", 7)] := by
  intro t
  have entries : t.entries = [("@p1", 4), ("@p3", 3), ("@p2", 5)] := by decide
  obtain ⟨-, values, present, absent⟩ := replay_ordered [.insert "@p1" 1, .insert "@p2" 2,
    .insert "@p3" 3, .insert "@p1" 4, .remove "@p2", .insert "@p2" 5]
  have changed := present [("@p1", 4)] "@p3" 3 [("@p2", 5)] entries
  refine ⟨entries, (values "@p1" 4).2 ?_, changed.2, changed.1 6, ?_⟩
  · exact ⟨[.insert "@p1" 1, .insert "@p2" 2, .insert "@p3" 3], [.remove "@p2", .insert "@p2" 5],
      rfl, by simp [Change.key]⟩
  · exact ((absent "@p4" (by decide)).1 7).trans (congrArg (· ++ [("@p4", 7)]) entries)

end FilterSql.Sql.Table
