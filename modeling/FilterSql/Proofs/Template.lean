import FilterSql.Geodesy.ReferenceSystem
import FilterSql.Proofs.Text
import FilterSql.Sql.Template

/-!
# Placeholders of templates

The placeholders of a template can be read off its text: a number between braces. Filling a template
writes the parameters of those arguments that have a placeholder, and no others. The number of the
storage system is put into a template before it is filled; this makes no placeholder of a small
number, and breaks none.

## Main statements

* `Template.mem_params_fill`: the parameters that a filled template mentions.
* `Template.mem_slots_replace_of_mem`, `Template.mem_slots_of_mem_replace`: the placeholders before
  and after the storage system is put in.
-/

namespace FilterSql.Decimal

theorem natOfDigits_append_le (start : Nat) (ds : List Char) :
    start ≤ ds.foldl (fun n c => 10 * n + (c.toNat - 48)) start := by
  induction ds generalizing start with
  | nil => exact Nat.le_refl _
  | cons d ds ih =>
    have first := ih (10 * start + (d.toNat - 48))
    simp only [List.foldl_cons]
    omega

theorem natOfDigits_foldl_mono {m n : Nat} (le : m ≤ n) (ds : List Char) :
    ds.foldl (fun n c => 10 * n + (c.toNat - 48)) m ≤
      ds.foldl (fun n c => 10 * n + (c.toNat - 48)) n := by
  induction ds generalizing m n with
  | nil => exact le
  | cons d ds ih =>
    simp only [List.foldl_cons]
    exact ih (by omega)

/-- A part of the digits denotes no larger number. -/
theorem natOfDigits_le_of_infix {ds es : List Char} (h : ds <:+: es) :
    natOfDigits ds ≤ natOfDigits es := by
  obtain ⟨before, after, rfl⟩ := h
  simp only [natOfDigits, List.foldl_append]
  exact Nat.le_trans (natOfDigits_foldl_mono (Nat.zero_le _) ds) (natOfDigits_append_le _ after)

theorem readNat?_eq_some {cs : List Char} {n : Nat} (h : readNat? cs = some n) :
    (∀ d ∈ cs, d.isDigit = true) ∧ natOfDigits cs = n := by
  unfold readNat? at h
  split at h
  · cases h
  · next digits =>
    cases h
    simp only [Bool.or_eq_true, Bool.not_eq_true', not_or, Bool.not_eq_false] at digits
    exact ⟨List.all_eq_true.1 digits.2, rfl⟩

theorem readBoundedNat?_eq_some {max n : Nat} {cs : List Char}
    (h : readBoundedNat? max cs = some n) :
    ∃ ds, (cs = ds ∨ cs = '+' :: ds) ∧ (∀ d ∈ ds, d.isDigit = true) ∧ natOfDigits ds = n := by
  simp only [readBoundedNat?, Option.filter_eq_some_iff] at h
  obtain ⟨read, -⟩ := h
  split at read
  · exact ⟨_, .inr rfl, readNat?_eq_some read⟩
  · exact ⟨cs, .inl rfl, readNat?_eq_some read⟩

end FilterSql.Decimal

namespace FilterSql.Sql

open Text

namespace Clause

@[simp] theorem params_nil : params [] = [] := rfl

@[simp] theorem params_char (d : Char) (c : Clause) : params (.char d :: c) = c.params := rfl

@[simp] theorem params_param (n : Nat) (c : Clause) : params (.param n :: c) = n :: c.params := rfl

@[simp] theorem params_append (c d : Clause) : params (c ++ d) = c.params ++ d.params :=
  List.filterMap_append

@[simp] theorem params_ofString (s : String) : params (ofString s) = [] := by
  simp [params, ofString, List.filterMap_map]

@[simp] theorem params_parenthesized (c : Clause) : c.parenthesized.params = c.params := by
  simp [parenthesized]

theorem render_append (sigil : Char) (c d : Clause) :
    render sigil (c ++ d) = render sigil c ++ render sigil d := by
  simp [render]

theorem render_ofString (sigil : Char) (s : String) : render sigil (ofString s) = s := by
  simp [render, ofString, List.flatMap_map, Symbol.render]

end Clause

namespace Template

/-- The number of a placeholder, from the text between its braces. -/
def index? (inner : List Char) : Option Nat :=
  Decimal.readBoundedNat? Decimal.maxNat64 (dropBlanksEnd (dropBlanks inner))

/-- The numbers of the placeholders of a template, from left to right. -/
def slots : List Char → List Nat
  | [] => []
  | c :: cs => if c = '\x7b' then ((slot? cs).map (·.1)).toList ++ slots cs else slots cs

/-- A placeholder holds a number, with blanks and one sign at most. -/
theorem index?_eq_some {inner : List Char} {i : Nat} (h : index? inner = some i) :
    (∀ c ∈ inner, c.isDigit = true ∨ c = '+' ∨ isBlank c = true) ∧
      Decimal.natOfDigits (inner.filter Char.isDigit) = i := by
  obtain ⟨ds, sign, digits, value⟩ := Decimal.readBoundedNat?_eq_some h
  obtain ⟨before, after, parts, front, back⟩ := exists_blanks_around inner
  have noDigit : ∀ c, isBlank c = true → c.isDigit = false := fun c =>
    forall_isBlank (P := fun c => c.isDigit = false) (by decide)
  have blanks : ∀ cs : List Char, (∀ c ∈ cs, isBlank c = true) → cs.filter Char.isDigit = [] := by
    intro cs all
    exact List.filter_eq_nil_iff.2 fun c member => by simp [noDigit c (all c member)]
  have trimmed : (dropBlanksEnd (dropBlanks inner)).filter Char.isDigit = ds := by
    have self : ds.filter Char.isDigit = ds := List.filter_eq_self.2 digits
    rcases sign with eq | eq
    · rw [eq, self]
    · rw [eq, List.filter_cons_of_neg (by decide), self]
  constructor
  · intro c member
    rw [parts] at member
    simp only [List.mem_append] at member
    rcases member with member | member | member
    · exact .inr (.inr (front c member))
    · rcases sign with eq | eq
      · exact .inl (digits c (eq ▸ member))
      · rw [eq, List.mem_cons] at member
        rcases member with plus | member
        · exact .inr (.inl plus)
        · exact .inl (digits c member)
    · exact .inr (.inr (back c member))
  · rw [parts, List.filter_append, List.filter_append, blanks before front, blanks after back,
      trimmed, List.nil_append, List.append_nil, value]

theorem notMem_of_index? {inner : List Char} {i : Nat} (h : index? inner = some i) {d : Char}
    (digit : d.isDigit = false) (plus : d ≠ '+') (blank : isBlank d = false) : d ∉ inner := by
  intro member
  rcases (index?_eq_some h).1 d member with h | h | h
  · rw [digit] at h
    cases h
  · exact plus h
  · rw [blank] at h
    cases h

theorem slot?_append_brace {inner : List Char} (inside : '\x7d' ∉ inner) (after : List Char) :
    slot? (inner ++ '\x7d' :: after) = (index? inner).map fun i => (i, inner.length + 1) := by
  have run : (inner ++ '\x7d' :: after).takeWhile (· != '\x7d') = inner :=
    takeWhile_append_eq_left
      (fun c member => by simpa using ne_of_mem_of_not_mem member inside) (by simp)
  unfold slot?
  dsimp only
  rw [run, if_neg (by simp)]
  rfl

theorem slot?_eq_some_iff {cs : List Char} {i width : Nat} :
    slot? cs = some (i, width) ↔
      ∃ inner after, cs = inner ++ '\x7d' :: after ∧ width = inner.length + 1 ∧
        index? inner = some i := by
  have parts := List.takeWhile_append_dropWhile (p := (· != '\x7d')) (l := cs)
  constructor
  · intro h
    unfold slot? at h
    dsimp only at h
    split at h
    · cases h
    · next closed =>
      obtain ⟨_, index, eq⟩ := Option.map_eq_some_iff.1 h
      cases eq
      cases rest : cs.dropWhile (· != '\x7d') with
      | nil =>
        rw [rest, List.append_nil] at parts
        exact absurd (congrArg List.length parts) closed
      | cons c after =>
        have stop : (c != '\x7d') = false := stop_of_dropWhile c (by rw [rest]; rfl)
        rw [rest, bne_eq_false_iff_eq.1 stop] at parts
        exact ⟨_, after, parts.symm, rfl, index⟩
  · rintro ⟨inner, after, rfl, rfl, index⟩
    have inside := notMem_of_index? index (d := '\x7d') (by decide) (by decide) (by decide)
    rw [slot?_append_brace inside, index, Option.map_some]

theorem mem_slots_cons {c : Char} {cs : List Char} {i : Nat} :
    i ∈ slots (c :: cs) ↔
      (c = '\x7b' ∧ ∃ inner after, cs = inner ++ '\x7d' :: after ∧ index? inner = some i) ∨
        i ∈ slots cs := by
  have slot : i ∈ ((slot? cs).map (·.1)).toList ↔
      ∃ inner after, cs = inner ++ '\x7d' :: after ∧ index? inner = some i := by
    simp only [Option.mem_toList, Option.map_eq_some_iff, Prod.exists,
      slot?_eq_some_iff]
    constructor
    · rintro ⟨_, _, ⟨inner, after, eq, -, index⟩, rfl⟩
      exact ⟨inner, after, eq, index⟩
    · rintro ⟨inner, after, eq, index⟩
      exact ⟨i, _, ⟨inner, after, eq, rfl, index⟩, rfl⟩
  by_cases brace : c = '\x7b'
  · simp only [slots, brace, if_true, List.mem_append, slot, true_and]
  · simp only [slots, brace, if_false, false_and, false_or]

/-- The placeholders of a template are the numbers between its braces. -/
theorem mem_slots_iff {cs : List Char} {i : Nat} :
    i ∈ slots cs ↔ ∃ before inner after, cs = before ++ '\x7b' :: (inner ++ '\x7d' :: after) ∧
      index? inner = some i := by
  induction cs with
  | nil => simp [slots]
  | cons c cs ih =>
    rw [mem_slots_cons, ih]
    constructor
    · rintro (⟨rfl, inner, after, rfl, index⟩ | ⟨before, inner, after, rfl, index⟩)
      · exact ⟨[], inner, after, rfl, index⟩
      · exact ⟨c :: before, inner, after, rfl, index⟩
    · rintro ⟨before, inner, after, eq, index⟩
      cases before with
      | nil =>
        obtain ⟨rfl, rfl⟩ := List.cons.inj eq
        exact .inl ⟨rfl, inner, after, rfl, index⟩
      | cons b before =>
        obtain ⟨rfl, rfl⟩ := List.cons.inj eq
        exact .inr ⟨before, inner, after, rfl, index⟩

/-! ## Filling -/

theorem slots_append_of_notMem {xs : List Char} (h : '\x7b' ∉ xs) (ys : List Char) :
    slots (xs ++ ys) = slots ys := by
  induction xs with
  | nil => rfl
  | cons x xs ih =>
    rw [List.mem_cons, not_or] at h
    rw [List.cons_append, slots, if_neg (Ne.symm h.1), ih h.2]

/-- A placeholder has none within it. -/
theorem slots_drop_width {cs : List Char} {i width : Nat} (h : slot? cs = some (i, width)) :
    slots (cs.drop width) = slots cs := by
  obtain ⟨inner, after, rfl, rfl, index⟩ := slot?_eq_some_iff.1 h
  have notBrace : '\x7b' ∉ inner := notMem_of_index? index (by decide) (by decide) (by decide)
  have drop : (inner ++ '\x7d' :: after).drop (inner.length + 1) = after := by simp
  rw [drop, slots_append_of_notMem notBrace, slots, if_neg (by decide)]

/-- An argument is written where its placeholder stands, and nowhere else. -/
theorem mem_params_fillFrom {args : List Clause} {skip : Nat} {cs : List Char} {n : Nat} :
    n ∈ Clause.params (fillFrom args skip cs) ↔
      ∃ i ∈ slots (cs.drop skip), ∃ arg, args[i]? = some arg ∧ n ∈ arg.params := by
  fun_induction fillFrom args skip cs with
  | case1 => simp [slots]
  | case2 skip c cs ih => simpa using ih
  | case3 cs none ih => simpa [slots, none] using ih
  | case4 cs index width found arg given ih =>
    rw [slots_drop_width found] at ih
    simp [slots, found, given, ih]
  | case5 cs index width found missing ih => simpa [slots, found, missing] using ih
  | case6 c cs other ih => simpa [slots, other] using ih

theorem mem_params_fill {template : String} {args : List Clause} {n : Nat} :
    n ∈ Clause.params (fill template args) ↔
      ∃ i ∈ slots template.toList, ∃ arg, args[i]? = some arg ∧ n ∈ arg.params :=
  mem_params_fillFrom

/-! ## The storage system in a template -/

section StorageSrid

theorem toList_replace_storageSrid (template : String) :
    (replace "@srid" (toString Geodesy.storageSrid) template).toList =
      replaceFrom "@srid".toList "4258".toList 0 template.toList := by
  have srid : (toString Geodesy.storageSrid).toList = "4258".toList := by decide
  rw [replace, String.toList_ofList, srid]

variable {template : String} {i : Nat}

/-- Putting in the number of the storage system leaves all placeholders. -/
theorem mem_slots_replace_of_mem (h : i ∈ slots template.toList) :
    i ∈ slots (replace "@srid" (toString Geodesy.storageSrid) template).toList := by
  have nonempty : "@srid".toList ≠ [] := by decide
  obtain ⟨before, inner, after, eq, index⟩ := mem_slots_iff.1 h
  have notAt : '@' ∉ inner := notMem_of_index? index (by decide) (by decide) (by decide)
  have same : replaceFrom "@srid".toList "4258".toList 0 inner = inner := by
    rcases replaceFrom_eq_self_or_infix nonempty inner with ⟨same, -⟩ | ⟨within, -⟩
    · exact same
    · exact absurd (within.subset (by decide)) notAt
  rw [toList_replace_storageSrid, eq, replaceFrom_append_cons nonempty (by decide),
    replaceFrom_append_cons nonempty (by decide), same]
  exact mem_slots_iff.2 ⟨_, inner, _, rfl, index⟩

/-- The number of the storage system makes placeholders of larger numbers only. -/
theorem mem_slots_of_mem_replace (small : i < 4258)
    (h : i ∈ slots (replace "@srid" (toString Geodesy.storageSrid) template).toList) :
    i ∈ slots template.toList := by
  have nonempty : "@srid".toList ≠ [] := by decide
  rw [toList_replace_storageSrid] at h
  obtain ⟨before, inner, after, eq, index⟩ := mem_slots_iff.1 h
  obtain ⟨before', rest, parts, -, eq'⟩ := exists_of_replaceFrom_eq nonempty (by decide) eq
  obtain ⟨inner', after', rfl, rfl, -⟩ := exists_of_replaceFrom_eq nonempty (by decide) eq'
  refine mem_slots_iff.2 ⟨before', inner', after', parts, ?_⟩
  rcases replaceFrom_eq_self_or_infix nonempty inner' with ⟨same, -⟩ | ⟨-, within⟩
  · rwa [same] at index
  · -- a placeholder that holds the digits of the system has a number as large as that
    have digits := Decimal.natOfDigits_le_of_infix (within.filter Char.isDigit)
    have value : Decimal.natOfDigits ("4258".toList.filter Char.isDigit) = 4258 := by decide
    rw [value, (index?_eq_some index).2] at digits
    exact absurd digits (Nat.not_le.2 small)

end StorageSrid

end Template

end FilterSql.Sql
