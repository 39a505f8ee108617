import Mathlib.Data.List.Nodup

/-!
# Tables with a unique key

A table is a list of rows whose keys are distinct, as a unique constraint keeps them.
The key is a function of the row, so a row cannot be stored under a foreign key.

* `get?`: the row with a key;
* `modify`, `mapRows`: rewrite the row with a key, or all rows, by a function that leaves
  the keys alone;
* `image`: the rows in another form, under the same keys;
* `filter`: remove rows;
* `insert`: add a row, refused when the key is taken.

`get?_modify` and `get?_insert` determine a table by its lookups; `mem_rows_iff` reads
the rows off them.
-/

namespace MasakariHA.Lib

/-- Rows with distinct keys. -/
structure Table {κ ρ : Type} (key : ρ → κ) where
  rows : List ρ
  nodup : (rows.map key).Nodup

namespace Table

variable {κ ρ : Type} {key : ρ → κ}

/-- The table without rows. -/
def empty : Table key := ⟨[], List.nodup_nil⟩

section Lookup

variable [DecidableEq κ]

/-- The row with the key. -/
def get? (t : Table key) (k : κ) : Option ρ := t.rows.find? (fun r => key r = k)

theorem key_of_get? {t : Table key} {k : κ} {r : ρ} (h : t.get? k = some r) : key r = k := by
  have := List.find?_some h
  simpa using this

theorem mem_of_get? {t : Table key} {k : κ} {r : ρ} (h : t.get? k = some r) : r ∈ t.rows :=
  List.mem_of_find?_eq_some h

theorem mem_rows_iff {t : Table key} {r : ρ} : r ∈ t.rows ↔ t.get? (key r) = some r := by
  refine ⟨fun h => ?_, mem_of_get?⟩
  cases hg : t.get? (key r) with
  | none =>
    have := List.find?_eq_none.mp hg r h
    simp at this
  | some r' =>
    have hk := key_of_get? hg
    rw [List.inj_on_of_nodup_map t.nodup (mem_of_get? hg) h hk]

theorem eq_of_key {t : Table key} {k : κ} {r r' : ρ} (hMem : r ∈ t.rows) (hKey : key r = k)
    (h : t.get? k = some r') : r = r' := by
  have hGet := mem_rows_iff.mp hMem
  rw [hKey, h] at hGet
  exact (Option.some.inj hGet).symm

theorem get?_eq_none_iff {t : Table key} {k : κ} : t.get? k = none ↔ ∀ r ∈ t.rows, key r ≠ k := by
  simp [get?]

/-! ## Rewriting a row -/

/-- Rewrite the row with the key. -/
def modify (t : Table key) (k : κ) (f : ρ → ρ) (hf : ∀ r, key (f r) = key r) : Table key where
  rows := t.rows.map fun r => if key r = k then f r else r
  nodup := by
    have hkeys : key ∘ (fun r => if key r = k then f r else r) = key := by
      funext r
      by_cases h : key r = k
      · simp [h, hf]
      · simp [h]
    rw [List.map_map, hkeys]
    exact t.nodup

theorem get?_modify (t : Table key) (k k' : κ) (f : ρ → ρ) (hf : ∀ r, key (f r) = key r) :
    (t.modify k f hf).get? k' = if k' = k then (t.get? k').map f else t.get? k' := by
  have hp : ((fun r => decide (key r = k')) ∘ fun r => if key r = k then f r else r) =
      fun r => decide (key r = k') := by
    funext r
    by_cases h : key r = k
    · simp [h, hf]
    · simp [h]
  simp only [get?, modify, List.find?_map, hp]
  cases hg : t.rows.find? (fun r => decide (key r = k')) with
  | none => simp
  | some r =>
    have hk : key r = k' := key_of_get? hg
    by_cases h : k' = k
    · simp [h, hk ▸ h]
    · simp [h, hk]

@[simp] theorem get?_modify_self (t : Table key) (k : κ) (f : ρ → ρ)
    (hf : ∀ r, key (f r) = key r) : (t.modify k f hf).get? k = (t.get? k).map f := by
  rw [get?_modify, if_pos rfl]

theorem get?_modify_ne (t : Table key) {k k' : κ} (h : k' ≠ k) (f : ρ → ρ)
    (hf : ∀ r, key (f r) = key r) : (t.modify k f hf).get? k' = t.get? k' := by
  rw [get?_modify, if_neg h]

/-- Rewrite all rows. -/
def mapRows (t : Table key) (f : ρ → ρ) (hf : ∀ r, key (f r) = key r) : Table key where
  rows := t.rows.map f
  nodup := by
    have hkeys : key ∘ f = key := funext hf
    rw [List.map_map, hkeys]
    exact t.nodup

theorem get?_mapRows (t : Table key) (k : κ) (f : ρ → ρ) (hf : ∀ r, key (f r) = key r) :
    (t.mapRows f hf).get? k = (t.get? k).map f := by
  have hp : (fun r => decide (key r = k)) ∘ f = fun r => decide (key r = k) := by
    funext r
    simp [hf]
  simp only [get?, mapRows, List.find?_map, hp]

/-! ## Images -/

section Image

variable {ρ' : Type} {key' : ρ' → κ}

/-- The images of the rows, which share their keys. -/
def image (t : Table key) (f : ρ → ρ') (hf : ∀ r, key' (f r) = key r) : Table key' where
  rows := t.rows.map f
  nodup := by
    have hkeys : key' ∘ f = key := funext hf
    rw [List.map_map, hkeys]
    exact t.nodup

end Image

/-! ## Removing rows -/

/-- Keep the rows that satisfy `p`. -/
def filter (t : Table key) (p : ρ → Bool) : Table key where
  rows := t.rows.filter p
  nodup := t.nodup.sublist (List.filter_sublist.map _)

theorem get?_filter (t : Table key) (p : ρ → Bool) (k : κ) :
    (t.filter p).get? k = (t.get? k).filter p := by
  cases hg : t.get? k with
  | none =>
    have hNone := get?_eq_none_iff.mp hg
    exact get?_eq_none_iff.mpr fun r hr => hNone r (List.mem_filter.mp hr).1
  | some r =>
    have hk := key_of_get? hg
    cases hp : p r with
    | true =>
      have hMem : r ∈ (t.filter p).rows := List.mem_filter.mpr ⟨mem_of_get? hg, hp⟩
      rw [Option.filter_some_pos hp, ← hk]
      exact mem_rows_iff.mp hMem
    | false =>
      rw [Option.filter_some_neg (by simp [hp])]
      refine get?_eq_none_iff.mpr fun r' hr' hk' => ?_
      obtain ⟨hMem, hp'⟩ := List.mem_filter.mp hr'
      have hSame : r' = r :=
        List.inj_on_of_nodup_map t.nodup hMem (mem_of_get? hg) (hk'.trans hk.symm)
      rw [hSame, hp] at hp'
      exact Bool.false_ne_true hp'

/-! ## Adding a row -/

/-- Add a row whose key is not taken. -/
def insert (t : Table key) (r : ρ) : Option (Table key) :=
  if h : key r ∈ t.rows.map key then none
  else some ⟨t.rows ++ [r], by
    rw [List.map_append, List.map_singleton]
    exact List.nodup_append'.mpr ⟨t.nodup, List.nodup_singleton _, by simpa using h⟩⟩

theorem insert_isSome_iff {t : Table key} {r : ρ} :
    (t.insert r).isSome = true ↔ t.get? (key r) = none := by
  unfold insert
  split
  · rename_i h
    obtain ⟨r', hr', hk⟩ := List.mem_map.mp h
    simp only [Option.isSome_none, Bool.false_eq_true, false_iff]
    intro hn
    exact get?_eq_none_iff.mp hn r' hr' hk
  · rename_i h
    simp only [Option.isSome_some, true_iff]
    exact get?_eq_none_iff.mpr fun r' hr' hk => h (List.mem_map.mpr ⟨r', hr', hk⟩)

theorem rows_insert {t t' : Table key} {r : ρ} (h : t.insert r = some t') :
    t'.rows = t.rows ++ [r] := by
  unfold insert at h
  split at h
  · cases h
  · cases h; rfl

theorem get?_insert {t t' : Table key} {r : ρ} (h : t.insert r = some t') (k : κ) :
    t'.get? k = if k = key r then some r else t.get? k := by
  have hn : t.get? (key r) = none := insert_isSome_iff.mp (by rw [h]; rfl)
  have hk : t'.get? k = (t.get? k).or (if key r = k then some r else none) := by
    simp only [get?, rows_insert h, List.find?_append, List.find?_singleton, decide_eq_true_eq]
  rw [hk]
  by_cases he : k = key r
  · subst he; simp [hn]
  · simp [he, Ne.symm he]

end Lookup

end Table

end MasakariHA.Lib
