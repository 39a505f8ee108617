import MasakariHA.Lib.Table

/-!
# Tables whose rows are marked as deleted

A row that is deleted stays in its table and is marked with its number, counted from 1. A name is
unique among the rows with the same mark: among the live ones, which are marked with 0, because
every write asks for it, and among the others because their marks differ.

* `Marked`: rows are marked so, and the live ones have different names;
* `Marked.unique`: the constraint on names and marks holds of all rows;
* `marked_append`, `marked_map`, `marked_modify`: the writes that keep it;
* `Kept`: the rows are still in their places, each related to what it was.
-/

namespace MasakariHA.Lib

section Marked

variable {ρ ν : Type} (name : ρ → ν) (mark : ρ → ℕ)

/-- The marks are 0 or the number of the row, and names are unique among the live rows. -/
structure Marked (rows : List ρ) : Prop where
  marks : ∀ (i : ℕ) (r : ρ), rows[i]? = some r → mark r = 0 ∨ mark r = i + 1
  names : ∀ (i j : ℕ) (r r' : ρ), rows[i]? = some r → rows[j]? = some r' → mark r = 0 →
    mark r' = 0 → name r = name r' → i = j

variable {name mark} {rows : List ρ}

theorem marked_nil : Marked name mark [] := by
  constructor
  · intro i r h
    rw [List.getElem?_nil] at h
    cases h
  · intro i j r r' h
    rw [List.getElem?_nil] at h
    cases h

/-- Two rows with one name and one mark are the same row. -/
theorem Marked.unique (h : Marked name mark rows) {i j : ℕ} {r r' : ρ} (hr : rows[i]? = some r)
    (hr' : rows[j]? = some r') (hName : name r = name r') (hMark : mark r = mark r') : i = j := by
  rcases h.marks i r hr with hLive | hDeleted
  · exact h.names i j r r' hr hr' hLive (hMark ▸ hLive) hName
  · rcases h.marks j r' hr' with hLive' | hDeleted'
    · omega
    · omega

/-- A new row, live, with a name that no live row has. -/
theorem marked_append (h : Marked name mark rows) {r : ρ} (hLive : mark r = 0)
    (hFree : ∀ r' ∈ rows, mark r' = 0 → name r' ≠ name r) : Marked name mark (rows ++ [r]) := by
  have hCases : ∀ (i : ℕ) (r' : ρ), (rows ++ [r])[i]? = some r' →
      rows[i]? = some r' ∨ i = rows.length ∧ r' = r := by
    intro i r' hr'
    by_cases hOld : i < rows.length
    · rw [List.getElem?_append_left hOld] at hr'
      exact Or.inl hr'
    · rw [List.getElem?_append_right (by omega), List.getElem?_singleton] at hr'
      split at hr'
      · cases hr'
        exact Or.inr ⟨by omega, rfl⟩
      · cases hr'
  constructor
  · intro i r' hr'
    rcases hCases i r' hr' with hOld | ⟨-, rfl⟩
    · exact h.marks i r' hOld
    · exact Or.inl hLive
  · intro i j r₁ r₂ h₁ h₂ hLive₁ hLive₂ hName
    rcases hCases i r₁ h₁ with hOld₁ | ⟨rfl, rfl⟩
    · rcases hCases j r₂ h₂ with hOld₂ | ⟨rfl, rfl⟩
      · exact h.names i j r₁ r₂ hOld₁ hOld₂ hLive₁ hLive₂ hName
      · exact absurd hName (hFree r₁ (List.mem_of_getElem? hOld₁) hLive₁)
    · rcases hCases j r₂ h₂ with hOld₂ | ⟨rfl, -⟩
      · exact absurd hName.symm (hFree r₂ (List.mem_of_getElem? hOld₂) hLive₂)
      · rfl

/-- A write to the rows that keeps the names and the marks, or marks rows with their numbers. -/
theorem marked_map (h : Marked name mark rows) {f : ρ → ρ}
    (hf : ∀ (i : ℕ) (r : ρ), rows[i]? = some r →
      mark (f r) = i + 1 ∨ mark (f r) = mark r ∧ name (f r) = name r) :
    Marked name mark (rows.map f) := by
  have hBack : ∀ (i : ℕ) (r' : ρ), (rows.map f)[i]? = some r' →
      ∃ r, rows[i]? = some r ∧ r' = f r := by
    intro i r' hr'
    rw [List.getElem?_map, Option.map_eq_some_iff] at hr'
    obtain ⟨r, hr, rfl⟩ := hr'
    exact ⟨r, hr, rfl⟩
  constructor
  · intro i r' hr'
    obtain ⟨r, hr, rfl⟩ := hBack i r' hr'
    rcases hf i r hr with hMarked | ⟨hSame, -⟩
    · exact Or.inr hMarked
    · rw [hSame]
      exact h.marks i r hr
  · intro i j r₁ r₂ h₁ h₂ hLive₁ hLive₂ hName
    obtain ⟨r, hr, rfl⟩ := hBack i r₁ h₁
    obtain ⟨r', hr', rfl⟩ := hBack j r₂ h₂
    rcases hf i r hr with hMarked | ⟨hSame, hKept⟩
    · omega
    · rcases hf j r' hr' with hMarked' | ⟨hSame', hKept'⟩
      · omega
      · rw [hSame] at hLive₁
        rw [hSame'] at hLive₂
        rw [hKept, hKept'] at hName
        exact h.names i j r r' hr hr' hLive₁ hLive₂ hName

section Table

variable {κ : Type} {key : ρ → κ} {t : Table key}

theorem index_eq_of_key {i j : ℕ} {r r' : ρ} (hr : t.rows[i]? = some r)
    (hr' : t.rows[j]? = some r') (hKey : key r = key r') : i = j := by
  have hLt : i < (t.rows.map key).length := by
    rw [List.length_map]
    exact (List.getElem?_eq_some_iff.mp hr).1
  apply (List.getElem?_inj hLt t.nodup).mp
  rw [List.getElem?_map, List.getElem?_map, hr, hr']
  exact congrArg some hKey

variable [DecidableEq κ]

/-- The number of a row is found by its key. -/
theorem findIdx_key {i : ℕ} {r : ρ} (hr : t.rows[i]? = some r) :
    t.rows.findIdx (fun r' => decide (key r' = key r)) = i := by
  have hLt : t.rows.findIdx (fun r' => decide (key r' = key r)) < t.rows.length :=
    List.findIdx_lt_length_of_exists ⟨r, List.mem_of_getElem? hr, decide_eq_true rfl⟩
  have hFound := List.findIdx_getElem (w := hLt)
  exact index_eq_of_key (List.getElem?_eq_getElem hLt) hr (of_decide_eq_true hFound)

/-- A write to one row that keeps its mark and gives it a name that no other live row has. -/
theorem marked_modify (h : Marked name mark t.rows) {k : κ} {g : ρ → ρ}
    {hg : ∀ r, key (g r) = key r} (hMark : ∀ r, mark (g r) = mark r)
    (hFree : ∀ r, t.get? k = some r → ∀ r' ∈ t.rows, mark r' = 0 → name r' = name (g r) →
      key r' = k) : Marked name mark (t.modify k g hg).rows := by
  have hBack : ∀ (i : ℕ) (r' : ρ), (t.modify k g hg).rows[i]? = some r' →
      ∃ r, t.rows[i]? = some r ∧ mark r' = mark r ∧
        (key r = k ∧ r' = g r ∨ key r ≠ k ∧ r' = r) := by
    intro i r' hr'
    unfold Table.modify at hr'
    rw [List.getElem?_map, Option.map_eq_some_iff] at hr'
    obtain ⟨r, hr, rfl⟩ := hr'
    by_cases hKey : key r = k
    · rw [if_pos hKey]
      exact ⟨r, hr, hMark r, Or.inl ⟨hKey, rfl⟩⟩
    · rw [if_neg hKey]
      exact ⟨r, hr, rfl, Or.inr ⟨hKey, rfl⟩⟩
  have hOther : ∀ (i j : ℕ) (r r' : ρ), t.rows[i]? = some r → t.rows[j]? = some r' → key r = k →
      key r' ≠ k → mark r' = 0 → name (g r) ≠ name r' := by
    intro i j r r' hr hr' hKey hKey' hLive hName
    have hGet : t.get? k = some r := hKey ▸ Table.mem_rows_iff.mp (List.mem_of_getElem? hr)
    exact hKey' (hFree r hGet r' (List.mem_of_getElem? hr') hLive hName.symm)
  constructor
  · intro i r' hr'
    obtain ⟨r, hr, hSame, -⟩ := hBack i r' hr'
    rw [hSame]
    exact h.marks i r hr
  · intro i j r₁ r₂ h₁ h₂ hLive₁ hLive₂ hName
    obtain ⟨r, hr, hSame, hRow⟩ := hBack i r₁ h₁
    obtain ⟨r', hr', hSame', hRow'⟩ := hBack j r₂ h₂
    rw [hSame] at hLive₁
    rw [hSame'] at hLive₂
    rcases hRow with ⟨hKey, rfl⟩ | ⟨hKey, rfl⟩
    · rcases hRow' with ⟨hKey', rfl⟩ | ⟨hKey', rfl⟩
      · exact index_eq_of_key hr hr' (hKey.trans hKey'.symm)
      · exact absurd hName (hOther i j r r₂ hr hr' hKey hKey' hLive₂)
    · rcases hRow' with ⟨hKey', rfl⟩ | ⟨hKey', rfl⟩
      · exact absurd hName.symm (hOther j i r' r₁ hr' hr hKey' hKey hLive₁)
      · exact h.names i j r₁ r₂ hr hr' hLive₁ hLive₂ hName

end Table

end Marked

/-! ## What stays -/

section Kept

variable {ρ : Type} {R : ρ → ρ → Prop} {rows rows' rows'' : List ρ}

/-- Every row is still in its place, related to what it was. -/
def Kept (R : ρ → ρ → Prop) (rows rows' : List ρ) : Prop :=
  ∀ (i : ℕ) (r : ρ), rows[i]? = some r → ∃ r', rows'[i]? = some r' ∧ R r r'

theorem kept_refl (hR : ∀ r, R r r) (rows : List ρ) : Kept R rows rows := by
  intro i r hr
  exact ⟨r, hr, hR r⟩

theorem kept_trans (hR : ∀ r r' r'', R r r' → R r' r'' → R r r'') (h : Kept R rows rows')
    (h' : Kept R rows' rows'') : Kept R rows rows'' := by
  intro i r hr
  obtain ⟨r', hr', hFirst⟩ := h i r hr
  obtain ⟨r'', hr'', hSecond⟩ := h' i r' hr'
  exact ⟨r'', hr'', hR r r' r'' hFirst hSecond⟩

theorem kept_append (hR : ∀ r, R r r) (rows new : List ρ) : Kept R rows (rows ++ new) := by
  intro i r hr
  have hLt := (List.getElem?_eq_some_iff.mp hr).1
  rw [List.getElem?_append_left hLt]
  exact ⟨r, hr, hR r⟩

theorem kept_map {f : ρ → ρ} (hf : ∀ r ∈ rows, R r (f r)) : Kept R rows (rows.map f) := by
  intro i r hr
  rw [List.getElem?_map, hr]
  exact ⟨f r, rfl, hf r (List.mem_of_getElem? hr)⟩

/-- What keeps the keys leaves no key without a row. -/
theorem isSome_get?_of_kept {κ : Type} [DecidableEq κ] {key : ρ → κ} {t t' : Table key}
    (h : Kept R t.rows t'.rows) (hKey : ∀ r r', R r r' → key r' = key r) {k : κ}
    (hk : (t.get? k).isSome = true) : (t'.get? k).isSome = true := by
  obtain ⟨r, hr⟩ := Option.isSome_iff_exists.mp hk
  obtain ⟨i, hi⟩ := List.mem_iff_getElem?.mp (Table.mem_of_get? hr)
  obtain ⟨r', hr', hRelated⟩ := h i r hi
  have hGet := Table.mem_rows_iff.mp (List.mem_of_getElem? hr')
  rw [hKey r r' hRelated, Table.key_of_get? hr] at hGet
  rw [hGet]
  rfl

end Kept

end MasakariHA.Lib
