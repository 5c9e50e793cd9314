import Mathlib.Data.List.Nodup
import PromqlAssist.Server.Document

/-!
# Looking up what was put

A change under one key is seen under that key and under no other.
-/

namespace PromqlAssist

namespace Keyed

variable {α : Type} {entries : Keyed α} {key other : String}

theorem get?_cons (key k : String) (v : α) (rest : Keyed α) :
    get? key ((k, v) :: rest) = if key = k then some v else get? key rest := by
  by_cases h : key = k
  · simp [get?, h]
  · have hbeq : (key == k) = false := by simpa using h
    simp [get?, List.lookup_cons, h, hbeq]

@[simp] theorem get?_put_self (key : String) (value : α) (entries : Keyed α) :
    get? key (put key value entries) = some value := by
  induction entries with
  | nil => simp [put, get?_cons]
  | cons e rest ih =>
    obtain ⟨k, v⟩ := e
    rw [put]
    split
    · rename_i hk
      rw [get?_cons, if_pos hk.symm]
    · rename_i hk
      rw [get?_cons, if_neg (Ne.symm hk), ih]

theorem get?_put_of_ne (h : other ≠ key) (value : α) (entries : Keyed α) :
    get? other (put key value entries) = get? other entries := by
  induction entries with
  | nil => rw [put, get?_cons, if_neg h]
  | cons e rest ih =>
    obtain ⟨k, v⟩ := e
    rw [put]
    split
    · rename_i hk
      rw [get?_cons, get?_cons, if_neg (hk ▸ h), if_neg (hk ▸ h)]
    · rw [get?_cons, get?_cons, ih]

@[simp] theorem put_put (key : String) (first second : α) (entries : Keyed α) :
    put key second (put key first entries) = put key second entries := by
  induction entries with
  | nil => simp [put]
  | cons e rest ih =>
    obtain ⟨k, v⟩ := e
    by_cases hk : k = key
    · simp [put, hk]
    · simp [put, hk, ih]

/-- A key that is there keeps its place, and a new one comes last. -/
theorem map_fst_put (key : String) (value : α) (entries : Keyed α) :
    (put key value entries).map (·.1) =
      if key ∈ entries.map (·.1) then entries.map (·.1) else entries.map (·.1) ++ [key] := by
  induction entries with
  | nil => simp [put]
  | cons e rest ih =>
    obtain ⟨k, v⟩ := e
    by_cases hk : k = key
    · simp [put, hk]
    · rw [put, if_neg hk, List.map_cons, ih, List.map_cons]
      by_cases hmem : key ∈ rest.map (·.1)
      · rw [if_pos hmem, if_pos (List.mem_cons_of_mem k hmem)]
      · have hnew : key ∉ k :: rest.map (·.1) := by
          rw [List.mem_cons, not_or]
          exact ⟨Ne.symm hk, hmem⟩
        rw [if_neg hmem, if_neg hnew, List.cons_append]

theorem nodup_keys_put {value : α} (h : (entries.map (·.1)).Nodup) :
    ((put key value entries).map (·.1)).Nodup := by
  rw [map_fst_put]
  split
  · exact h
  · rename_i hkey
    rw [← List.concat_eq_append]
    exact h.concat hkey

theorem nodup_keys_erase (h : (entries.map (·.1)).Nodup) :
    ((erase key entries).map (·.1)).Nodup :=
  h.sublist (List.filter_sublist.map _)

/-- Where no key occurs twice, every entry is found. -/
theorem get?_eq_some_iff {value : α} (hkeys : (entries.map (·.1)).Nodup) :
    get? key entries = some value ↔ (key, value) ∈ entries := by
  induction entries with
  | nil => simp [get?]
  | cons e rest ih =>
    obtain ⟨k, v⟩ := e
    obtain ⟨hk, hrest⟩ := List.nodup_cons.mp hkeys
    rw [get?_cons, List.mem_cons]
    by_cases heq : key = k
    · have habsent : (key, value) ∉ rest := by
        intro hmem
        exact hk (heq ▸ List.mem_map.mpr ⟨(key, value), hmem, rfl⟩)
      rw [if_pos heq, or_iff_left habsent, Option.some.injEq, Prod.mk.injEq, eq_comm]
      exact (and_iff_right heq).symm
    · rw [if_neg heq, ih hrest, Prod.mk.injEq, or_iff_right]
      exact fun hpair => heq hpair.1

@[simp] theorem get?_erase_self (key : String) (entries : Keyed α) :
    get? key (erase key entries) = none := by
  induction entries with
  | nil => rfl
  | cons e rest ih =>
    obtain ⟨k, v⟩ := e
    by_cases hk : k = key
    · rw [erase, List.filter_cons_of_neg (by simpa using hk)]
      exact ih
    · rw [erase, List.filter_cons_of_pos (by simpa using hk), get?_cons, if_neg (Ne.symm hk)]
      exact ih

theorem get?_erase_of_ne (h : other ≠ key) (entries : Keyed α) :
    get? other (erase key entries) = get? other entries := by
  induction entries with
  | nil => rfl
  | cons e rest ih =>
    obtain ⟨k, v⟩ := e
    by_cases hk : k = key
    · rw [erase, List.filter_cons_of_neg (by simpa using hk), get?_cons, if_neg (hk ▸ h)]
      exact ih
    · rw [erase, List.filter_cons_of_pos (by simpa using hk), get?_cons, get?_cons]
      split
      · rfl
      · exact ih

@[simp] theorem get?_mapValues (f : α → α) (key : String) (entries : Keyed α) :
    get? key (mapValues f entries) = (get? key entries).map f := by
  induction entries with
  | nil => rfl
  | cons e rest ih =>
    obtain ⟨k, v⟩ := e
    rw [mapValues, List.map_cons, get?_cons, get?_cons]
    split
    · rfl
    · exact ih

end Keyed

namespace DocumentStore

variable {store : DocumentStore} {uri other : String}

theorem document?_update_of_ne (h : other ≠ uri) (version : Int) (text : Text) :
    (store.update uri version text).document? other = store.document? other := by
  unfold update document?
  split
  · split
    · exact Keyed.get?_put_of_ne h _ store
    · rfl
  · exact Keyed.get?_put_of_ne h _ store

end DocumentStore

end PromqlAssist
