import Mathlib.Data.List.Nodup

/-!
# Dictionaries

A dictionary keeps its items in the order of insertion; setting a key that it has already replaces
the value in its place.
-/

namespace PyVesc

/-- A Python dictionary, in the order of insertion. -/
abbrev Dict (κ α : Type) := List (κ × α)

def Dict.set {κ α : Type} [DecidableEq κ] (d : Dict κ α) (k : κ) (v : α) : Dict κ α :=
  if d.any (fun kv => kv.1 = k) then d.map (fun kv => if kv.1 = k then (k, v) else kv)
  else d ++ [(k, v)]

/-- `d.pop(k, None)`, without its result. -/
def Dict.pop {κ α : Type} [DecidableEq κ] (d : Dict κ α) (k : κ) : Dict κ α :=
  d.filter fun kv => kv.1 ≠ k

namespace Dict

variable {κ α : Type} [DecidableEq κ]

def keys (d : Dict κ α) : List κ := d.map Prod.fst

theorem any_iff_mem_keys (d : Dict κ α) (k : κ) :
    d.any (fun kv => kv.1 = k) = true ↔ k ∈ d.keys := by
  rw [keys, List.any_eq_true, List.mem_map]
  simp only [decide_eq_true_eq]

theorem lookup_eq_none {d : Dict κ α} {k : κ} : d.lookup k = none ↔ k ∉ d.keys := by
  rw [keys, List.lookup_eq_none_iff, List.mem_map]
  constructor
  · rintro h ⟨kv, hkv, rfl⟩
    exact bne_iff_ne.mp (h kv hkv) rfl
  · intro h kv hkv
    exact bne_iff_ne.mpr fun heq => h ⟨kv, hkv, heq.symm⟩

theorem lookup_map_set (d : Dict κ α) (k k' : κ) (v : α) (hk : k ∈ d.keys) :
    (d.map fun kv => if kv.1 = k then (k, v) else kv).lookup k' =
      if k' = k then some v else d.lookup k' := by
  induction d with
  | nil => cases hk
  | cons kv d ih =>
      obtain ⟨key, value⟩ := kv
      rw [List.map_cons]
      dsimp only
      by_cases hkey : key = k
      · rw [if_pos hkey, List.lookup_cons, List.lookup_cons, hkey]
        by_cases hk' : k' = k
        · rw [hk', beq_self_eq_true, if_pos rfl]
        · rw [beq_false_of_ne hk', if_neg hk']
          by_cases hmem : k ∈ keys d
          · rw [ih hmem, if_neg hk']
          · have hsame : (d.map fun kv => if kv.1 = k then (k, v) else kv) = d := by
              nth_rewrite 2 [← List.map_id d]
              apply List.map_congr_left
              intro kv hkv
              have hne : kv.1 ≠ k := by
                rintro rfl
                exact hmem (List.mem_map_of_mem hkv)
              rw [if_neg hne]
              rfl
            rw [hsame]
      · have hmem : k ∈ keys d := (List.mem_cons.mp hk).resolve_left fun h => hkey h.symm
        rw [if_neg hkey, List.lookup_cons, List.lookup_cons, ih hmem]
        by_cases hk' : k' = key
        · have hne : ¬ k' = k := fun h => hkey (hk'.symm.trans h)
          rw [beq_iff_eq.mpr hk']
          exact (if_neg hne).symm
        · rw [beq_false_of_ne hk']

theorem lookup_set (d : Dict κ α) (k k' : κ) (v : α) :
    (Dict.set d k v).lookup k' = if k' = k then some v else d.lookup k' := by
  rw [Dict.set]
  by_cases hk : k ∈ d.keys
  · rw [if_pos ((any_iff_mem_keys d k).mpr hk), lookup_map_set d k k' v hk]
  · rw [if_neg fun h => hk ((any_iff_mem_keys d k).mp h), List.lookup_append, List.lookup_cons]
    by_cases hk' : k' = k
    · rw [hk', lookup_eq_none.mpr hk, beq_self_eq_true, if_pos rfl]
      rfl
    · rw [beq_false_of_ne hk', if_neg hk']
      exact Option.or_none

theorem lookup_pop (d : Dict κ α) (k k' : κ) :
    (Dict.pop d k).lookup k' = if k' = k then none else d.lookup k' := by
  induction d with
  | nil => exact (ite_self none).symm
  | cons kv d ih =>
      obtain ⟨key, value⟩ := kv
      have hcons : Dict.pop ((key, value) :: d) k =
          if key ≠ k then (key, value) :: Dict.pop d k else Dict.pop d k := by
        rw [Dict.pop, List.filter_cons]
        simp only [decide_eq_true_eq]
        rfl
      rw [hcons, List.lookup_cons]
      by_cases hkey : key = k
      · rw [if_neg (not_not_intro hkey), ih]
        by_cases hk' : k' = k
        · rw [if_pos hk', if_pos hk']
        · rw [if_neg hk', if_neg hk', beq_false_of_ne fun h => hk' (h.trans hkey)]
      · rw [if_pos hkey, List.lookup_cons, ih]
        by_cases hk' : k' = key
        · rw [beq_iff_eq.mpr hk']
          exact (if_neg fun h => hkey (hk'.symm.trans h)).symm
        · rw [beq_false_of_ne hk']

theorem keys_set (d : Dict κ α) (k : κ) (v : α) :
    (Dict.set d k v).keys = if k ∈ d.keys then d.keys else d.keys ++ [k] := by
  rw [Dict.set]
  by_cases hk : k ∈ d.keys
  · rw [if_pos ((any_iff_mem_keys d k).mpr hk), if_pos hk, keys, List.map_map, keys]
    apply List.map_congr_left
    intro kv _
    by_cases hkey : kv.1 = k
    · rw [Function.comp_apply, if_pos hkey, hkey]
    · rw [Function.comp_apply, if_neg hkey]
  · rw [if_neg fun h => hk ((any_iff_mem_keys d k).mp h), if_neg hk, keys, List.map_append]
    rfl

theorem mem_keys_set {d : Dict κ α} {k k' : κ} {v : α} :
    k' ∈ (Dict.set d k v).keys ↔ k' = k ∨ k' ∈ d.keys := by
  rw [keys_set]
  by_cases hk : k ∈ d.keys
  · rw [if_pos hk]
    exact ⟨Or.inr, fun h => h.elim (fun h => h ▸ hk) id⟩
  · rw [if_neg hk, List.mem_append, List.mem_singleton, or_comm]

theorem nodup_keys_set {d : Dict κ α} (hd : d.keys.Nodup) (k : κ) (v : α) :
    (Dict.set d k v).keys.Nodup := by
  rw [keys_set]
  by_cases hk : k ∈ d.keys
  · rw [if_pos hk]
    exact hd
  · rw [if_neg hk, List.nodup_append]
    refine ⟨hd, List.nodup_singleton k, ?_⟩
    intro x hx y hy heq
    rw [List.mem_singleton.mp hy] at heq
    exact hk (heq ▸ hx)

end Dict

end PyVesc
