import Mathlib.Data.List.Basic
import Mathlib.Order.Lattice
import Mathlib.Tactic.Common

/-!
# Sorted maps

A map as the list of its entries, in the order of its keys. `upsert` changes the entry of a key, or
makes one; then the key has the new value, and all others have what they had (`get_upsert`).
-/

namespace SortedMap

variable {κ ν : Type*} [LinearOrder κ] {m : List (κ × ν)} {k k' : κ} {f : Option ν → ν}

def upsert (k : κ) (f : Option ν → ν) : List (κ × ν) → List (κ × ν)
  | [] => [(k, f none)]
  | entry :: m =>
    if k < entry.1 then (k, f none) :: entry :: m
    else if k = entry.1 then (k, f (some entry.2)) :: m
    else entry :: upsert k f m

/-- The value of a key. -/
def get (m : List (κ × ν)) (k : κ) : Option ν := (m.find? fun entry => entry.1 = k).map Prod.snd

def Sorted (m : List (κ × ν)) : Prop := m.Pairwise fun a b => a.1 < b.1

theorem sorted_nil : Sorted ([] : List (κ × ν)) := List.Pairwise.nil

theorem key_of_mem_upsert {entry : κ × ν} (h : entry ∈ upsert k f m) : entry.1 = k ∨ entry ∈ m := by
  induction m with
  | nil =>
    rw [List.mem_singleton.mp h]
    exact .inl rfl
  | cons first m ih =>
    rw [upsert] at h
    split at h
    · rcases List.mem_cons.mp h with rfl | hold
      · exact .inl rfl
      · exact .inr hold
    · split at h
      · rcases List.mem_cons.mp h with rfl | hold
        · exact .inl rfl
        · exact .inr (List.mem_cons_of_mem _ hold)
      · rcases List.mem_cons.mp h with rfl | hrest
        · exact .inr List.mem_cons_self
        · exact (ih hrest).imp id (List.mem_cons_of_mem _)

theorem Sorted.upsert (h : Sorted m) (k : κ) (f : Option ν → ν) : Sorted (upsert k f m) := by
  induction m with
  | nil => exact List.pairwise_singleton _ _
  | cons first m ih =>
    obtain ⟨hfirst, hrest⟩ := List.pairwise_cons.mp h
    rw [SortedMap.upsert]
    split
    · next hlt =>
      refine List.pairwise_cons.mpr ⟨fun entry hentry => ?_, h⟩
      rcases List.mem_cons.mp hentry with rfl | hentry
      · exact hlt
      · exact hlt.trans (hfirst entry hentry)
    · next hge =>
      split
      · next heq =>
        refine List.pairwise_cons.mpr ⟨fun entry hentry => ?_, hrest⟩
        rw [heq]
        exact hfirst entry hentry
      · next hne =>
        refine List.pairwise_cons.mpr ⟨fun entry hentry => ?_, ih hrest⟩
        rcases key_of_mem_upsert hentry with hkey | hold
        · rw [hkey]
          exact lt_of_le_of_ne (le_of_not_gt hge) (Ne.symm hne)
        · exact hfirst entry hold

theorem get_of_lt (h : ∀ entry ∈ m, k < entry.1) : get m k = none := by
  rw [get, List.find?_eq_none.mpr, Option.map_none]
  intro entry hentry
  simpa using (h entry hentry).ne'

theorem get_cons (entry : κ × ν) (m : List (κ × ν)) (k : κ) :
    get (entry :: m) k = if entry.1 = k then some entry.2 else get m k := by
  rw [get, List.find?_cons]
  by_cases h : entry.1 = k
  · simp [h]
  · simp [h, get]

/-- **The changed key, and the others.** -/
theorem get_upsert (h : Sorted m) (k : κ) (f : Option ν → ν) (k' : κ) :
    get (upsert k f m) k' = if k = k' then some (f (get m k)) else get m k' := by
  induction m with
  | nil =>
    rw [upsert, get_cons]
    rfl
  | cons first m ih =>
    obtain ⟨hfirst, hrest⟩ := List.pairwise_cons.mp h
    rw [upsert]
    split
    · next hlt =>
      have hnone : get (first :: m) k = none := by
        refine get_of_lt fun entry hentry => ?_
        rcases List.mem_cons.mp hentry with rfl | hentry
        · exact hlt
        · exact hlt.trans (hfirst entry hentry)
      rw [get_cons, hnone]
    · split
      · next heq =>
        subst heq
        rw [get_cons, get_cons, get_cons, if_pos rfl]
        split <;> rfl
      · next hne =>
        rw [get_cons, ih hrest, get_cons, get_cons, if_neg (Ne.symm hne)]
        by_cases hkey : first.1 = k'
        · rw [if_pos hkey, if_pos hkey, if_neg (fun heq => hne (heq.trans hkey.symm))]
        · rw [if_neg hkey, if_neg hkey]

/-- What a key has is in the map. -/
theorem get_eq_some (h : Sorted m) {k : κ} {v : ν} : get m k = some v ↔ (k, v) ∈ m := by
  induction m with
  | nil => simp [get]
  | cons first m ih =>
    obtain ⟨hfirst, hrest⟩ := List.pairwise_cons.mp h
    rw [get_cons, List.mem_cons]
    split
    · next hkey =>
      subst hkey
      rw [Option.some.injEq]
      refine ⟨fun hvalue => .inl (by rw [← hvalue]), fun hmem => ?_⟩
      rcases hmem with hself | hbehind
      · rw [← hself]
      · exact absurd (hfirst _ hbehind) (lt_irrefl _)
    · next hkey =>
      rw [ih hrest]
      refine ⟨.inr, fun hmem => hmem.resolve_left fun hself => ?_⟩
      rw [← hself] at hkey
      exact hkey rfl

end SortedMap
