import Mathlib.Data.List.Basic
import Mathlib.Data.List.Nodup
import Mathlib.Tactic.Common

/-!
# Keyed lists

A finite map whose entries know their own key: a list with a key function under which the entries
are distinct. The operations are those of an ordinary map. Each has one lemma that says what a
lookup finds afterwards and one that says that the keys stay distinct.
-/

namespace Keyed

variable {α κ : Type*} [DecidableEq κ] (key : α → κ)

/-- The entry with key `k`. -/
def lookup (l : List α) (k : κ) : Option α := l.find? fun a => key a = k

/-- Drop the entry with key `k`. -/
def remove (l : List α) (k : κ) : List α := l.filter fun a => key a ≠ k

/-- Add an entry, in place of the one with its key. -/
def insert (l : List α) (a : α) : List α := remove key l (key a) ++ [a]

/-- Change the entry with key `k`. -/
def modify (l : List α) (k : κ) (f : α → α) : List α := l.map fun a => if key a = k then f a else a

/-- No two entries have the same key. -/
def Distinct (l : List α) : Prop := (l.map key).Nodup

variable {key} {l : List α} {k k' : κ} {a b : α}

/-- Nothing is found where there is no such key. -/
theorem lookup_eq_none : lookup key l k = none ↔ ∀ a ∈ l, key a ≠ k := by
  simp [lookup, List.find?_eq_none]

/-- What is found is there and has the key. -/
theorem mem_of_lookup (h : lookup key l k = some a) : a ∈ l ∧ key a = k :=
  ⟨List.mem_of_find?_eq_some h, by simpa using List.find?_some h⟩

omit [DecidableEq κ] in
theorem eq_of_mem (hd : Distinct key l) (ha : a ∈ l) (hb : b ∈ l) (h : key a = key b) : a = b :=
  List.inj_on_of_nodup_map hd ha hb h

/-- What is found is the entry with the key. -/
theorem lookup_eq_some (hd : Distinct key l) : lookup key l k = some a ↔ a ∈ l ∧ key a = k := by
  refine ⟨mem_of_lookup, fun ⟨ha, hk⟩ => ?_⟩
  cases h : lookup key l k with
  | none => exact absurd hk (lookup_eq_none.mp h a ha)
  | some b =>
    obtain ⟨hb, hkb⟩ := mem_of_lookup h
    rw [eq_of_mem hd ha hb (hk.trans hkb.symm)]

/-- Something is found where there is such a key. -/
theorem lookup_isSome : (lookup key l k).isSome = true ↔ k ∈ l.map key := by
  simp [lookup, List.find?_isSome]

/-! ### Removal and insertion -/

theorem mem_remove : a ∈ remove key l k ↔ a ∈ l ∧ key a ≠ k := by
  simp [remove]

theorem distinct_remove (h : Distinct key l) : Distinct key (remove key l k) :=
  h.sublist (List.filter_sublist.map key)

theorem lookup_remove_self : lookup key (remove key l k) k = none := by
  rw [lookup_eq_none]
  intro a ha
  exact (mem_remove.mp ha).2

theorem lookup_remove_of_ne (h : k' ≠ k) : lookup key (remove key l k) k' = lookup key l k' := by
  rw [lookup, remove, List.find?_filter, lookup]
  congr 1
  funext a
  by_cases hk : key a = k' <;> simp [hk, h]

/-- The new entry replaces those with its key. -/
theorem mem_insert : b ∈ insert key l a ↔ (b ∈ l ∧ key b ≠ key a) ∨ b = a := by
  simp [insert, mem_remove]

/-- An insertion keeps the keys distinct. -/
theorem distinct_insert (h : Distinct key l) : Distinct key (insert key l a) := by
  rw [Distinct, insert, List.map_append, List.map_singleton]
  refine List.Nodup.append (distinct_remove h) (List.nodup_singleton _) ?_
  intro k hk hka
  obtain ⟨b, hb, rfl⟩ := List.mem_map.mp hk
  exact (mem_remove.mp hb).2 (List.mem_singleton.mp hka)

theorem lookup_insert_self : lookup key (insert key l a) (key a) = some a := by
  rw [lookup, insert, List.find?_append, ← lookup, lookup_remove_self]
  simp

theorem lookup_insert_of_ne (h : k ≠ key a) : lookup key (insert key l a) k = lookup key l k := by
  rw [lookup, insert, List.find?_append, ← lookup, lookup_remove_of_ne h, lookup,
    List.find?_singleton, decide_eq_false h.symm]
  simp

theorem insert_of_new (h : ∀ b ∈ l, key b ≠ key a) : insert key l a = l ++ [a] := by
  rw [insert, remove, List.filter_eq_self.mpr]
  intro b hb
  exact decide_eq_true (h b hb)

/-- Entries with distinct keys, inserted one after the other, are the list itself. -/
theorem foldl_insert (h : Distinct key l) : l.foldl (insert key) [] = l := by
  have hgo : ∀ acc : List α, Distinct key (acc ++ l) → l.foldl (insert key) acc = acc ++ l := by
    clear h
    -- on the entries, with what has been inserted so far
    induction l with
    | nil => intro acc _; exact (List.append_nil acc).symm
    | cons a l ih =>
      intro acc hacc
      have hnew : ∀ b ∈ acc, key b ≠ key a := by
        intro b hb hk
        rw [Distinct, List.map_append, List.map_cons] at hacc
        exact (List.nodup_append.mp hacc).2.2 (key b) (List.mem_map_of_mem hb) (key a)
          List.mem_cons_self hk
      rw [List.foldl_cons, insert_of_new hnew, ih]
      · rw [List.append_assoc, List.singleton_append]
      · rwa [List.append_assoc, List.singleton_append]
  exact hgo [] h

theorem distinct_foldl_insert {acc : List α} (h : Distinct key acc) :
    Distinct key (l.foldl (insert key) acc) := by
  induction l generalizing acc with
  | nil => exact h
  | cons a l ih => exact ih (distinct_insert h)

/-- What is there with another key stays. -/
theorem mem_foldl_insert_of_notMem {acc : List α} (h : key a ∉ l.map key) :
    a ∈ l.foldl (insert key) acc ↔ a ∈ acc := by
  -- on the entries
  induction l generalizing acc with
  | nil => exact Iff.rfl
  | cons b l ih =>
    rw [List.map_cons, List.mem_cons, not_or] at h
    rw [List.foldl_cons, ih h.2, mem_insert]
    constructor
    · rintro (⟨hmem, -⟩ | rfl)
      · exact hmem
      · exact absurd rfl h.1
    · intro hmem
      exact Or.inl ⟨hmem, h.1⟩

/-- Of the entries with one key, one is there in the end. -/
theorem exists_mem_foldl_insert {acc : List α} (h : k ∈ l.map key) :
    ∃ a ∈ l, key a = k ∧ a ∈ l.foldl (insert key) acc := by
  -- on the entries; a later one with the same key takes its place
  induction l generalizing acc with
  | nil => exact absurd h List.not_mem_nil
  | cons b l ih =>
    by_cases hlater : k ∈ l.map key
    · obtain ⟨a, ha, hkey, hmem⟩ := ih hlater
      exact ⟨a, List.mem_cons_of_mem b ha, hkey, hmem⟩
    · rw [List.map_cons, List.mem_cons] at h
      obtain rfl := h.resolve_right hlater
      refine ⟨b, List.mem_cons_self, rfl, ?_⟩
      rw [List.foldl_cons, mem_foldl_insert_of_notMem hlater, mem_insert]
      exact Or.inr rfl

/-! ### Changes in place -/

variable {f : α → α}

theorem map_key_modify (hf : ∀ a, key (f a) = key a) : (modify key l k f).map key = l.map key := by
  rw [modify, List.map_map]
  refine List.map_congr_left fun a _ => ?_
  by_cases h : key a = k <;> simp [h, hf]

theorem mem_modify : b ∈ modify key l k f ↔ ∃ a ∈ l, (if key a = k then f a else a) = b :=
  List.mem_map

/-- The entries are changed under their keys. -/
theorem lookup_map (hf : ∀ a, key (f a) = key a) :
    lookup key (l.map f) k = (lookup key l k).map f := by
  rw [lookup, List.find?_map, lookup]
  congr 2
  funext a
  simp [hf]

/-- The modified entry is found. -/
theorem lookup_modify_self (hf : ∀ a, key (f a) = key a) :
    lookup key (modify key l k f) k = (lookup key l k).map f := by
  have hg : ∀ a, key (if key a = k then f a else a) = key a := by
    intro a
    split_ifs <;> simp [hf]
  rw [modify, lookup_map hg]
  cases h : lookup key l k with
  | none => rfl
  | some a => simp [(mem_of_lookup h).2]

/-- Another key is found as before. -/
theorem lookup_modify_of_ne (hf : ∀ a, key (f a) = key a) (h : k' ≠ k) :
    lookup key (modify key l k f) k' = lookup key l k' := by
  have hg : ∀ a, key (if key a = k then f a else a) = key a := by
    intro a
    split_ifs <;> simp [hf]
  rw [modify, lookup_map hg]
  cases hl : lookup key l k' with
  | none => rfl
  | some a => simp [(mem_of_lookup hl).2, h]

end Keyed
