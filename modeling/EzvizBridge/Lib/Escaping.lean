import Mathlib.Data.List.Basic
import Mathlib.Tactic.Common

/-!
# Quoted texts

In a quoted text, a mark and a code stand for what may not occur in it. If the closing quote is one
of these, then the text ends at the next quote that is read, and it is the text that was written
(`read_escape`).

`split_where` is the same for what is not quoted: a piece ends with the first character that cannot
be in it.
-/

namespace Escaping

variable {α : Type*}

/-- How special characters are written: behind `mark`, as what `code` says. -/
structure Scheme (α : Type*) where
  mark : α
  code : α → Option α
  decode : α → Option α

/-- Codes are read back, and the mark is not taken for itself. -/
structure Scheme.Lawful (scheme : Scheme α) : Prop where
  decode_code : ∀ a b, scheme.code a = some b → scheme.decode b = some a
  code_mark : scheme.code scheme.mark ≠ none

variable (scheme : Scheme α)

def escapeOne (a : α) : List α :=
  match scheme.code a with
  | some b => [scheme.mark, b]
  | none => [a]

def escape (text : List α) : List α := text.flatMap (escapeOne scheme)

/-- The text up to the quote, and what is behind it. -/
def read [DecidableEq α] (quote : α) : List α → Option (List α × List α)
  | [] => none
  | a :: rest =>
    if a = quote then some ([], rest)
    else if a = scheme.mark then
      match rest with
      | [] => none
      | b :: rest =>
        (scheme.decode b).bind fun a => (read quote rest).map fun found => (a :: found.1, found.2)
    else (read quote rest).map fun found => (a :: found.1, found.2)

variable {scheme} {quote : α} {text text' rest rest' : List α}

/-- **The text that was written is read.** -/
theorem read_escape [DecidableEq α] (h : scheme.Lawful) (hquote : scheme.code quote ≠ none)
    (hmark : quote ≠ scheme.mark) (text rest : List α) :
    read scheme quote (escape scheme text ++ quote :: rest) = some (text, rest) := by
  induction text with
  | nil =>
    show read scheme quote (quote :: rest) = _
    rw [read.eq_def]
    exact if_pos rfl
  | cons a text ih =>
    rw [escape, List.flatMap_cons, List.append_assoc, ← escape, escapeOne]
    cases hcode : scheme.code a with
    | some b =>
      show read scheme quote (scheme.mark :: b :: (escape scheme text ++ quote :: rest)) = _
      rw [read, if_neg (Ne.symm hmark), if_pos rfl]
      simp only [h.decode_code a b hcode, ih, Option.bind_some, Option.map_some]
    | none =>
      have hne : a ≠ quote := fun heq => hquote (heq ▸ hcode)
      have hne' : a ≠ scheme.mark := fun heq => h.code_mark (heq ▸ hcode)
      show read scheme quote (a :: (escape scheme text ++ quote :: rest)) = _
      rw [read.eq_def]
      simp only [if_neg hne, if_neg hne', ih, Option.map_some]

/-- No quoted text is the head of another one. -/
theorem escape_split [DecidableEq α] (h : scheme.Lawful) (hquote : scheme.code quote ≠ none)
    (hmark : quote ≠ scheme.mark)
    (heq : escape scheme text ++ quote :: rest = escape scheme text' ++ quote :: rest') :
    text = text' ∧ rest = rest' := by
  have hread := read_escape h hquote hmark text rest
  rw [heq, read_escape h hquote hmark] at hread
  obtain ⟨rfl, rfl⟩ := Prod.mk.inj (Option.some.inj hread)
  exact ⟨rfl, rfl⟩

/-- The first character that cannot be in a piece ends it. -/
theorem split_where {p : α → Bool} {a a' x x' : List α} {s s' : α} (ha : ∀ c ∈ a, p c = true)
    (ha' : ∀ c ∈ a', p c = true) (hs : p s = false) (hs' : p s' = false)
    (h : a ++ s :: x = a' ++ s' :: x') : a = a' ∧ s = s' ∧ x = x' := by
  induction a generalizing a' with
  | nil =>
    cases a' with
    | nil =>
      obtain ⟨rfl, rfl⟩ := List.cons.inj h
      exact ⟨rfl, rfl, rfl⟩
    | cons b a' =>
      obtain ⟨rfl, -⟩ := List.cons.inj h
      rw [ha' s List.mem_cons_self] at hs
      cases hs
  | cons b a ih =>
    cases a' with
    | nil =>
      obtain ⟨rfl, -⟩ := List.cons.inj h
      rw [ha b List.mem_cons_self] at hs'
      cases hs'
    | cons b' a' =>
      obtain ⟨rfl, hrest⟩ := List.cons.inj h
      obtain ⟨rfl, rfl, rfl⟩ := ih (fun c hc => ha c (List.mem_cons_of_mem _ hc))
        (fun c hc => ha' c (List.mem_cons_of_mem _ hc)) hrest
      exact ⟨rfl, rfl, rfl⟩

end Escaping
