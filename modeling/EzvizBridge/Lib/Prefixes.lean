import Mathlib.Tactic.Common

/-!
# The elements of a list and what stands before them

`Each Q list` says that every element of a list meets `Q`, together with the elements before it. A
list that grows at its end is a history; `each_concat` is its step, and `Each.append` its
composition.
-/

namespace Prefixes

variable {α : Type*}

/-- Every element meets `Q`, together with the elements before it. -/
def Each (Q : List α → α → Prop) (list : List α) : Prop :=
  ∀ head a rest, list = head ++ a :: rest → Q head a

variable {Q R : List α → α → Prop} {first second : List α}

theorem Each.of_forall (h : ∀ head, ∀ a ∈ first, Q head a) : Each Q first := by
  intro head a rest heq
  exact h head a (heq ▸ List.mem_append_right head List.mem_cons_self)

theorem Each.nil : Each Q [] := .of_forall fun _ _ h => absurd h List.not_mem_nil

theorem Each.imp (h : Each Q first) (himp : ∀ head, ∀ a ∈ first, Q head a → R head a) :
    Each R first := by
  intro head a rest heq
  exact himp head a (heq ▸ List.mem_append_right head List.mem_cons_self) (h head a rest heq)

theorem Each.append (hfirst : Each Q first)
    (hsecond : Each (fun head => Q (first ++ head)) second) :
    Each Q (first ++ second) := by
  intro head a rest heq
  rcases List.append_eq_append_iff.mp heq with ⟨mid, rfl, hrest⟩ | ⟨mid, hhead, hmid⟩
  · exact hsecond mid a rest hrest
  · cases mid with
    | nil =>
      -- it is the first element of the second part
      rw [List.append_nil] at hhead
      have hfound : Q (first ++ []) a := hsecond [] a rest hmid.symm
      rwa [List.append_nil, hhead] at hfound
    | cons next mid =>
      injection hmid with hnext hmid
      subst hnext
      exact hfirst head a mid hhead

theorem Each.singleton {a : α} (h : Q [] a) : Each Q [a] := by
  intro head found rest heq
  cases head with
  | nil =>
    cases heq
    exact h
  | cons next head =>
    injection heq with _ hnil
    exact absurd hnil.symm (List.append_ne_nil_of_right_ne_nil head (List.cons_ne_nil found rest))

theorem each_concat {a : α} : Each Q (first ++ [a]) ↔ Each Q first ∧ Q first a := by
  constructor
  · intro h
    refine ⟨fun head found rest heq => ?_, h first a [] rfl⟩
    exact h head found (rest ++ [a]) (by rw [heq, List.append_assoc]; rfl)
  · rintro ⟨hfirst, ha⟩
    refine hfirst.append (.singleton ?_)
    rwa [List.append_nil]

end Prefixes
