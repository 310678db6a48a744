import Mathlib.Tactic.Common

/-!
# Fallible list transducers

A transducer is a step `σ → ι → Except ε (List β) × σ`: it consumes one input, moves the state
and answers with a list of outputs or with an error, keeping in either case the state it reached.
`run` feeds a list of inputs and concatenates the answers, up to the first error.

The results are the rules by which a property of a run is reduced to one of a step.

* `run_eq_ok_cons`, `run_eq_ok_append` — a successful run, taken apart;
* `run_history` — an invariant of the inputs consumed, the outputs produced and the state;
* `run_ok_keeps` — an invariant of the state alone, along a run that succeeds;
* `run_keeps` — an invariant of the state alone, which survives an error as well.
-/

namespace Transducer

variable {ε σ ι β : Type*} (step : σ → ι → Except ε (List β) × σ)

/-- Feed the inputs in order, up to the first error, and concatenate the outputs. -/
def run : σ → List ι → Except ε (List β) × σ
  | s, [] => (.ok [], s)
  | s, i :: is =>
    match step s i with
    | (.error e, s) => (.error e, s)
    | (.ok out, s) =>
      match run s is with
      | (.error e, s) => (.error e, s)
      | (.ok more, s) => (.ok (out ++ more), s)

@[simp] theorem run_nil (s : σ) : run step s [] = (.ok [], s) := rfl

theorem run_singleton (s : σ) (i : ι) : run step s [i] = step s i := by
  rw [run]
  rcases step s i with ⟨e | out, s'⟩
  · rfl
  · simp only [run, List.append_nil]

variable {step}

theorem run_cons_ok {s s' s'' : σ} {i : ι} {is : List ι} {out more : List β}
    (hstep : step s i = (.ok out, s')) (hrun : run step s' is = (.ok more, s'')) :
    run step s (i :: is) = (.ok (out ++ more), s'') := by
  simp only [run, hstep, hrun]

theorem run_cons_error {s s' : σ} {i : ι} {is : List ι} {e : ε}
    (hstep : step s i = (.error e, s')) : run step s (i :: is) = (.error e, s') := by
  simp only [run, hstep]

/-- Past a step that succeeded, the state of a run is that of the run of the rest. -/
theorem run_cons_state {s s' : σ} {i : ι} {is : List ι} {out : List β}
    (hstep : step s i = (.ok out, s')) :
    (run step s (i :: is)).2 = (run step s' is).2 := by
  simp only [run, hstep]
  rcases run step s' is with ⟨e | more, s''⟩ <;> rfl

/-- A successful run over a nonempty list, taken apart. -/
theorem run_eq_ok_cons {s s'' : σ} {i : ι} {is : List ι} {out : List β} :
    run step s (i :: is) = (.ok out, s'') ↔
      ∃ first s' more, step s i = (.ok first, s') ∧ run step s' is = (.ok more, s'') ∧
        out = first ++ more := by
  constructor
  · intro h
    rw [run] at h
    split at h
    · cases h
    · next first s' hstep =>
      split at h
      · cases h
      · next more s₂ hrun =>
        cases h
        exact ⟨first, s', more, hstep, hrun, rfl⟩
  · rintro ⟨first, s', more, hstep, hrun, rfl⟩
    exact run_cons_ok hstep hrun

/-- A successful run over a concatenation, taken apart. -/
theorem run_eq_ok_append {s s'' : σ} {is js : List ι} {out : List β} :
    run step s (is ++ js) = (.ok out, s'') ↔
      ∃ first s' more, run step s is = (.ok first, s') ∧ run step s' js = (.ok more, s'') ∧
        out = first ++ more := by
  induction is generalizing s out with
  | nil => simp
  | cons i is ih =>
    rw [List.cons_append, run_eq_ok_cons]
    constructor
    · rintro ⟨first, s', more, hstep, hrun, rfl⟩
      obtain ⟨mid, s₂, last, hmid, hlast, rfl⟩ := ih.1 hrun
      exact ⟨first ++ mid, s₂, last, run_cons_ok hstep hmid, hlast, by simp⟩
    · rintro ⟨front, s₂, last, hfront, hlast, rfl⟩
      obtain ⟨first, s', mid, hstep, hmid, rfl⟩ := run_eq_ok_cons.1 hfront
      exact ⟨first, s', mid ++ last, hstep, ih.2 ⟨mid, s₂, last, hmid, hlast, rfl⟩, by simp⟩

/-- **The history rule.** What a step preserves of the inputs so far, the outputs so far and the
state holds at the end of every successful run. -/
theorem run_history (Inv : List ι → List β → σ → Prop)
    (hstep : ∀ {is : List ι} {out : List β} {s : σ} (i : ι) {more : List β} {s' : σ},
      Inv is out s → step s i = (.ok more, s') → Inv (is ++ [i]) (out ++ more) s')
    {is : List ι} {out : List β} {s : σ} (h : Inv is out s)
    {js : List ι} {more : List β} {s' : σ} (hrun : run step s js = (.ok more, s')) :
    Inv (is ++ js) (out ++ more) s' := by
  induction js generalizing is out s more with
  | nil =>
    cases hrun
    simpa using h
  | cons j js ih =>
    obtain ⟨first, s₁, rest, hfirst, hrest, rfl⟩ := run_eq_ok_cons.1 hrun
    have := ih (hstep j h hfirst) hrest
    simpa using this

/-- What a successful step preserves of the state holds at the end of every successful run. -/
theorem run_ok_keeps (Inv : σ → Prop)
    (hstep : ∀ s i out s', Inv s → step s i = (.ok out, s') → Inv s') {s : σ} (h : Inv s)
    {is : List ι} {out : List β} {s' : σ} (hrun : run step s is = (.ok out, s')) : Inv s' := by
  induction is generalizing s out with
  | nil =>
    cases hrun
    exact h
  | cons i is ih =>
    obtain ⟨first, s₁, rest, hfirst, hrest, -⟩ := run_eq_ok_cons.1 hrun
    exact ih (hstep s i first s₁ h hfirst) hrest

/-- **The state rule.** What a step preserves of the state, whether it succeeds or not, holds
after every run. -/
theorem run_keeps (Inv : σ → Prop) (hstep : ∀ s i, Inv s → Inv (step s i).2) {s : σ} (h : Inv s)
    (is : List ι) : Inv (run step s is).2 := by
  induction is generalizing s with
  | nil => exact h
  | cons i is ih =>
    have hnext := hstep s i h
    rw [run]
    split
    · next e s' he => rwa [he] at hnext
    · next out s' he =>
      rw [he] at hnext
      have hrest := ih hnext
      split
      · next e s₂ hr => rwa [hr] at hrest
      · next more s₂ hr => rwa [hr] at hrest

end Transducer
