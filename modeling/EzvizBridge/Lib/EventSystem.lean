import Mathlib.Tactic.Common

/-!
# Event systems

A system of concurrent tasks, seen as one partial function `step : σ → ι → Option σ`: an event
either is not enabled in a state (`none`) or moves it. An interleaving is a list of events, and
`run` plays it.

* `Steps ok s is` — every event of the run meets `ok` in the state in which it happens;
* `run_invariant` — what the steps that meet `ok` preserve, a run made of them preserves;
* `run_keeps` — the same for an invariant that every step preserves;
* `run_budget` — an invariant with a bound, which grows by what the steps cost (`spent`);
* `run_history`, `run_history_of` — an invariant about the state and the steps that led to it
  (`trace`);
* `run_simulates` — a forward simulation: a system whose steps another one can follow is followed
  over whole runs.
-/

namespace EventSystem

variable {σ ι : Type*} (step : σ → ι → Option σ)

/-- Play the events in order; `none` as soon as one of them is not enabled. -/
def run : σ → List ι → Option σ
  | s, [] => some s
  | s, i :: is => (step s i).bind fun s' => run s' is

/-- Every event of the run meets `ok` in the state in which it happens. -/
def Steps (ok : σ → ι → Prop) : σ → List ι → Prop
  | _, [] => True
  | s, i :: is => ok s i ∧ ∀ s', step s i = some s' → Steps ok s' is

theorem guarded {c : Prop} [Decidable c] {s s' : σ} (h : (if c then some s else none) = some s') :
    c ∧ s = s' := by
  obtain ⟨hc, hs⟩ := Option.ite_none_right_eq_some.mp h
  exact ⟨hc, Option.some.inj hs⟩

variable {step}

/-- What the steps that meet `ok` preserve, a run made of such steps preserves. -/
theorem run_invariant (Inv : σ → Prop) {ok : σ → ι → Prop}
    (hstep : ∀ s i s', Inv s → ok s i → step s i = some s' → Inv s')
    {s s' : σ} {is : List ι} (h : Inv s) (hok : Steps step ok s is)
    (hrun : run step s is = some s') : Inv s' := by
  induction is generalizing s with
  | nil =>
    obtain rfl := Option.some.inj hrun
    exact h
  | cons i is ih =>
    obtain ⟨m, hm, hrest⟩ := Option.bind_eq_some_iff.mp hrun
    exact ih (hstep s i m h hok.1 hm) (hok.2 m hm) hrest

/-- What every step preserves, every run preserves. -/
theorem run_keeps (Inv : σ → Prop) (hstep : ∀ s i s', Inv s → step s i = some s' → Inv s')
    {s s' : σ} {is : List ι} (h : Inv s) (hrun : run step s is = some s') : Inv s' := by
  induction is generalizing s with
  | nil =>
    obtain rfl := Option.some.inj hrun
    exact h
  | cons i is ih =>
    obtain ⟨m, hm, hrest⟩ := Option.bind_eq_some_iff.mp hrun
    exact ih (hstep s i m h hm) hrest

/-- What the steps of a run cost. -/
def spent (step : σ → ι → Option σ) (cost : σ → ι → ℕ) : σ → List ι → ℕ
  | _, [] => 0
  | s, i :: is => cost s i + ((step s i).map fun s' => spent step cost s' is).getD 0

/-- An invariant with a bound that each step raises by what it costs. -/
theorem run_budget (Inv : ℕ → σ → Prop) {ok : σ → ι → Prop} {cost : σ → ι → ℕ}
    (hstep : ∀ n s i s', Inv n s → ok s i → step s i = some s' → Inv (n + cost s i) s')
    {n : ℕ} {s s' : σ} {is : List ι} (h : Inv n s) (hok : Steps step ok s is)
    (hrun : run step s is = some s') : Inv (n + spent step cost s is) s' := by
  induction is generalizing n s with
  | nil =>
    obtain rfl := Option.some.inj hrun
    exact h
  | cons i is ih =>
    obtain ⟨m, hm, hrest⟩ := Option.bind_eq_some_iff.mp hrun
    have hnext := ih (hstep n s i m h hok.1 hm) (hok.2 m hm) hrest
    rw [spent, hm, Option.map_some, Option.getD_some, ← Nat.add_assoc]
    exact hnext

/-- The steps of a run, each with the state in which it happens. -/
def trace (step : σ → ι → Option σ) : σ → List ι → List (σ × ι)
  | _, [] => []
  | s, i :: is => (s, i) :: ((step s i).map fun s' => trace step s' is).getD []

/-- What the steps that meet `ok` preserve of the state and of the steps so far, a run made of them
preserves. -/
theorem run_history_of (Inv : List (σ × ι) → σ → Prop) {ok : σ → ι → Prop}
    (hstep : ∀ past s i s', Inv past s → ok s i → step s i = some s' → Inv (past ++ [(s, i)]) s')
    {past : List (σ × ι)} {s s' : σ} {is : List ι} (h : Inv past s) (hok : Steps step ok s is)
    (hrun : run step s is = some s') : Inv (past ++ trace step s is) s' := by
  induction is generalizing s past with
  | nil =>
    obtain rfl := Option.some.inj hrun
    rw [trace, List.append_nil]
    exact h
  | cons i is ih =>
    obtain ⟨m, hm, hrest⟩ := Option.bind_eq_some_iff.mp hrun
    have hnext := ih (hstep past s i m h hok.1 hm) (hok.2 m hm) hrest
    rw [trace, hm, Option.map_some, Option.getD_some, List.append_cons]
    exact hnext

/-- The steps before a step of a run are a run to the state in which it happens. -/
theorem trace_split {s s' : σ} {is : List ι} (hrun : run step s is = some s')
    {earlier later : List (σ × ι)} {m : σ} {i : ι}
    (h : trace step s is = earlier ++ (m, i) :: later) :
    ∃ before after, is = before ++ i :: after ∧ run step s before = some m ∧
      trace step s before = earlier := by
  induction is generalizing s earlier with
  | nil => exact absurd h.symm (List.append_ne_nil_of_right_ne_nil _ (List.cons_ne_nil _ _))
  | cons j is ih =>
    obtain ⟨next, hnext, hrest⟩ := Option.bind_eq_some_iff.mp hrun
    rw [trace, hnext, Option.map_some, Option.getD_some] at h
    cases earlier with
    | nil =>
      obtain ⟨hhead, -⟩ := List.cons.inj h
      obtain ⟨rfl, rfl⟩ := Prod.mk.inj hhead
      exact ⟨[], is, rfl, rfl, rfl⟩
    | cons first earlier =>
      obtain ⟨rfl, htail⟩ := List.cons.inj h
      obtain ⟨before, after, rfl, hbefore, htrace⟩ := ih hrest htail
      refine ⟨j :: before, after, rfl, ?_, ?_⟩
      · rw [run, hnext, Option.bind_some]
        exact hbefore
      · rw [trace, hnext, Option.map_some, Option.getD_some, htrace]

/-- A run in two parts. -/
theorem run_append (s : σ) (is js : List ι) :
    run step s (is ++ js) = (run step s is).bind fun s' => run step s' js := by
  induction is generalizing s with
  | nil => rfl
  | cons i is ih =>
    rw [List.cons_append, run, run, Option.bind_assoc]
    congr 1
    funext m
    exact ih m

/-- Events that meet `ok` wherever they happen. -/
theorem Steps.of_forall {ok : σ → ι → Prop} {s : σ} {is : List ι} (h : ∀ i ∈ is, ∀ s, ok s i) :
    Steps step ok s is := by
  induction is generalizing s with
  | nil => exact trivial
  | cons i is ih =>
    rw [List.forall_mem_cons] at h
    exact ⟨h.1 s, fun s' _ => ih h.2⟩

theorem Steps.cons {ok : σ → ι → Prop} {s s' : σ} {i : ι} {is : List ι} (hi : ok s i)
    (hs : step s i = some s') (h : Steps step ok s' is) : Steps step ok s (i :: is) := by
  refine ⟨hi, fun m hm => ?_⟩
  obtain rfl := Option.some.inj (hs.symm.trans hm)
  exact h

/-- A run in two parts, of steps that meet `ok`. -/
theorem Steps.append {ok : σ → ι → Prop} {s : σ} {is js : List ι} (h : Steps step ok s is)
    (hrest : ∀ s', run step s is = some s' → Steps step ok s' js) : Steps step ok s (is ++ js) := by
  induction is generalizing s with
  | nil => exact hrest s rfl
  | cons i is ih =>
    refine ⟨h.1, fun m hm => ih (h.2 m hm) fun s' hs' => hrest s' ?_⟩
    rw [run, hm]
    exact hs'

/-- What every step preserves of the state and of the steps so far, every run preserves. -/
theorem run_history (Inv : List (σ × ι) → σ → Prop)
    (hstep : ∀ past s i s', Inv past s → step s i = some s' → Inv (past ++ [(s, i)]) s')
    {past : List (σ × ι)} {s s' : σ} {is : List ι} (h : Inv past s)
    (hrun : run step s is = some s') : Inv (past ++ trace step s is) s' :=
  run_history_of Inv (fun past s i s' h _ hs => hstep past s i s' h hs) h
    (Steps.of_forall fun _ _ _ => trivial : Steps step (fun _ _ => True) s is) hrun

/-- A system follows another one if it can follow each of its steps, with events of the kind
`ok`. -/
theorem run_simulates {τ κ : Type*} (step' : τ → κ → Option τ) (R : σ → τ → Prop) (ok : κ → Prop)
    (hstep : ∀ s i s' t, R s t → step s i = some s' →
      ∃ js t', (∀ j ∈ js, ok j) ∧ run step' t js = some t' ∧ R s' t')
    {s s' : σ} {t : τ} {is : List ι} (h : R s t) (hrun : run step s is = some s') :
    ∃ js t', (∀ j ∈ js, ok j) ∧ run step' t js = some t' ∧ R s' t' := by
  induction is generalizing s t with
  | nil =>
    obtain rfl := Option.some.inj hrun
    exact ⟨[], t, fun j hj => absurd hj List.not_mem_nil, rfl, h⟩
  | cons i is ih =>
    obtain ⟨m, hm, hrest⟩ := Option.bind_eq_some_iff.mp hrun
    obtain ⟨js, t₁, hjs, hrun₁, h₁⟩ := hstep s i m t h hm
    obtain ⟨ks, t₂, hks, hrun₂, h₂⟩ := ih h₁ hrest
    refine ⟨js ++ ks, t₂, fun j hj => ?_, ?_, h₂⟩
    · rcases List.mem_append.mp hj with hleft | hright
      · exact hjs j hleft
      · exact hks j hright
    · rw [run_append, hrun₁]
      exact hrun₂

instance Steps.decidable {ok : σ → ι → Prop} [∀ s i, Decidable (ok s i)] :
    ∀ (s : σ) (is : List ι), Decidable (Steps step ok s is)
  | _, [] => isTrue trivial
  | s, i :: is =>
    match h : step s i with
    | none => decidable_of_iff (ok s i) (by simp [Steps, h])
    | some s' =>
      let _ : Decidable (Steps step ok s' is) := Steps.decidable s' is
      decidable_of_iff (ok s i ∧ Steps step ok s' is) (by simp [Steps, h])

/-- A condition on all steps of a run holds of its last step, in the state the run before it
reached. -/
theorem Steps.concat {ok : σ → ι → Prop} {s s' : σ} {is : List ι} {i : ι}
    (hok : Steps step ok s (is ++ [i])) (hrun : run step s is = some s') :
    Steps step ok s is ∧ ok s' i := by
  induction is generalizing s with
  | nil =>
    obtain rfl := Option.some.inj hrun
    exact ⟨trivial, hok.1⟩
  | cons j is ih =>
    obtain ⟨m, hm, hrest⟩ := Option.bind_eq_some_iff.mp hrun
    obtain ⟨hinit, hlast⟩ := ih (hok.2 m hm) hrest
    refine ⟨⟨hok.1, ?_⟩, hlast⟩
    intro m' hm'
    obtain rfl := Option.some.inj (hm.symm.trans hm')
    exact hinit

end EventSystem
