import Mathlib.Tactic.Common

/-!
# Programs that perform effects

A program is a function of the effects so far: it returns a value and the effects afterwards. What
the world answers to an effect is up to a function of the effects so far, so that a program can be
run against every world.

* `perform` — one effect;
* `Emits P x` — all that `x` does is to add effects that meet `P`;
* `Ran x since until_ a` — `x` has been run between two points of a run, and it has returned `a`;
* `Fallible` — a program that may fail. The lemmas `run_*` run it step by step;
* `Does P counted n Q x` — what `x` adds meets `P`, at most `n` effects of it are counted, and what
  it returns meets `Q`.
-/

namespace Effects

/-- A program. -/
structure Program (ε α : Type) where
  run : List ε → α × List ε

namespace Program

variable {ε α β : Type}

instance : Monad (Program ε) where
  pure a := ⟨fun log => (a, log)⟩
  bind x f := ⟨fun log => (f (x.run log).1).run (x.run log).2⟩

/-- The effects so far. -/
def history : Program ε (List ε) := ⟨fun log => (log, log)⟩

def perform (effect : ε) : Program ε Unit := ⟨fun log => ((), log ++ [effect])⟩

section

variable (log : List ε)

@[simp] theorem run_pure (a : α) : (pure a : Program ε α).run log = (a, log) := rfl

/-- The second program runs behind the log of the first one. -/
@[simp] theorem run_bind (x : Program ε α) (f : α → Program ε β) :
    (x >>= f).run log = (f (x.run log).1).run (x.run log).2 := rfl

@[simp] theorem run_history : (history : Program ε (List ε)).run log = (log, log) := rfl

@[simp] theorem run_perform (effect : ε) : (perform effect).run log = ((), log ++ [effect]) := rfl

end

/-- Effects, one for each item. -/
theorem run_forM_perform (log : List ε) (items : List α) (effect : α → ε) :
    (items.forM fun item => perform (effect item) : Program ε PUnit).run log =
      ((), log ++ items.map effect) := by
  induction items generalizing log with
  | nil => exact Prod.ext rfl (List.append_nil log).symm
  | cons item items ih =>
    show (items.forM fun item => perform (effect item) : Program ε PUnit).run
        (log ++ [effect item]) = _
    rw [ih, List.append_assoc]
    rfl

/-! ### What a program adds -/

/-- The program adds effects that meet `P`, and nothing else. -/
def Emits (P : ε → Prop) (x : Program ε α) : Prop :=
  ∀ log, ∃ tail, (x.run log).2 = log ++ tail ∧ ∀ effect ∈ tail, P effect

variable {P : ε → Prop} {x : Program ε α} {f : α → Program ε β}

theorem Emits.pure (a : α) : Emits P (pure a : Program ε α) := fun log =>
  ⟨[], (List.append_nil log).symm, fun _ h => absurd h List.not_mem_nil⟩

theorem Emits.history : Emits P (history : Program ε (List ε)) := fun log =>
  ⟨[], (List.append_nil log).symm, fun _ h => absurd h List.not_mem_nil⟩

theorem Emits.perform {effect : ε} (h : P effect) : Emits P (perform effect) := fun _ =>
  ⟨[effect], rfl, fun _ hmem => List.mem_singleton.mp hmem ▸ h⟩

/-- Both programs emit what is allowed. -/
theorem Emits.bind (hx : Emits P x) (hf : ∀ a, Emits P (f a)) : Emits P (x >>= f) := by
  intro log
  obtain ⟨first, hfirst, hfirstP⟩ := hx log
  obtain ⟨second, hsecond, hsecondP⟩ := hf (x.run log).1 (x.run log).2
  refine ⟨first ++ second, ?_, ?_⟩
  · show ((f (x.run log).1).run (x.run log).2).2 = log ++ (first ++ second)
    rw [hsecond, hfirst, List.append_assoc]
  · intro effect hmem
    rcases List.mem_append.mp hmem with hmem | hmem
    · exact hfirstP effect hmem
    · exact hsecondP effect hmem

theorem Emits.le (hx : Emits P x) (log : List ε) : log <+: (x.run log).2 := by
  obtain ⟨tail, htail, _⟩ := hx log
  exact ⟨tail, htail.symm⟩

/-! ### What has been run -/

/-- The program has been run between two points of a run, and it has returned a value. -/
def Ran (x : Program ε α) (since until_ : List ε) (a : α) : Prop :=
  ∃ start stop, since <+: start ∧ x.run start = (a, stop) ∧ stop <+: until_

theorem Ran.mono {since since' until_ until' : List ε} {a : α} (h : Ran x since until_ a)
    (hsince : since' <+: since) (huntil : until_ <+: until') : Ran x since' until' a := by
  obtain ⟨start, stop, hstart, hrun, hstop⟩ := h
  exact ⟨start, stop, hsince.trans hstart, hrun, hstop.trans huntil⟩

end Program

/-! ### Programs that may fail -/

/-- A program that returns a value or an error. -/
abbrev Fallible (ε E α : Type) := ExceptT E (Program ε) α

namespace Fallible

variable {ε E α β : Type} {x : Fallible ε E α} {f : α → Fallible ε E β} {log log' : List ε}

@[simp] theorem run_pure (a : α) : (pure a : Fallible ε E α).run.run log = (.ok a, log) := rfl

@[simp] theorem run_lift (x : Program ε α) :
    (liftM x : Fallible ε E α).run.run log = (.ok (x.run log).1, (x.run log).2) := rfl

@[simp] theorem run_liftExcept (r : Except E α) :
    (liftExcept r : Fallible ε E α).run.run log = (r, log) := by
  cases r <;> rfl

theorem run_lift_eq_ok {x : Program ε α} {a : α}
    (h : (liftM x : Fallible ε E α).run.run log = (.ok a, log')) : x.run log = (a, log') := by
  rw [run_lift] at h
  injection h with hvalue hlog
  exact Prod.ext (Except.ok.inj hvalue) hlog

/-- The first program has succeeded. -/
theorem run_bind_ok {a : α} (h : x.run.run log = (.ok a, log')) :
    (x >>= f).run.run log = (f a).run.run log' := by
  show (match (x.run.run log).1 with
    | .ok a => f a
    | .error e => pure (.error e) : Program ε (Except E β)).run (x.run.run log).2 = _
  rw [h]
  rfl

/-- The first program has failed. -/
theorem run_bind_error {e : E} (h : x.run.run log = (.error e, log')) :
    (x >>= f).run.run log = (.error e, log') := by
  show (match (x.run.run log).1 with
    | .ok a => f a
    | .error e => pure (.error e) : Program ε (Except E β)).run (x.run.run log).2 = _
  rw [h]
  rfl

/-- A program that returns runs its second part. -/
theorem run_bind_eq_ok {b : β} (h : (x >>= f).run.run log = (.ok b, log')) :
    ∃ a mid, x.run.run log = (.ok a, mid) ∧ (f a).run.run mid = (.ok b, log') := by
  rcases hx : x.run.run log with ⟨e | a, mid⟩
  · rw [run_bind_error hx] at h
    cases h
  · exact ⟨a, mid, rfl, by rw [← run_bind_ok hx, h]⟩

variable {P : ε → Prop}

theorem emits_pure (a : α) : Program.Emits P (pure a : Fallible ε E α).run := Program.Emits.pure _

theorem emits_throw (e : E) : Program.Emits P (throw e : Fallible ε E α).run := Program.Emits.pure _

theorem emits_liftExcept (r : Except E α) :
    Program.Emits P (liftExcept r : Fallible ε E α).run := by
  intro log
  refine ⟨[], ?_, fun _ h => absurd h List.not_mem_nil⟩
  rw [run_liftExcept, List.append_nil]

/-- A program that cannot fail emits what it does. -/
theorem emits_lift {x : Program ε α} (h : Program.Emits P x) :
    Program.Emits P (liftM x : Fallible ε E α).run := h

/-- Both programs emit what is allowed. -/
theorem emits_bind (hx : Program.Emits P x.run) (hf : ∀ a, Program.Emits P (f a).run) :
    Program.Emits P (x >>= f).run := by
  intro log
  obtain ⟨first, hfirst, hfirstP⟩ := hx log
  rcases hrun : x.run.run log with ⟨e | a, mid⟩
  · rw [run_bind_error hrun]
    exact ⟨first, by rw [← hfirst, hrun], hfirstP⟩
  · rw [run_bind_ok hrun]
    obtain ⟨second, hsecond, hsecondP⟩ := hf a mid
    have hmid : mid = log ++ first := by rw [← hfirst, hrun]
    refine ⟨first ++ second, by rw [hsecond, hmid, List.append_assoc], fun effect hmem => ?_⟩
    exact (List.mem_append.mp hmem).elim (hfirstP effect) (hsecondP effect)

/-! ### What a program that may fail does -/

/-- The program adds effects that meet `P`, at most `n` of them counted, and a value that it returns
meets `Q`. -/
def Does (P : ε → Prop) (counted : ε → Bool) (n : ℕ) (Q : α → Prop) (x : Fallible ε E α) : Prop :=
  ∀ log, ∃ tail, (x.run.run log).2 = log ++ tail ∧ (∀ effect ∈ tail, P effect) ∧
    tail.countP counted ≤ n ∧ ∀ a, (x.run.run log).1 = .ok a → Q a

variable {counted : ε → Bool} {n m : ℕ} {Q Q' : α → Prop} {R : β → Prop}

theorem Does.mono (h : Does P counted n Q x) (hle : n ≤ m) (hQ : ∀ a, Q a → Q' a) :
    Does P counted m Q' x := by
  intro log
  obtain ⟨tail, htail, hP, hcount, hvalue⟩ := h log
  exact ⟨tail, htail, hP, Nat.le_trans hcount hle, fun a ha => hQ a (hvalue a ha)⟩

theorem does_of_run {r : Except E α} (hrun : ∀ log, x.run.run log = (r, log))
    (h : ∀ a, r = .ok a → Q a) : Does P counted 0 Q x := by
  intro log
  rw [hrun log]
  exact ⟨[], (List.append_nil log).symm, List.forall_mem_nil _, Nat.le_refl _, h⟩

theorem does_pure {a : α} (h : Q a) : Does P counted 0 Q (pure a : Fallible ε E α) :=
  does_of_run (fun _ => rfl) fun _ heq => Except.ok.inj heq ▸ h

theorem does_throw (e : E) : Does P counted 0 Q (throw e : Fallible ε E α) :=
  does_of_run (fun _ => rfl) fun _ heq => nomatch heq

theorem does_liftExcept {r : Except E α} (h : ∀ a, r = .ok a → Q a) :
    Does P counted 0 Q (liftExcept r : Fallible ε E α) :=
  does_of_run (fun _ => run_liftExcept r) h

theorem does_history : Does P counted 0 (fun _ => True)
    (liftM (Program.history : Program ε (List ε)) : Fallible ε E (List ε)) := by
  intro log
  exact ⟨[], (List.append_nil log).symm, List.forall_mem_nil _, Nat.le_refl _, fun _ _ => trivial⟩

/-- An effect counts if it is one of those that count. -/
theorem does_perform {effect : ε} (h : P effect) :
    Does P counted (if counted effect then 1 else 0) (fun _ => True)
      (liftM (Program.perform effect) : Fallible ε E Unit) := by
  intro log
  refine ⟨[effect], rfl, fun _ hmem => List.mem_singleton.mp hmem ▸ h, ?_, fun _ _ => trivial⟩
  exact Nat.le_of_eq List.countP_singleton

/-- One program after the other: what the first one returns is known to the second one. -/
theorem does_bind (hx : Does P counted n Q x) (hf : ∀ a, Q a → Does P counted m R (f a)) :
    Does P counted (n + m) R (x >>= f) := by
  intro log
  obtain ⟨first, hfirst, hfirstP, hfirstCount, hvalue⟩ := hx log
  -- the first program fails, or returns what the second one goes on with
  rcases hrun : x.run.run log with ⟨e | a, mid⟩
  · rw [hrun] at hfirst
    rw [run_bind_error hrun]
    exact ⟨first, hfirst, hfirstP, Nat.le_trans hfirstCount (Nat.le_add_right n m),
      fun _ heq => nomatch heq⟩
  · rw [hrun] at hfirst hvalue
    have hmid : mid = log ++ first := hfirst
    obtain ⟨second, hsecond, hsecondP, hsecondCount, hresult⟩ := hf a (hvalue a rfl) mid
    rw [run_bind_ok hrun]
    refine ⟨first ++ second, ?_, ?_, ?_, hresult⟩
    · rw [hsecond, hmid, List.append_assoc]
    · intro effect hmem
      exact (List.mem_append.mp hmem).elim (hfirstP effect) (hsecondP effect)
    · rw [List.countP_append]
      exact Nat.add_le_add hfirstCount hsecondCount

/-- Nothing is counted in the second program. -/
theorem does_bind_left (hx : Does P counted n Q x) (hf : ∀ a, Q a → Does P counted 0 R (f a)) :
    Does P counted n R (x >>= f) :=
  does_bind hx hf

theorem does_bind_right (hx : Does P counted 0 Q x) (hf : ∀ a, Q a → Does P counted n R (f a)) :
    Does P counted n R (x >>= f) := by
  have hboth := does_bind hx hf
  rwa [Nat.zero_add] at hboth

theorem does_liftExcept_bind {r : Except E α} (hf : ∀ a, r = .ok a → Does P counted n R (f a)) :
    Does P counted n R (liftExcept r >>= f) :=
  does_bind_right (does_liftExcept fun _ h => h) hf

end Fallible

end Effects
