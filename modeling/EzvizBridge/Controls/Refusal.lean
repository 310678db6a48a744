import EzvizBridge.Controls.Freshness

/-!
# A refused session and stale values

A cell, watched for the last word of EZVIZ about the session: refused, after a fetch that has failed
with `reauth_required`, until a fetch succeeds. `fallback` looks only at the category of the failure
it is called with, so a get that fails for another reason meanwhile is answered with the last good
value.
-/

namespace EzvizBridge

namespace Controls

variable {α : Type} {lifetimes : Lifetimes} {s s' : State α} {event : Event α}

/-- A fetch has failed with `reauth_required`. -/
def Event.refuses : Event α → Bool
  | .fetched _ (.error error) => error.diagnosticCode = "reauth_required"
  | _ => false

/-- A cell, and whether the session is refused. -/
structure Watched (α : Type) where
  state : State α
  refused : Bool := false
  deriving DecidableEq

/-- One step of a cell that is watched. -/
def watch (lifetimes : Lifetimes) (w : Watched α) (event : Event α) : Option (Watched α) :=
  (step lifetimes w.state event).map fun state =>
    { state
      refused :=
        match event with
        | .fetched _ (.ok _) => false
        | _ => w.refused || event.refuses }

/-- There is a last good value that is not too old. -/
def State.usable (lifetimes : Lifetimes) (s : State α) : Bool :=
  s.cell.good.any fun good => s.clock - good.at_ ≤ lifetimes.staleFor

/-- An unforced get is about to fall back for another reason than `reauth_required`: its deadline
has passed, or the failure it has found or met is another one. -/
def State.evades (s : State α) : Event α → Bool
  | .timeout i =>
    match s.calls[i]? with
    | some ⟨.get false _, _, .waiting⟩ => true
    | _ => false
  | .lock i =>
    match s.calls[i]? with
    | some ⟨.get false deadline, _, .waiting⟩ =>
      match s.cell.look false deadline s.clock with
      | .late => true
      | .failure category => category ≠ "reauth_required"
      | _ => false
    | _ => false
  | .counted i =>
    match s.calls[i]? with
    | some ⟨.get false _, _, .recording category⟩ => category ≠ "reauth_required"
    | _ => false
  | _ => false

/-- The get has settled on a stale value and has not returned yet. -/
def Phase.lingers : Phase α → Bool
  | .leaving _ _ => true
  | _ => false

/-- While the session is refused and there is a last good value, no unforced get falls back for
another reason; and the session is refused at a moment when no get is about to return a stale
value. -/
def Unmasked (lifetimes : Lifetimes) (w : Watched α) (event : Event α) : Prop :=
  (w.refused = true → w.state.usable lifetimes = true → w.state.evades event = false) ∧
    (event.refuses = true → ∀ call ∈ w.state.calls, call.phase.lingers = false)

instance (lifetimes : Lifetimes) (w : Watched α) (event : Event α) :
    Decidable (Unmasked lifetimes w event) :=
  inferInstanceAs (Decidable (_ ∧ _))

/-- No get is about to return a stale value while the session is refused. -/
def Honest (w : Watched α) : Prop :=
  w.refused = true → ∀ (i : ℕ) call, w.state.calls[i]? = some call → call.phase.lingers = false

section

variable {i : ℕ} {call : Call α} {phase : Phase α} {cell : TtlCell α} {holder : Option ℕ}
  {fetches : List (Fetch α)}

/-- A get that settles on a stale value falls back for another reason than `reauth_required`, and
there is a last good value. -/
theorem Moves.evades (h : Moves lifetimes s i event call phase cell holder fetches)
    (hi : s.calls[i]? = some call) (hlingers : phase.lingers = true) :
    s.usable lifetimes = true ∧ s.evades event = true := by
  have husable : ∀ good, s.cell.good = some good → s.clock - good.at_ ≤ lifetimes.staleFor →
      s.usable lifetimes = true := by
    intro good hgood hage
    rw [State.usable, hgood]
    exact decide_eq_true hage
  cases h with
  | aged hcause hgood hcategory hage =>
    refine ⟨husable _ hgood hage, ?_⟩
    rcases hcause with ⟨rfl, -⟩ | ⟨rfl, -, ⟨-, -, -, hlook⟩ | ⟨-, hlook, -⟩⟩
    · simp only [State.evades, hi]
    · simp only [State.evades, hi, hlook]
    · simp only [State.evades, hi, hlook]
      exact decide_eq_true hcategory
  | recordedStale hgood hcategory hage =>
    refine ⟨husable _ hgood hage, ?_⟩
    simp only [State.evades, hi]
    exact decide_eq_true hcategory
  | _ => exact nomatch hlingers

/-- A stale value is returned by a get that had settled on it. -/
theorem Moves.lingers (h : Moves lifetimes s i event call phase cell holder fetches)
    {settled at_ : Stamp} {v : Stamped α} (hphase : phase = .returned settled at_ (.stale v)) :
    call.phase.lingers = true := by
  cases h with
  | left => rfl
  | hit => exact nomatch (Phase.returned.inj hphase).2.2
  | missed => exact nomatch (Phase.returned.inj hphase).2.2
  | succeeded => exact nomatch (Phase.returned.inj hphase).2.2
  | recorded => exact nomatch (Phase.returned.inj hphase).2.2
  | aged => exact nomatch hphase
  | recordedStale => exact nomatch hphase
  | begun => exact nomatch hphase
  | emptied => exact nomatch hphase
  | failed error => exact nomatch hphase
  | cleared => exact nomatch hphase
  | cancelled => exact nomatch hphase

end

variable {w w' : Watched α}

theorem watch_cases (h : watch lifetimes w event = some w') :
    step lifetimes w.state event = some w'.state ∧
      (w'.refused = true → w.refused = true ∨ event.refuses = true) := by
  obtain ⟨state, hs, rfl⟩ := Option.map_eq_some_iff.mp h
  refine ⟨hs, fun hrefused => ?_⟩
  cases event with
  | fetched i result =>
    cases result with
    | ok value => exact nomatch hrefused
    | error error => exact Bool.or_eq_true_iff.mp hrefused
  | _ => exact Bool.or_eq_true_iff.mp hrefused

theorem Honest.step (h : Honest w) (hok : Unmasked lifetimes w event)
    (hs : watch lifetimes w event = some w') : Honest w' := by
  obtain ⟨hstep, hrefused⟩ := watch_cases hs
  intro hrefused' i call hi
  -- no get lingers in the state before: it was refused already, or this step refuses it
  have hbefore : ∀ (j : ℕ) found, w.state.calls[j]? = some found → found.phase.lingers = false := by
    intro j found hj
    rcases hrefused hrefused' with hrefused | hevent
    · exact h hrefused j found hj
    · exact hok.2 hevent found (List.mem_of_getElem? hj)
  obtain ⟨-, ⟨duration, -, heq⟩ | ⟨method, -, heq⟩ | ⟨j, moved, phase, hm⟩⟩ := step_cases hstep
  · rw [heq] at hi
    exact hbefore i call hi
  · rw [heq] at hi
    rcases Roster.of_concat_eq_some hi with ⟨-, rfl⟩ | ⟨-, hold⟩
    · rfl
    · exact hbefore i call hold
  · rcases hm.cases hi with ⟨-, rfl⟩ | ⟨-, hold⟩
    · rw [Bool.eq_false_iff]
      intro hlingers
      obtain ⟨husable, hevades⟩ := hm.moves.evades hm.before hlingers
      rcases hrefused hrefused' with hrefused | hevent
      · exact nomatch (hok.1 hrefused husable).symm.trans hevades
      · -- the end of a fetch is no fallback
        cases event with
        | fetched i result => exact nomatch hevades
        | _ => exact nomatch hevent
    · exact hbefore i call hold

/-- A run in which no unforced get falls back for another reason while the session is refused and
there is a last good value: in every step after the refusal, until a fetch succeeds, no get returns
a stale value. -/
theorem refusal_not_masked {clock : ℕ} {events : List (Event α)}
    (hok : EventSystem.Steps (watch lifetimes) (Unmasked lifetimes) { state := { clock } }
      (events ++ [event]))
    (hrun : EventSystem.run (watch lifetimes) { state := { clock } } events = some ⟨s, true⟩)
    (hs : step lifetimes s event = some s') {i : ℕ} {call call' : Call α} {settled at_ : Stamp}
    {v : Stamped α} (hi : s.calls[i]? = some call) (hi' : s'.calls[i]? = some call')
    (hstale : call'.phase = .returned settled at_ (.stale v)) : call = call' := by
  have hhonest : Honest (⟨s, true⟩ : Watched α) := by
    refine EventSystem.run_invariant Honest (fun _ _ _ h hok hs => h.step hok hs) ?_
      (hok.concat hrun).1 hrun
    intro hrefused
    exact nomatch hrefused
  obtain ⟨-, ⟨duration, -, rfl⟩ | ⟨method, -, rfl⟩ | ⟨j, moved, phase, hm⟩⟩ := step_cases hs
  · exact Option.some.inj (hi.symm.trans hi')
  · exact Option.some.inj ((Roster.concat_of_eq_some hi).symm.trans hi')
  · rcases hm.cases hi' with ⟨rfl, rfl⟩ | ⟨-, hold⟩
    · obtain rfl := Option.some.inj (hi.symm.trans hm.before)
      have hlingers := hm.moves.lingers hstale
      exact nomatch (hhonest rfl i call hi).symm.trans hlingers
    · exact Option.some.inj (hi.symm.trans hold)

def sampleRefusal : List (Event ℕ) :=
  [.call (.get false 15), .lock 0, .fetched 0 (.ok 7), .tick 61, .call (.get false 76), .lock 1,
    .fetched 1 (.error .reauthRequired), .counted 1, .call (.get false 76)]

theorem refusal_not_masked_sample :
    ∃ s s', EventSystem.run (watch sampleLifetimes) { state := {} } sampleRefusal = some ⟨s, true⟩ ∧
      step sampleLifetimes s (.lock 2) = some s' ∧
      ∀ call call' settled at_ v, s.calls[2]? = some call → s'.calls[2]? = some call' →
        call'.phase = .returned settled at_ (.stale v) → call = call' := by
  have hok : EventSystem.Steps (watch sampleLifetimes) (Unmasked sampleLifetimes) { state := {} }
      (sampleRefusal ++ [.lock 2]) := by
    decide +kernel
  have hsome : ∃ s s', EventSystem.run (watch sampleLifetimes) { state := {} } sampleRefusal =
      some ⟨s, true⟩ ∧ step sampleLifetimes s (.lock 2) = some s' := ⟨_, _, rfl, rfl⟩
  obtain ⟨s, s', hrun, hs⟩ := hsome
  exact ⟨s, s', hrun, hs, fun _ _ _ _ _ hi hi' hstale =>
    refusal_not_masked hok hrun hs hi hi' hstale⟩

/-- The session is refused, and thirty-one seconds later a get whose own fetch fails otherwise
returns the value that is ninety-two seconds old. -/
theorem stale_while_refused :
    ∃ s call, EventSystem.run (watch sampleLifetimes) { state := {} }
        [.call (.get false 15), .lock 0, .fetched 0 (.ok 7), .tick 61,
          .call (.get false 76), .lock 1, .fetched 1 (.error .reauthRequired), .counted 1, .tick 31,
          .call (.get false 107), .lock 2, .fetched 2 (.error (.upstream "HTTP 500")), .counted 2,
          .counted 2] = some ⟨s, true⟩ ∧
      s.calls[2]? = some call ∧ call.phase = .returned ⟨12, 92⟩ ⟨13, 92⟩ (.stale ⟨7, 0⟩) :=
  ⟨_, _, rfl, rfl, rfl⟩

end Controls

end EzvizBridge
