import EzvizBridge.SceneTrove.Day

/-!
# What the ledger of a day stands for

`pull_day` runs again and again over one destination, with any records, any limits and any replies,
and may die at any step. The history of these runs remembers every call of `pull` with its outcome
and, for every file that was renamed into the destination, the interval it was pulled for. `Sound`
is what the ledger promises about it:

* a clip that is done was imported, or overwritten on the card, or failed under three keys;
* a run makes no more calls than it may, and at most one for each clip;
* a key is used again only if the call before has left its recording running or unknown.

This holds in every run that is `Careful` (`ledger_sound`): no list has an interval twice, a file
that `already_imported` finds is the file of that interval, and the counter of wakes does not
overflow. The scan goes by the start of the interval alone, so it also finds the file of another
clip that starts in the same second (`clip_skipped`).
-/

namespace EzvizBridge

namespace SceneTrove

open Recordings

/-! ### Histories -/

/-- A call of `pull`. -/
structure Call where
  run : ℕ
  /-- `max_clips` of the run -/
  limit : ℕ
  record : Record
  /-- the end that was asked for -/
  stop : ℤ
  attempt : ℕ
  wake : ℕ
  /-- none if the process died before it was over -/
  outcome : Option PullOutcome := none
  deriving DecidableEq, Repr

/-- The key of the call. -/
def Call.key (camera : String) (self : Call) : String :=
  keyOf (clipOf camera self.record) self.stop self.attempt self.wake

/-- The runs over a destination. -/
structure History where
  day : Day := {}
  runs : ℕ := 0
  /-- the newest first -/
  calls : List Call := []
  /-- the interval that a file was pulled for -/
  origins : List (MediaName × Record) := []

/-- What can happen next. -/
inductive HistoryEvent
  | own (event : DayEvent)
  | reply (reply : Reply)
  deriving DecidableEq, Repr

namespace History

/-- The names in the destination. -/
def names (self : History) : List MediaName := self.day.consumer.destination.map Prod.fst

/-- Write down what the process has done. -/
def noted (camera : String) (self : History) (event : DayEvent) (day : Day) : History :=
  match event, self.day.phase, day.phase with
  | .start _ _, _, _ => { self with day, runs := self.runs + 1 }
  | .next, _, .pulling run record attempt =>
    let call :=
      { run := self.runs
        limit := run.day.maxClips
        record
        stop := boundOf run.day record
        attempt
        wake := day.ledger.wake (clipOf camera record) }
    { self with day, calls := call :: self.calls }
  | .pull .rename, .pulling _ record _, _ =>
    match self.day.consumer.phase with
    | .downloaded _ result _ => { self with day, origins := (result.path, record) :: self.origins }
    | _ => { self with day }
  | .settle, _, _ =>
    match self.day.consumer.phase, self.calls with
    | .finished _ outcome, call :: calls =>
      { self with day, calls := { call with outcome := some outcome } :: calls }
    | _, _ => { self with day }
  | _, _, _ => { self with day }

/-- One event. The replies are whatever comes. -/
def step (sha256 : Sha256) (template : PullRequest) (self : History) :
    HistoryEvent → Option History
  | .own event =>
    (self.day.advance sha256 template event).map fun next =>
      self.noted template.camera event next.1
  | .reply reply => (self.day.receive sha256 reply).map fun next => { self with day := next.1 }

end History

/-! ### The property -/

/-- The outcomes that leave the recording running or unknown. -/
inductive PullOutcome.Open : PullOutcome → Prop
  | deadline : PullOutcome.Open .deadline
  | broken {fault} : PullOutcome.Open (.broken fault)
  /-- the bridge has answered, but with another status than that of a refused key -/
  | unserved {status} : status ≠ 400 → PullOutcome.Open (.refused status)

/-- The recording failed or was refused. -/
def Call.Failed (self : Call) : Prop :=
  (∃ m, self.outcome = some (.failed m)) ∨ ∃ status, self.outcome = some (.refused status)

/-- Why the clip of an interval may be done. -/
inductive Justified (camera : String) (s : History) (record : Record) : Prop
  | imported {name} : (name, record) ∈ s.origins → name ∈ s.names → Justified camera s record
  | overwritten {call m} : call ∈ s.calls → call.record = record → call.outcome = some (.failed m) →
      Overwritten m → Justified camera s record
  | givenUp {a b c} : a ∈ s.calls → b ∈ s.calls → c ∈ s.calls →
      a.record = record → b.record = record → c.record = record →
      a.Failed → b.Failed → c.Failed →
      a.key camera ≠ b.key camera → a.key camera ≠ c.key camera → b.key camera ≠ c.key camera →
      Justified camera s record

/-- What the ledger and the calls promise. -/
structure Sound (camera : String) (s : History) : Prop where
  done : ∀ clip ∈ s.day.ledger.done, ∃ record, clip = clipOf camera record ∧
    Justified camera s record
  limited : ∀ call ∈ s.calls, (s.calls.filter fun c => c.run = call.run).length ≤ call.limit
  once : s.calls.Pairwise fun later earlier => later.run = earlier.run →
    clipOf camera later.record ≠ clipOf camera earlier.record
  reused : s.calls.Pairwise fun later earlier => later.key camera = earlier.key camera →
    ∀ outcome, earlier.outcome = some outcome → outcome.Open

/-- The condition on the steps of a run. -/
def Careful (camera : String) (s : History) : HistoryEvent → Prop
  | .own (.start records _) => (listed records).Nodup
  -- a file that has the start of this interval in its name was pulled for it
  | .own .next => ∀ run record records, s.day.phase = .looping run →
      run.records = record :: records → clipOf camera record ∉ s.day.ledger.done →
      alreadyImported s.day.consumer.destination record.start = true →
      ∃ name, (name, record) ∈ s.origins ∧ name.stamp = record.start
  | .own .settle => ∀ run record attempt, s.day.phase = .pulling run record attempt →
      s.day.ledger.wake (clipOf camera record) + 1 < 2 ^ 32
  | _ => True

/-- Before the first run: there is no ledger. The files may come from other imports; a receipt under
a key of one of the clips was written by a pull of that clip. -/
structure Prior (camera : String) (s : History) : Prop where
  ledger : s.day.ledger = {}
  phase : s.day.phase = .idle
  calls : s.calls = []
  origins : ∀ o ∈ s.origins, o.1 ∈ s.names
  receipts : ∀ key x record stop attempt wake, (key, x) ∈ s.day.consumer.receipts →
    key = keyOf (clipOf camera record) stop attempt wake → (x.path, record) ∈ s.origins

variable {sha256 : Sha256} {template : PullRequest} {camera : String} {s s' : History}

/-! ### What one step can do -/

namespace History

/-- The call that the loop makes. -/
def callOf (camera : String) (s : History) (run : DayRun) (record : Record) : Call where
  run := s.runs
  limit := run.day.maxClips
  record := record
  stop := boundOf run.day record
  attempt := s.day.ledger.attempt (clipOf camera record)
  wake := s.day.ledger.wake (clipOf camera record)

/-- What one step can do, and what is written down. -/
inductive Moves (sha256 : Sha256) (template : PullRequest) (s : History) :
    HistoryEvent → History → Prop
  | started {records day} : (s.day.phase = .idle ∨ ∃ result, s.day.phase = .returned result) →
      Moves sha256 template s (.own (.start records day))
        { s with
          day := { s.day with
            phase := .looping { day, records := listed records, attemptsLeft := day.maxClips } }
          runs := s.runs + 1 }
  | ended {run} : s.day.phase = .looping run → Moves sha256 template s (.own .next)
      { s with day := { s.day with phase := .returned (.ok run.pulled) } }
  | skipped {run record records} : s.day.phase = .looping run → run.records = record :: records →
      Moves sha256 template s (.own .next)
        { s with day := { s.day with phase := .looping { run with records } } }
  | found {run record records} : s.day.phase = .looping run → run.records = record :: records →
      clipOf template.camera record ∉ s.day.ledger.done →
      alreadyImported s.day.consumer.destination record.start = true →
      Moves sha256 template s (.own .next)
        { s with
          day := { s.day with
            ledger := s.day.ledger.finish (clipOf template.camera record)
            phase := .looping { run with records } } }
  | called {run record records c' message} : s.day.phase = .looping run →
      run.records = record :: records → run.attemptsLeft ≠ 0 →
      clipOf template.camera record ∉ s.day.ledger.done →
      Advances sha256 s.day.consumer (.call (Day.requestOf template run.day record
        (s.day.ledger.attempt (clipOf template.camera record))
        (s.day.ledger.wake (clipOf template.camera record)))) c' message →
      Moves sha256 template s (.own .next)
        { s with
          day := { s.day with
            consumer := c'
            phase := .pulling { run with records, attemptsLeft := run.attemptsLeft - 1 } record
              (s.day.ledger.attempt (clipOf template.camera record)) }
          calls := s.callOf template.camera run record :: s.calls }
  | renamed {run record attempt r x file} : s.day.phase = .pulling run record attempt →
      s.day.consumer.phase = .downloaded r x file →
      Moves sha256 template s (.own (.pull .rename))
        { s with
          day := { s.day with
            consumer := { s.day.consumer with
              destination := Keyed.insert Prod.fst s.day.consumer.destination (x.path, file)
              phase := .renamed r x } }
          origins := (x.path, record) :: s.origins }
  | pulled {run record attempt event c' message} : s.day.phase = .pulling run record attempt →
      (∀ r, event ≠ .call r) → event ≠ .crash → event ≠ .rename →
      Advances sha256 s.day.consumer event c' message →
      Moves sha256 template s (.own (.pull event)) { s with day := { s.day with consumer := c' } }
  | settled {run record attempt r outcome call calls} : s.day.phase = .pulling run record attempt →
      s.day.consumer.phase = .finished r outcome → s.calls = call :: calls →
      Moves sha256 template s (.own .settle)
        { s with
          day := s.day.settle template run record attempt outcome
          calls := { call with outcome := some outcome } :: calls }
  | crashed : Moves sha256 template s (.own .crash)
      { s with
        day := { s.day with consumer := { s.day.consumer with phase := .idle }, phase := .idle } }
  | received {run record attempt reply c' message} : s.day.phase = .pulling run record attempt →
      Receives sha256 s.day.consumer reply c' message →
      Moves sha256 template s (.reply reply) { s with day := { s.day with consumer := c' } }

/-- **What one step can do.** -/
theorem step_cases {event : HistoryEvent} (hcalls : ∀ run record attempt,
      s.day.phase = .pulling run record attempt → s.calls ≠ [])
    (h : s.step sha256 template event = some s') : Moves sha256 template s event s' := by
  cases event with
  -- an answer of the bridge goes to the pull that waits for it
  | reply reply =>
    obtain ⟨⟨d', message⟩, hreceive, rfl⟩ := Option.map_eq_some_iff.mp h
    obtain ⟨run, record, attempt, c', hphase, rfl, hrec⟩ := Day.receive_cases hreceive
    exact .received hphase hrec
  | own event =>
    obtain ⟨⟨d', message⟩, hadvance, rfl⟩ := Option.map_eq_some_iff.mp h
    cases Day.advance_cases hadvance with
    -- the own events of the day, by what `Day.advance_cases` says of them
    | start hphase => exact .started hphase
    | ended hphase => exact .ended hphase
    | skipped hphase hrecords => exact .skipped hphase hrecords
    | found hphase hrecords _ hdone himported => exact .found hphase hrecords hdone himported
    | called hphase hrecords hleft hdone hcall => exact .called hphase hrecords hleft hdone hcall
    | @pulled run record attempt event c' message hphase hcall hcrash hpull =>
      -- the rename is the one event of a pull that the history notes
      by_cases hrename : event = .rename
      · subst hrename
        cases hpull with
        | @rename r x file hdown =>
          have hnoted : ∀ d, s.noted template.camera (.pull .rename) d =
              { s with day := d, origins := (x.path, record) :: s.origins } := by
            intro d
            simp only [noted, hphase, hdown]
          rw [hnoted]
          exact .renamed hphase hdown
      · have hnoted : s.noted template.camera (.pull event) { s.day with consumer := c' } =
            { s with day := { s.day with consumer := c' } } := by
          -- no other event of a pull is noted
          cases event <;> first | rfl | exact absurd rfl hrename
        rw [hnoted]
        exact .pulled hphase hcall hcrash hrename hpull
    | @settled run record attempt r outcome hphase hfinished =>
      -- the call that is settled is the newest one
      obtain ⟨call, calls, heq⟩ := List.exists_cons_of_ne_nil (hcalls run record attempt hphase)
      have hnoted : ∀ d, s.noted template.camera .settle d =
          { s with day := d, calls := { call with outcome := some outcome } :: calls } := by
        intro d
        simp only [noted, hfinished, heq]
      rw [hnoted]
      exact .settled hphase hfinished heq
    | crash => exact .crashed

end History

/-! ### The ledger only ever says more -/

/-- Nothing is taken back: a clip that is not done keeps its counts or raises them. -/
structure Ledger.Grows (l l' : Ledger) : Prop where
  done : ∀ clip ∈ l.done, clip ∈ l'.done
  counts : ∀ clip, clip ∈ l'.done ∨ (l.attempt clip ≤ l'.attempt clip ∧ l.wake clip ≤ l'.wake clip)

section

variable {l l' : Ledger} {clip : String} {attempt : ℕ} {verdict : Verdict}

theorem Ledger.grows_finish (l : Ledger) (clip : String) : l.Grows (l.finish clip) := by
  refine ⟨fun _ h => mem_done_finish.mpr (.inr h), fun clip' => ?_⟩
  by_cases h : clip' = clip
  · exact .inl (mem_done_finish.mpr (.inl h))
  · exact .inr ⟨(attempt_finish_of_ne h).ge, (wake_finish_of_ne h).ge⟩

/-- A failure only raises the attempts. -/
theorem Ledger.grows_failed (h : l.attempt clip ≤ attempt) : l.Grows (l.failed clip attempt) := by
  refine ⟨fun _ h => h, fun clip' => .inr ⟨?_, le_rfl⟩⟩
  by_cases heq : clip' = clip
  · rw [heq, attempt_failed_self]
    exact h
  · exact (attempt_failed_of_ne heq).ge

/-- A sleep only raises the wakes, short of the overflow. -/
theorem Ledger.grows_asleep (h : l.wake clip + 1 < 2 ^ 32) : l.Grows (l.asleep clip) := by
  refine ⟨fun _ h => h, fun clip' => .inr ⟨le_rfl, ?_⟩⟩
  by_cases heq : clip' = clip
  · rw [heq, wake_asleep_self, Nat.mod_eq_of_lt h]
    exact Nat.le_succ _
  · exact (wake_asleep_of_ne heq).ge

/-- Whatever a pull has come to, the ledger grows. -/
theorem Day.Concludes.grows (h : Day.Concludes l clip attempt verdict l')
    (hattempt : attempt = l.attempt clip) (hwake : l.wake clip + 1 < 2 ^ 32) : l.Grows l' := by
  cases h with
  | imported | overwritten | givenUp => exact l.grows_finish clip
  | failed => exact Ledger.grows_failed (hattempt ▸ Nat.le_succ attempt)
  | asleep => exact Ledger.grows_asleep hwake
  | stillRunning | stopped => exact ⟨fun _ h => h, fun _ => .inr ⟨le_rfl, le_rfl⟩⟩

end

/-- The ledger has counted the call, so that its key is not used again; or it need not. -/
inductive Call.Counted (camera : String) (l : Ledger) (call : Call) : Verdict → Prop
  | failed : call.attempt < l.attempt (clipOf camera call.record) →
      Call.Counted camera l call .failed
  | asleep : call.wake < l.wake (clipOf camera call.record) → Call.Counted camera l call .asleep
  | stillRunning : Call.Counted camera l call .stillRunning
  | stopped {error} : Call.Counted camera l call (.stopped error)

/-- What a call found out is in the ledger. -/
def Call.Told (camera : String) (l : Ledger) (call : Call) : Prop :=
  ∀ outcome, call.outcome = some outcome →
    clipOf camera call.record ∈ l.done ∨ call.Counted camera l (verdictOf outcome.result)

/-- What the ledger says about a call stays said as it grows. -/
theorem Call.Told.grows {l l' : Ledger} {call : Call} (h : call.Told camera l) (hl : l.Grows l') :
    call.Told camera l' := by
  intro outcome houtcome
  rcases h outcome houtcome with hdone | hcounted
  · exact .inl (hl.done _ hdone)
  rcases hl.counts (clipOf camera call.record) with hdone | ⟨hattempt, hwake⟩
  · exact .inl hdone
  refine .inr ?_
  -- the counters only go up, so the count that tells the call is still beyond its own
  generalize verdictOf outcome.result = verdict at *
  cases hcounted with
  | failed hlt => exact .failed (hlt.trans_le hattempt)
  | asleep hlt => exact .asleep (hlt.trans_le hwake)
  | stillRunning => exact .stillRunning
  | stopped => exact .stopped

/-- A call that has just returned is counted. -/
theorem Call.told_of_concludes {l l' : Ledger} {call : Call} {outcome : PullOutcome}
    (h : Day.Concludes l (clipOf camera call.record) call.attempt (verdictOf outcome.result) l')
    (hwake : call.wake = l.wake (clipOf camera call.record))
    (hfew : l.wake (clipOf camera call.record) + 1 < 2 ^ 32) :
    Call.Told camera l' { call with outcome := some outcome } := by
  -- by the verdict: the clip is done, or the count of the verdict is one further
  rintro _ ⟨⟩
  dsimp only
  generalize verdictOf outcome.result = verdict at *
  cases h with
  | imported | overwritten | givenUp => exact .inl (Ledger.mem_done_finish.mpr (.inl rfl))
  | failed =>
    refine .inr (.failed ?_)
    rw [Ledger.attempt_failed_self]
    exact Nat.lt_succ_self _
  | asleep =>
    refine .inr (.asleep ?_)
    -- the wake does not wrap, by the bound on it
    rw [Ledger.wake_asleep_self, Nat.mod_eq_of_lt hfew, ← hwake]
    exact Nat.lt_succ_self _
  | stillRunning => exact .inr .stillRunning
  | stopped => exact .inr .stopped

/-! ### The file of a pull -/

/-- A receipt under a key of a clip is about a file that was pulled for it. -/
def Rooted (camera : String) (origins : List (MediaName × Record))
    (receipts : List (String × PullResult)) : Prop :=
  ∀ key x record stop attempt wake, (key, x) ∈ receipts →
    key = keyOf (clipOf camera record) stop attempt wake → (x.path, record) ∈ origins

/-- The pull is under the key, and from the rename on its file is one of the interval. -/
def Pulls (origins : List (MediaName × Record)) (key : String) (record : Record) : PullPhase → Prop
  | .idle => True
  | .creating r | .polling r _ | .asking r | .releasing r _ | .fetching r _ _ | .downloaded r _ _ =>
    r.idempotencyKey = key
  | .renamed r x | .receipted r x | .acknowledging r x | .acknowledged r x | .closing r x =>
    r.idempotencyKey = key ∧ (x.path, record) ∈ origins
  | .finished _ outcome => ∀ x, outcome = .ok x → (x.path, record) ∈ origins

section

variable {origins : List (MediaName × Record)} {c c' : Consumer} {call : Call}
    {message : Option Request}

/-- The pull goes on, short of the rename. -/
theorem pulls_advances {event : PullEvent} (hroot : Rooted camera origins c.receipts)
    (hcall : ∀ r, event = .call r → r.idempotencyKey = call.key camera)
    (hpulls : (∀ r, event ≠ .call r) → Pulls origins (call.key camera) call.record c.phase)
    (hrename : event ≠ .rename) (h : Advances sha256 c event c' message) :
    Pulls origins (call.key camera) call.record c'.phase ∧ Rooted camera origins c'.receipts ∧
      c'.destination = c.destination := by
  -- one case for each way the pull goes on; only `create`, `recover` and `receipt` touch the key or
  -- the receipts
  cases h with
  | stuck => exact ⟨nofun, hroot, rfl⟩
  -- a receipt under the same key is about the same interval
  | @recover r x _ hlookup =>
    obtain ⟨hmem, -⟩ := Keyed.mem_of_lookup hlookup
    have hkey := hcall r rfl
    exact ⟨⟨hkey, hroot _ x _ _ _ _ hmem hkey⟩, hroot, rfl⟩
  | create => exact ⟨hcall _ rfl, hroot, rfl⟩
  | poll hphase =>
    -- from here on the phase says what is being pulled
    have hpull := hpulls fun _ => nofun
    rw [hphase] at hpull
    exact ⟨hpull, hroot, rfl⟩
  | deadline => exact ⟨nofun, hroot, rfl⟩
  | rename => exact absurd rfl hrename
  -- the receipt is written before the acknowledgement is sent
  | @receipt r x hphase =>
    have hpull := hpulls fun _ => nofun
    rw [hphase] at hpull
    refine ⟨hpull, ?_, rfl⟩
    intro key x' record stop attempt wake hmem hkey
    rcases Keyed.mem_insert.mp hmem with ⟨hmem, -⟩ | heq
    · exact hroot key x' record stop attempt wake hmem hkey
    · -- the new receipt: its key says which interval it is about
      obtain ⟨rfl, rfl⟩ := Prod.mk.inj heq
      obtain ⟨rfl, -⟩ := keyOf_injective (hpull.1.symm.trans hkey)
      exact hpull.2
  | acknowledge hphase =>
    have hpull := hpulls fun _ => nofun
    rw [hphase] at hpull
    exact ⟨hpull, hroot, rfl⟩
  | remove hphase =>
    have hpull := hpulls fun _ => nofun
    rw [hphase] at hpull
    refine ⟨hpull, ?_, rfl⟩
    -- fewer receipts
    intro key x record stop attempt wake hmem hkey
    exact hroot key x record stop attempt wake (Keyed.mem_remove.mp hmem).1 hkey
  | finish hphase =>
    have hpull := hpulls fun _ => nofun
    rw [hphase] at hpull
    refine ⟨?_, hroot, rfl⟩
    -- a pull that succeeds hands over the file it has renamed
    rintro _ ⟨⟩
    exact hpull.2
  | failed => exact ⟨nofun, hroot, rfl⟩
  | broken => exact ⟨nofun, hroot, rfl⟩
  | crash => exact ⟨trivial, hroot, rfl⟩

/-- An answer of the bridge does not change what is being pulled, nor the receipts, nor the files.
-/
theorem pulls_receives {reply : Reply} {key : String} {record : Record}
    (hpulls : Pulls origins key record c.phase) (h : Receives sha256 c reply c' message) :
    Pulls origins key record c'.phase ∧ c'.receipts = c.receipts ∧
      c'.destination = c.destination := by
  cases h with
  | @examine r m hphase =>
    have hkey : r.idempotencyKey = key := by
      -- the first answer, or one to a poll
      rcases hphase with heq | heq <;> rw [heq] at hpulls <;> exact hpulls
    refine ⟨?_, rfl, rfl⟩
    -- by the state of the job in the answer
    unfold SceneTrove.examine
    split
    · exact hkey
    · exact hkey
    · exact hkey
    · split
      · exact fun _ heq => nomatch heq
      · exact hkey
  | download hphase =>
    rw [hphase] at hpulls
    exact ⟨hpulls, rfl, rfl⟩
  | acknowledged hphase =>
    rw [hphase] at hpulls
    exact ⟨hpulls, rfl, rfl⟩
  -- these answers end the pull with an error
  | refused | released | noMedia | mismatch | unacknowledged =>
    exact ⟨nofun, rfl, rfl⟩

end

/-! ### The invariant -/

/-- The loop: what is left of the list, and of the calls that the run may make. -/
structure Progress (s : History) (run : DayRun) : Prop where
  nodup : run.records.Nodup
  ahead : ∀ call ∈ s.calls, call.run = s.runs → call.record ∉ run.records
  limit : ∀ call ∈ s.calls, call.run = s.runs → call.limit = run.day.maxClips
  count : (s.calls.filter fun c => c.run = s.runs).length + run.attemptsLeft = run.day.maxClips

/-- The call that is going on. -/
structure Pulling (camera : String) (s : History) (call : Call) : Prop where
  unsettled : call.outcome = none
  undone : clipOf camera call.record ∉ s.day.ledger.done
  attempt : call.attempt = s.day.ledger.attempt (clipOf camera call.record)
  wake : call.wake = s.day.ledger.wake (clipOf camera call.record)
  pulls : Pulls s.origins (call.key camera) call.record s.day.consumer.phase

/-- What the phase says. -/
def Current (camera : String) (s : History) : DayPhase → Prop
  | .idle | .returned _ => True
  | .looping run => Progress s run
  | .pulling run record attempt => Progress s run ∧ ∃ call calls, s.calls = call :: calls ∧
      call.record = record ∧ call.attempt = attempt ∧ Pulling camera s call

/-- The invariant of the history. -/
structure Account (camera : String) (s : History) : Prop extends Sound camera s where
  told : ∀ call ∈ s.calls, call.Told camera s.day.ledger
  tries : ∀ record n, n < s.day.ledger.attempt (clipOf camera record) →
    ∃ call ∈ s.calls, call.record = record ∧ call.attempt = n ∧ call.Failed
  past : ∀ call ∈ s.calls, call.run ≤ s.runs
  origins : ∀ o ∈ s.origins, o.1 ∈ s.names
  receipts : Rooted camera s.origins s.day.consumer.receipts
  current : Current camera s s.day.phase

/-- Before the first run nothing is done, called or attempted, so every clause is empty. -/
theorem Prior.account (h : Prior camera s) : Account camera s where
  done clip hclip := by
    rw [h.ledger] at hclip
    exact absurd hclip List.not_mem_nil
  limited call hcall := by
    rw [h.calls] at hcall
    exact absurd hcall List.not_mem_nil
  once := h.calls ▸ List.Pairwise.nil
  reused := h.calls ▸ List.Pairwise.nil
  told call hcall := by
    rw [h.calls] at hcall
    exact absurd hcall List.not_mem_nil
  tries record n hn := by
    rw [h.ledger] at hn
    exact absurd hn (Nat.not_lt_zero n)
  past call hcall := by
    rw [h.calls] at hcall
    exact absurd hcall List.not_mem_nil
  origins := h.origins
  receipts := h.receipts
  current := by
    rw [h.phase]
    trivial

theorem Call.Failed.over {call : Call} (h : call.Failed) : call.outcome ≠ none := by
  rcases h with ⟨m, hm⟩ | ⟨status, hm⟩ <;> exact hm ▸ Option.some_ne_none _

/-- What justified a clip still does when more has happened. -/
theorem Justified.mono {record : Record} (h : Justified camera s record)
    (hcalls : ∀ call ∈ s.calls, call.outcome ≠ none → call ∈ s'.calls)
    (horigins : ∀ o ∈ s.origins, o ∈ s'.origins) (hnames : ∀ name ∈ s.names, name ∈ s'.names) :
    Justified camera s' record := by
  -- a failed call is over, and those stay as they were
  have hfailed : ∀ call ∈ s.calls, call.Failed → call ∈ s'.calls :=
    fun call hcall hfailed => hcalls call hcall hfailed.over
  cases h with
  | imported horigin hname => exact .imported (horigins _ horigin) (hnames _ hname)
  | @overwritten call m hcall hrecord houtcome hcode =>
    exact .overwritten (hcalls call hcall (houtcome ▸ Option.some_ne_none _)) hrecord houtcome hcode
  -- the three failed calls are all still there
  | givenUp ha hb hc hra hrb hrc hfa hfb hfc hab hac hbc =>
    exact .givenUp (hfailed _ ha hfa) (hfailed _ hb hfb) (hfailed _ hc hfc) hra hrb hrc hfa hfb hfc
      hab hac hbc

/-- A step that touches neither the ledger nor the calls. -/
theorem Account.moved (h : Account camera s) (hledger : s'.day.ledger = s.day.ledger)
    (hcalls : s'.calls = s.calls) (horigins : ∀ o ∈ s.origins, o ∈ s'.origins)
    (hnames : ∀ name ∈ s.names, name ∈ s'.names) (hnew : ∀ o ∈ s'.origins, o.1 ∈ s'.names)
    (hruns : s.runs ≤ s'.runs) (hreceipts : Rooted camera s'.origins s'.day.consumer.receipts)
    -- the clauses on the ledger and the calls are those of before
    (hcurrent : Current camera s' s'.day.phase) : Account camera s' where
  done clip hclip := by
    rw [hledger] at hclip
    obtain ⟨record, rfl, hjust⟩ := h.done clip hclip
    exact ⟨record, rfl, hjust.mono (fun call hcall _ => hcalls ▸ hcall) horigins hnames⟩
  limited := hcalls ▸ h.limited
  once := hcalls ▸ h.once
  reused := hcalls ▸ h.reused
  told := hcalls ▸ hledger ▸ h.told
  tries := hcalls ▸ hledger ▸ h.tries
  past call hcall := (h.past call (hcalls ▸ hcall)).trans hruns
  origins := hnew
  receipts := hreceipts
  current := hcurrent

/-! ### Steps -/

/-- The loop passes a record without a call. -/
theorem Progress.tail {run : DayRun} {record : Record} {records : List Record} (h : Progress s run)
    (hrecords : run.records = record :: records) : Progress s { run with records } where
  nodup := (List.nodup_cons.mp (hrecords ▸ h.nodup)).2
  ahead call hcall hrun hmem := h.ahead call hcall hrun (hrecords ▸ List.mem_cons_of_mem _ hmem)
  limit := h.limit
  count := h.count

/-- A clip that leaves the counts has no failed attempts to account for. -/
theorem Account.tries_finish (h : Account camera s) (clip : String) (record : Record) (n : ℕ)
    (hn : n < (s.day.ledger.finish clip).attempt (clipOf camera record)) :
    ∃ call ∈ s.calls, call.record = record ∧ call.attempt = n ∧ call.Failed := by
  by_cases heq : clipOf camera record = clip
  · rw [heq, Ledger.attempt_finish_self] at hn
    exact absurd hn (Nat.not_lt_zero n)
  · rw [Ledger.attempt_finish_of_ne heq] at hn
    exact h.tries record n hn

/-- `already_imported` has found a file of the interval. -/
theorem account_found {run : DayRun} {record : Record} {records : List Record} {name : MediaName}
    (h : Account camera s) (hphase : s.day.phase = .looping run)
    (hrecords : run.records = record :: records) (horigin : (name, record) ∈ s.origins) :
    Account camera { s with
      day := { s.day with
        ledger := s.day.ledger.finish (clipOf camera record)
        phase := .looping { run with records } } } where
  done clip hclip := by
    -- either it is the clip that was found, or it was done before
    rcases Ledger.mem_done_finish.mp hclip with rfl | hclip
    · exact ⟨record, rfl, .imported horigin (h.origins _ horigin)⟩
    · obtain ⟨record', rfl, hjust⟩ := h.done clip hclip
      exact ⟨record', rfl, hjust.mono (fun _ hcall _ => hcall)
        (fun _ ho => ho) fun _ hname => hname⟩
  limited := h.limited
  once := h.once
  reused := h.reused
  -- the calls that were told stay told, as the ledger only grows
  told call hcall := (h.told call hcall).grows (s.day.ledger.grows_finish _)
  tries := h.tries_finish _
  past := h.past
  origins := h.origins
  receipts := h.receipts
  current := by
    have hcurrent := h.current
    rw [hphase] at hcurrent
    -- the loop has passed the record without using a call up
    obtain ⟨hnodup, hahead, hlimit, hcount⟩ := Progress.tail hcurrent hrecords
    exact ⟨hnodup, hahead, hlimit, hcount⟩

/-- The key of a clip that is not done was used before only by calls that left the recording
running or unknown. -/
theorem Account.open_of_key {record : Record} {stop : ℤ} {call : Call} {outcome : PullOutcome}
    (h : Account camera s) (hcall : call ∈ s.calls)
    (hundone : clipOf camera record ∉ s.day.ledger.done)
    (hkey : keyOf (clipOf camera record) stop (s.day.ledger.attempt (clipOf camera record))
      (s.day.ledger.wake (clipOf camera record)) = call.key camera)
    (houtcome : call.outcome = some outcome) : outcome.Open := by
  -- equal keys are of one clip, one attempt and one wake
  obtain ⟨rfl, hattempt, hwake⟩ := keyOf_injective hkey
  rcases h.told call hcall outcome houtcome with hdone | hcounted
  · exact absurd hdone hundone
  -- the outcome of that call did not move the counters, so the verdict left the clip open
  have hmeans := verdict_means outcome
  generalize verdictOf outcome.result = verdict at *
  cases hcounted with
  | failed hlt => exact absurd hattempt hlt.ne'
  | asleep hlt => exact absurd hwake hlt.ne'
  | stillRunning =>
    cases hmeans
    exact .deadline
  | stopped =>
    cases hmeans with
    | unserved hne => exact .unserved hne
    | broken => exact .broken

/-- A pull is called. -/
theorem account_called {run : DayRun} {record : Record} {records : List Record} {c' : Consumer}
    {message : Option Request} (h : Account template.camera s) (hphase : s.day.phase = .looping run)
    (hrecords : run.records = record :: records) (hleft : run.attemptsLeft ≠ 0)
    (hundone : clipOf template.camera record ∉ s.day.ledger.done)
    (hcall : Advances sha256 s.day.consumer (.call (Day.requestOf template run.day record
      (s.day.ledger.attempt (clipOf template.camera record))
      (s.day.ledger.wake (clipOf template.camera record)))) c' message) :
    Account template.camera { s with
      day := { s.day with
        consumer := c'
        phase := .pulling { run with records, attemptsLeft := run.attemptsLeft - 1 } record
          (s.day.ledger.attempt (clipOf template.camera record)) }
      calls := s.callOf template.camera run record :: s.calls } := by
  -- the loop stands in front of this record, and a call is left
  have hprogress := h.current
  rw [hphase] at hprogress
  obtain ⟨hnodup, hahead, hlimit, hcount⟩ := hprogress
  rw [hrecords] at hnodup hahead
  -- the call that is noted: this record, with the counters the ledger has now
  set call := s.callOf template.camera run record with hdef
  have hkeys : ∀ r, PullEvent.call (Day.requestOf template run.day record
      (s.day.ledger.attempt (clipOf template.camera record))
      (s.day.ledger.wake (clipOf template.camera record))) = .call r →
        r.idempotencyKey = call.key template.camera := by
    rintro _ ⟨⟩
    rfl
  -- the consumer starts with the key of this call
  obtain ⟨hpulls, hroot, hdestination⟩ := pulls_advances h.receipts hkeys
    (fun hne => absurd rfl (hne _)) nofun hcall
  have hnames : ∀ name ∈ s.names, name ∈ c'.destination.map Prod.fst := by
    rw [hdestination]
    exact fun _ hname => hname
  -- the calls of this run are one more
  have hnow : ((call :: s.calls).filter fun c => c.run = s.runs).length =
      (s.calls.filter fun c => c.run = s.runs).length + 1 := by
    rw [List.filter_cons_of_pos (by simp [hdef, History.callOf]), List.length_cons]
  have hmax : ((call :: s.calls).filter fun c => c.run = s.runs).length ≤ run.day.maxClips := by
    omega
  refine
    { done := ?_, limited := ?_, once := ?_, reused := ?_, told := ?_, tries := ?_, past := ?_,
      origins := ?_, receipts := hroot, current := ?_ }
  · intro clip hclip
    obtain ⟨record', rfl, hjust⟩ := h.done clip hclip
    exact ⟨record', rfl,
      hjust.mono (fun _ hc _ => List.mem_cons_of_mem _ hc) (fun _ ho => ho) hnames⟩
  · -- the calls of this run are one more, and there was one left
    intro c hc
    rcases List.mem_cons.mp hc with rfl | hc
    · exact hmax
    · by_cases hrun : c.run = s.runs
      · rw [hlimit c hc hrun, hrun]
        exact hmax
      · have hother : call.run ≠ c.run := fun heq => hrun heq.symm
        rw [List.filter_cons_of_neg (by simpa using hother)]
        exact h.limited c hc
  · -- the earlier calls of this run were for records that the loop has passed
    refine List.pairwise_cons.mpr ⟨fun c hc hrun heq => ?_, h.once⟩
    have hrecord : record = c.record := clipOf_injective heq
    exact hahead c hc hrun.symm (hrecord ▸ List.mem_cons_self)
  -- an earlier call under this key has left the recording open
  · exact List.pairwise_cons.mpr ⟨fun c hc hkey _ ho => h.open_of_key hc hundone hkey ho, h.reused⟩
  -- the new call has no outcome yet
  · intro c hc
    rcases List.mem_cons.mp hc with rfl | hc
    · exact fun _ heq => nomatch heq
    · exact h.told c hc
  · intro record' n hn
    obtain ⟨c, hc, hfailed⟩ := h.tries record' n hn
    exact ⟨c, List.mem_cons_of_mem _ hc, hfailed⟩
  · intro c hc
    rcases List.mem_cons.mp hc with rfl | hc
    · exact le_rfl
    · exact h.past c hc
  · exact fun o ho => hnames _ (h.origins o ho)
  -- the loop goes on behind the record, and the pull is for this call
  · refine ⟨⟨(List.nodup_cons.mp hnodup).2, ?_, ?_, ?_⟩, call, s.calls, rfl, rfl, rfl,
      rfl, hundone, rfl, rfl, hpulls⟩
    · intro c hc hrun hmem
      rcases List.mem_cons.mp hc with rfl | hc
      · exact (List.nodup_cons.mp hnodup).1 hmem
      · exact hahead c hc hrun (List.mem_cons_of_mem _ hmem)
    · intro c hc hrun
      rcases List.mem_cons.mp hc with rfl | hc
      · rfl
      · exact hlimit c hc hrun
    · dsimp only
      omega

/-- The call has failed, so it counts as an attempt. -/
theorem Call.failed_of_verdict {call : Call} {outcome : PullOutcome}
    (h : verdictOf outcome.result = .failed) :
    Call.Failed { call with outcome := some outcome } := by
  have hmeans := verdict_means outcome
  rw [h] at hmeans
  cases hmeans with
  | failed => exact .inl ⟨_, rfl⟩
  | refused => exact .inr ⟨_, rfl⟩

/-- Three failed attempts are under three keys. -/
theorem Account.givenUp {call : Call} {outcome : PullOutcome}
    (h : Account camera s) (hcalls : ∀ c ∈ s.calls, c.outcome ≠ none → c ∈ s'.calls)
    (hnew : { call with outcome := some outcome } ∈ s'.calls)
    (hattempt : call.attempt = s.day.ledger.attempt (clipOf camera call.record))
    (hmany : maxAttempts ≤ call.attempt + 1) (hverdict : verdictOf outcome.result = .failed) :
    Justified camera s' call.record := by
  -- the attempts that were counted before are `0` and `1`, and this is another one
  have htwo : 2 ≤ call.attempt := Nat.le_of_succ_le_succ hmany
  obtain ⟨a, ha, hra, haa, hfa⟩ := h.tries call.record 0 (by omega)
  obtain ⟨b, hb, hrb, hab, hfb⟩ := h.tries call.record 1 (by omega)
  -- keys of different attempts differ
  have hkeys : ∀ c c' : Call, c.attempt ≠ c'.attempt → c.key camera ≠ c'.key camera :=
    fun c c' hne heq => hne (keyOf_injective heq).2.1
  exact .givenUp (hcalls a ha hfa.over) (hcalls b hb hfb.over) hnew hra hrb rfl hfa hfb
    (Call.failed_of_verdict hverdict) (hkeys _ _ (by omega))
    (hkeys a _ (by dsimp only; omega)) (hkeys b _ (by dsimp only; omega))

/-- What is done after a pull has returned. -/
theorem Account.done_settled {call : Call} {outcome : PullOutcome} {ledger : Ledger}
    (h : Account camera s) (hcalls : ∀ c ∈ s.calls, c.outcome ≠ none → c ∈ s'.calls)
    (hnew : { call with outcome := some outcome } ∈ s'.calls) (horigins : s'.origins = s.origins)
    (hnames : s'.names = s.names)
    (hattempt : call.attempt = s.day.ledger.attempt (clipOf camera call.record))
    (hfile : ∀ x, outcome = .ok x → (x.path, call.record) ∈ s.origins)
    (hconcludes : Day.Concludes s.day.ledger (clipOf camera call.record) call.attempt
      (verdictOf outcome.result) ledger) {clip : String} (hclip : clip ∈ ledger.done) :
    ∃ record, clip = clipOf camera record ∧ Justified camera s' record := by
  -- what was done before is justified as before
  have hold : clip ∈ s.day.ledger.done →
      ∃ record, clip = clipOf camera record ∧ Justified camera s' record := by
    intro hclip
    obtain ⟨record, rfl, hjust⟩ := h.done clip hclip
    exact ⟨record, rfl, hjust.mono hcalls (horigins ▸ fun _ ho => ho) (hnames ▸ fun _ hn => hn)⟩
  -- the verdict says which outcomes it can have come from
  have hmeans := verdict_means outcome
  generalize hverdict : verdictOf outcome.result = verdict at *
  cases hconcludes with
  -- the file that was handed over is one that was renamed for this record
  | imported =>
    rcases Ledger.mem_done_finish.mp hclip with rfl | hclip
    · cases hmeans
      have horigin := hfile _ rfl
      exact ⟨call.record, rfl, .imported (horigins ▸ horigin) (hnames ▸ h.origins _ horigin)⟩
    · exact hold hclip
  -- the bridge said that the interval has been overwritten
  | overwritten =>
    rcases Ledger.mem_done_finish.mp hclip with rfl | hclip
    · cases hmeans with
      | overwritten hcode => exact ⟨call.record, rfl, .overwritten hnew rfl rfl hcode⟩
    · exact hold hclip
  -- the third failure gives the clip up
  | givenUp hmany =>
    rcases Ledger.mem_done_finish.mp hclip with rfl | hclip
    · exact ⟨call.record, rfl, h.givenUp hcalls hnew hattempt hmany hverdict⟩
    · exact hold hclip
  -- the other verdicts finish nothing
  | failed | asleep | stillRunning | stopped => exact hold hclip

/-- The attempts after a pull has returned. -/
theorem Account.tries_settled {call : Call} {outcome : PullOutcome} {ledger : Ledger}
    {calls : List Call} (h : Account camera s)
    (hcalls : ∀ c ∈ s.calls, c.outcome ≠ none → c ∈ calls)
    (hnew : { call with outcome := some outcome } ∈ calls)
    (hattempt : call.attempt = s.day.ledger.attempt (clipOf camera call.record))
    (hconcludes : Day.Concludes s.day.ledger (clipOf camera call.record) call.attempt
      (verdictOf outcome.result) ledger) (record : Record) (n : ℕ)
    (hn : n < ledger.attempt (clipOf camera record)) :
    ∃ c ∈ calls, c.record = record ∧ c.attempt = n ∧ c.Failed := by
  have hold : (∃ c ∈ s.calls, c.record = record ∧ c.attempt = n ∧ c.Failed) →
      ∃ c ∈ calls, c.record = record ∧ c.attempt = n ∧ c.Failed := by
    rintro ⟨c, hc, hrecord, hcount, hfailed⟩
    exact ⟨c, hcalls c hc hfailed.over, hrecord, hcount, hfailed⟩
  -- only a failure raises an attempt, and only that of its own clip
  generalize hverdict : verdictOf outcome.result = verdict at *
  cases hconcludes with
  | imported | overwritten | givenUp => exact hold (h.tries_finish _ record n hn)
  | failed =>
    -- the attempt that was just counted is the one of this call
    by_cases heq : clipOf camera record = clipOf camera call.record
    · obtain rfl := clipOf_injective heq
      rw [Ledger.attempt_failed_self] at hn
      rcases Nat.lt_succ_iff_lt_or_eq.mp hn with hlt | rfl
      · exact hold (h.tries _ n (hattempt ▸ hlt))
      · exact ⟨_, hnew, rfl, rfl, Call.failed_of_verdict hverdict⟩
    · rw [Ledger.attempt_failed_of_ne heq] at hn
      exact hold (h.tries record n hn)
  | asleep | stillRunning | stopped => exact hold (h.tries record n hn)

/-- A pull has returned. -/
theorem account_settled {run : DayRun} {record : Record} {attempt : ℕ} {r : PullRequest}
    {outcome : PullOutcome} {call : Call} {calls : List Call} (h : Account template.camera s)
    (hphase : s.day.phase = .pulling run record attempt)
    (hfinished : s.day.consumer.phase = .finished r outcome) (hcalls : s.calls = call :: calls)
    (hfew : s.day.ledger.wake (clipOf template.camera record) + 1 < 2 ^ 32) :
    Account template.camera { s with
      day := s.day.settle template run record attempt outcome
      calls := { call with outcome := some outcome } :: calls } := by
  have hcurrent := h.current
  rw [hphase] at hcurrent
  obtain ⟨hprogress, call', calls', heq, rfl, rfl, hopen, hundone, hattempt, hwake, hpulls⟩ :=
    hcurrent
  obtain ⟨rfl, rfl⟩ := List.cons.inj (hcalls.symm.trans heq)
  rw [hfinished] at hpulls
  -- what settling does to the ledger and to the loop
  obtain ⟨ledger, phase, hsettle, hconcludes, hnext⟩ :=
    s.day.settle_spec template run call.record call.attempt outcome
  rw [hsettle]
  have hgrows := hconcludes.grows hattempt hfew
  -- a call that is over stays as it is
  have hkept : ∀ c ∈ s.calls, c.outcome ≠ none →
      c ∈ ({ call with outcome := some outcome } :: calls : List Call) := by
    intro c hc hover
    rw [hcalls] at hc
    rcases List.mem_cons.mp hc with rfl | hc
    · exact absurd hopen hover
    · exact List.mem_cons_of_mem _ hc
  -- the settled call keeps its run, so the calls of every run are as many as before
  have hcount : ∀ n, (({ call with outcome := some outcome } :: calls : List Call).filter
      fun c => c.run = n).length = (s.calls.filter fun c => c.run = n).length := by
    intro n
    rw [hcalls, List.filter_cons, List.filter_cons]
    dsimp only
    split_ifs <;> rfl
  -- each clause with the settled call at the head of the list, and the older ones behind it
  refine
    { done := ?_, limited := ?_, once := ?_, reused := ?_, told := ?_, tries := ?_, past := ?_,
      origins := h.origins, receipts := h.receipts, current := ?_ }
  · intro clip hclip
    refine h.done_settled ?_ ?_ ?_ ?_ hattempt hpulls hconcludes hclip
    · exact hkept
    · exact List.mem_cons_self
    · rfl
    · rfl
  · intro c hc
    rw [hcount]
    rcases List.mem_cons.mp hc with rfl | hc
    · exact h.limited call (hcalls ▸ List.mem_cons_self)
    · exact h.limited c (hcalls ▸ List.mem_cons_of_mem _ hc)
  -- settling changes neither run nor record
  · have honce := h.once
    rw [hcalls, List.pairwise_cons] at honce
    exact List.pairwise_cons.mpr honce
  · have hreused := h.reused
    rw [hcalls, List.pairwise_cons] at hreused
    exact List.pairwise_cons.mpr hreused
  · intro c hc
    rcases List.mem_cons.mp hc with rfl | hc
    -- the call that has just returned is told by the verdict, the older ones stay told
    · exact Call.told_of_concludes hconcludes hwake hfew
    · exact (h.told c (hcalls ▸ List.mem_cons_of_mem _ hc)).grows hgrows
  · exact h.tries_settled hkept List.mem_cons_self hattempt hconcludes
  · intro c hc
    rcases List.mem_cons.mp hc with rfl | hc
    · exact h.past call (hcalls ▸ List.mem_cons_self)
    · exact h.past c (hcalls ▸ List.mem_cons_of_mem _ hc)
  -- the loop goes on, or the run is over
  · rcases hnext with ⟨pulled, rfl⟩ | ⟨result, rfl⟩
    · refine ⟨hprogress.nodup, ?_, ?_, (hcount s.runs).symm ▸ hprogress.count⟩
      · intro c hc
        rcases List.mem_cons.mp hc with rfl | hc
        · exact hprogress.ahead call (hcalls ▸ List.mem_cons_self)
        · exact hprogress.ahead c (hcalls ▸ List.mem_cons_of_mem _ hc)
      · intro c hc
        rcases List.mem_cons.mp hc with rfl | hc
        · exact hprogress.limit call (hcalls ▸ List.mem_cons_self)
        · exact hprogress.limit c (hcalls ▸ List.mem_cons_of_mem _ hc)
    · trivial

/-- A run starts: none of the calls is its own. -/
theorem account_started {records : List Record} {day : SdDay} (h : Account camera s)
    (hnodup : (listed records).Nodup) :
    Account camera { s with
      day := { s.day with
        phase := .looping { day, records := listed records, attemptsLeft := day.maxClips } }
      runs := s.runs + 1 } := by
  -- the number of the new run is larger than that of any call
  have hpast : ∀ call ∈ s.calls, call.run ≠ s.runs + 1 :=
    fun call hcall => (Nat.lt_succ_of_le (h.past call hcall)).ne
  have hnone : s.calls.filter (fun c => c.run = s.runs + 1) = [] := by
    rw [List.filter_eq_nil_iff]
    intro call hcall
    simpa using hpast call hcall
  refine h.moved ?_ ?_ (fun _ ho => ho) (fun _ hn => hn) h.origins (Nat.le_succ _) h.receipts ?_
  · rfl
  · rfl
  -- so no record of the list was called for in this run
  · refine ⟨hnodup, ?_, ?_, ?_⟩
    · exact fun call hcall hrun => absurd hrun (hpast call hcall)
    · exact fun call hcall hrun => absurd hrun (hpast call hcall)
    · dsimp only
      rw [hnone, List.length_nil, Nat.zero_add]

/-- The pull goes on. -/
theorem account_pulled {run : DayRun} {record : Record} {attempt : ℕ} {c' : Consumer}
    (h : Account camera s) (hphase : s.day.phase = .pulling run record attempt)
    (hpulls : ∀ call : Call, Pulls s.origins (call.key camera) call.record s.day.consumer.phase →
      Pulls s.origins (call.key camera) call.record c'.phase ∧
        Rooted camera s.origins c'.receipts ∧ c'.destination = s.day.consumer.destination) :
    Account camera { s with day := { s.day with consumer := c' } } := by
  have hcurrent := h.current
  rw [hphase] at hcurrent
  -- the pull that goes on is that of the newest call
  obtain ⟨hprogress, call, calls, hcalls, hrecord, hattempt, hpulling⟩ := hcurrent
  obtain ⟨hnext, hroot, hdestination⟩ := hpulls call hpulling.pulls
  -- no name disappears, since the destination is the same
  have hnames : ∀ name ∈ s.names, name ∈ c'.destination.map Prod.fst := by
    rw [hdestination]
    exact fun _ hname => hname
  refine h.moved ?_ ?_ (fun _ ho => ho) hnames
    (fun o ho => hnames _ (h.origins o ho)) le_rfl hroot ?_
  · rfl
  · rfl
  · dsimp only
    rw [hphase]
    obtain ⟨hnodup, hahead, hlimit, hcount⟩ := hprogress
    exact ⟨⟨hnodup, hahead, hlimit, hcount⟩, call, calls, hcalls, hrecord, hattempt,
      hpulling.unsettled, hpulling.undone, hpulling.attempt, hpulling.wake, hnext⟩

/-- The file gets its name. -/
theorem account_renamed {run : DayRun} {record : Record} {attempt : ℕ} {r : PullRequest}
    {x : PullResult} {file : Bytes} (h : Account camera s)
    (hphase : s.day.phase = .pulling run record attempt)
    (hdown : s.day.consumer.phase = .downloaded r x file) :
    Account camera { s with
      day := { s.day with
        consumer := { s.day.consumer with
          destination := Keyed.insert Prod.fst s.day.consumer.destination (x.path, file)
          phase := .renamed r x } }
      origins := (x.path, record) :: s.origins } := by
  have hcurrent := h.current
  rw [hphase] at hcurrent
  -- the file belongs to the record of the newest call
  obtain ⟨hprogress, call, calls, hcalls, rfl, rfl, hpulling⟩ := hcurrent
  have hkey := hpulling.pulls
  rw [hdown] at hkey
  have hnew : x.path ∈
      (Keyed.insert Prod.fst s.day.consumer.destination (x.path, file)).map Prod.fst :=
    List.mem_map_of_mem (Keyed.mem_insert.mpr (.inr rfl))
  -- a file under the same name is replaced, so no name is lost
  have hnames : ∀ name ∈ s.names, name ∈
      (Keyed.insert Prod.fst s.day.consumer.destination (x.path, file)).map Prod.fst := by
    intro name hname
    by_cases heq : name = x.path
    · exact heq ▸ hnew
    · obtain ⟨entry, hentry, rfl⟩ := List.mem_map.mp hname
      exact List.mem_map_of_mem (Keyed.mem_insert.mpr (.inl ⟨hentry, heq⟩))
  refine h.moved ?_ ?_ (fun _ ho => List.mem_cons_of_mem _ ho) hnames ?_ le_rfl ?_ ?_
  · rfl
  · rfl
  · intro o ho
    rcases List.mem_cons.mp ho with rfl | ho
    · exact hnew
    · exact hnames _ (h.origins o ho)
  -- the receipts are older than this file
  · intro key y record stop attempt wake hmem hkey
    exact List.mem_cons_of_mem _ (h.receipts key y record stop attempt wake hmem hkey)
  · dsimp only
    rw [hphase]
    obtain ⟨hnodup, hahead, hlimit, hcount⟩ := hprogress
    exact ⟨⟨hnodup, hahead, hlimit, hcount⟩, call, calls, hcalls, rfl, rfl, hpulling.unsettled,
      hpulling.undone, hpulling.attempt, hpulling.wake, hkey, List.mem_cons_self⟩

/-- While a pull is under way there is a call. -/
theorem Account.calls_ne_nil (h : Account camera s) (run : DayRun) (record : Record) (attempt : ℕ)
    (hphase : s.day.phase = .pulling run record attempt) : s.calls ≠ [] := by
  have hcurrent := h.current
  rw [hphase] at hcurrent
  obtain ⟨-, call, calls, hcalls, -⟩ := hcurrent
  rw [hcalls]
  exact List.cons_ne_nil call calls

/-- **One step.** -/
theorem account_step {event : HistoryEvent} (h : Account template.camera s)
    (hok : Careful template.camera s event) (hstep : s.step sha256 template event = some s') :
    Account template.camera s' := by
  cases History.step_cases h.calls_ne_nil hstep with
  -- the list of the run has no record twice, by the condition
  | started => exact account_started h hok
  | ended =>
    refine h.moved ?_ ?_ (fun _ ho => ho) (fun _ hn => hn) h.origins le_rfl h.receipts trivial
    · rfl
    · rfl
  -- the clip was done already
  | skipped hphase hrecords =>
    have hcurrent := h.current
    rw [hphase] at hcurrent
    obtain ⟨hnodup, hahead, hlimit, hcount⟩ := Progress.tail hcurrent hrecords
    refine h.moved ?_ ?_ (fun _ ho => ho) (fun _ hn => hn) h.origins le_rfl h.receipts
      ⟨hnodup, hahead, hlimit, hcount⟩
    · rfl
    · rfl
  -- the condition: a file with the start second of the record has been renamed for it
  | found hphase hrecords hundone himported =>
    obtain ⟨name, horigin, -⟩ := hok _ _ _ hphase hrecords hundone himported
    exact account_found h hphase hrecords horigin
  | called hphase hrecords hleft hundone hcall =>
    exact account_called h hphase hrecords hleft hundone hcall
  | renamed hphase hdown => exact account_renamed h hphase hdown
  -- short of the rename, the pull goes on as the consumer has it
  | pulled hphase hcall hcrash hrename hpull =>
    refine account_pulled h hphase fun call hpulls => ?_
    exact pulls_advances h.receipts (fun r heq => absurd heq (hcall r))
      (fun _ => hpulls) hrename hpull
  -- the condition: the wakes are short of the overflow
  | settled hphase hfinished hcalls =>
    exact account_settled h hphase hfinished hcalls (hok _ _ _ hphase)
  -- the ledger and the receipts are on the disk
  | crashed =>
    refine h.moved ?_ ?_ (fun _ ho => ho) (fun _ hn => hn) h.origins le_rfl h.receipts trivial
    · rfl
    · rfl
  -- an answer changes neither receipts nor files
  | received hphase hrec =>
    refine account_pulled h hphase fun call hpulls => ?_
    obtain ⟨hnext, hreceipts, hdestination⟩ := pulls_receives hpulls hrec
    exact ⟨hnext, hreceipts ▸ h.receipts, hdestination⟩

/-! ### Runs -/

/-- A clip that is done stays done, and is not pulled. -/
theorem calls_of_done {event : HistoryEvent} {record : Record} (h : Account template.camera s)
    (hstep : s.step sha256 template event = some s')
    (hdone : clipOf template.camera record ∈ s.day.ledger.done) :
    clipOf template.camera record ∈ s'.day.ledger.done ∧
      s'.calls.filter (fun call => call.record = record) =
        s.calls.filter fun call => call.record = record := by
  cases History.step_cases h.calls_ne_nil hstep with
  | found => exact ⟨Ledger.mem_done_finish.mpr (.inr hdone), rfl⟩
  -- a call is made for clips that are not done only
  | @called run record' _ _ _ _ _ _ hundone =>
    refine ⟨hdone, List.filter_cons_of_neg ?_⟩
    rw [decide_eq_true_eq]
    rintro rfl
    exact hundone hdone
  | @settled run record' attempt r outcome call calls hphase hfinished hcalls =>
    have hcurrent := h.current
    rw [hphase] at hcurrent
    obtain ⟨-, call', calls', heq, -, -, hpulling⟩ := hcurrent
    obtain ⟨rfl, rfl⟩ := List.cons.inj (hcalls.symm.trans heq)
    obtain ⟨ledger, phase, hsettle, hconcludes, -⟩ :=
      s.day.settle_spec template run record' attempt outcome
    -- the call that has returned was for another clip
    have hother : call.record ≠ record := fun heq => hpulling.undone (heq ▸ hdone)
    refine ⟨?_, ?_⟩
    · rw [hsettle]
      dsimp only
      -- no verdict takes a clip back
      generalize verdictOf outcome.result = verdict at *
      cases hconcludes with
      | imported | overwritten | givenUp => exact Ledger.mem_done_finish.mpr (.inr hdone)
      | failed | asleep | stillRunning | stopped => exact hdone
    · rw [hcalls, List.filter_cons_of_neg (by simpa using hother),
        List.filter_cons_of_neg (by simpa using hother)]
  | started | ended | skipped | renamed | pulled | crashed | received => exact ⟨hdone, rfl⟩

/-- In every careful run the ledger and the calls keep their promises, and a clip that is done is
not pulled again. -/
theorem ledger_sound {prior : History} {events : List HistoryEvent}
    (hprior : Prior template.camera prior)
    (hok : EventSystem.Steps (History.step sha256 template) (Careful template.camera) prior events)
    (hrun : EventSystem.run (History.step sha256 template) prior events = some s) :
    Sound template.camera s ∧
      ∀ record, clipOf template.camera record ∈ s.day.ledger.done → ∀ later s',
        EventSystem.Steps (History.step sha256 template) (Careful template.camera) s later →
        EventSystem.run (History.step sha256 template) s later = some s' →
        s'.calls.filter (fun call => call.record = record) =
          s.calls.filter fun call => call.record = record := by
  -- the invariant, from the empty history on
  have haccount : Account template.camera s :=
    EventSystem.run_invariant (Account template.camera)
      (fun _ _ _ => account_step) hprior.account hok
      hrun
  refine ⟨haccount.toSound, ?_⟩
  intro record hdone later s' hlater hrest
  have hfinal : Account template.camera s' ∧ clipOf template.camera record ∈ s'.day.ledger.done ∧
      s'.calls.filter (fun call => call.record = record) =
        s.calls.filter fun call => call.record = record := by
    -- the invariant and the frozen calls together are kept by every later step
    refine EventSystem.run_invariant (fun t => Account template.camera t ∧
      clipOf template.camera record ∈ t.day.ledger.done ∧
      t.calls.filter (fun call => call.record = record) =
        s.calls.filter fun call => call.record = record) ?_ ⟨haccount, hdone, rfl⟩ hlater hrest
    rintro t event t' ⟨hacc, hd, hsame⟩ hcareful hstep
    obtain ⟨hd', hsame'⟩ := calls_of_done hacc hstep hd
    exact ⟨account_step hacc hcareful hstep, hd', hsame'.trans hsame⟩
  exact hfinal.2.2

/-- A clip that is not on the card any more. -/
def sampleOverwritten : List HistoryEvent :=
  [.own (.start [⟨100, 130⟩] ⟨1, 120⟩), .own .next,
    .reply (.manifest { RecordingManifest.pendingSd 1 1 "front" 100 130 with
      status := .failed, errorCode := some "sd_no_recording" }),
    .reply .noContent, .own .settle]

/-- A recording that has been overwritten: the clip is done, and the account is sound. -/
theorem ledger_sound_sample :
    ∃ s, EventSystem.run (History.step Manager.sampleSha256 sampleTemplate) {} sampleOverwritten =
        some s ∧ "sd-front-100-130" ∈ s.day.ledger.done ∧ Sound "front" s := by
  obtain ⟨s, hs, hdone⟩ :
      ∃ s ∈ EventSystem.run (History.step Manager.sampleSha256 sampleTemplate) {} sampleOverwritten,
        "sd-front-100-130" ∈ s.day.ledger.done := by
    decide +kernel
  have hprior : Prior "front" {} :=
    ⟨rfl, rfl, rfl, fun _ ho => (nomatch ho), fun _ _ _ _ _ _ hmem => (nomatch hmem)⟩
  have hok : EventSystem.Steps (History.step Manager.sampleSha256 sampleTemplate)
      (Careful "front") {}
      sampleOverwritten := by
    have hnodup : (listed [⟨100, 130⟩]).Nodup := by decide
    -- each event of the run is careful where it happens
    refine .cons hnodup rfl (.cons ?_ rfl (.cons trivial rfl (.cons trivial rfl ⟨?_, ?_⟩)))
    · rintro _ _ _ ⟨⟩ ⟨⟩ - himported
      exact nomatch himported
    · rintro _ _ _ ⟨⟩
      decide
    · exact fun _ _ => trivial
  exact ⟨s, hs, hdone, (ledger_sound hprior hok hs).1⟩

/-- Two clips that start in the same second. The first is imported. -/
def sampleTwins : List HistoryEvent :=
  [.own (.start [⟨100, 130⟩, ⟨100, 160⟩] ⟨5, 120⟩), .own .next,
    .reply (.manifest
      ((RecordingManifest.pendingSd 1 1 "front" 100 130).publish Manager.sampleSha256
        { startedAt := 2, bytes := 8, digest := [0x00, 0x00, 0x01, 0xba, 1, 2, 3, 4],
          format := .mpegPs }
        3 10)),
    .reply (.media .mpeg [0x00, 0x00, 0x01, 0xba, 1, 2, 3, 4]), .own (.pull .rename),
    .own (.pull .receipt), .own (.pull .acknowledge), .reply .noContent, .own (.pull .remove),
    .own (.pull .finish), .own .settle, .own .next]

/-- The other one is then taken for imported and never asked for. -/
theorem clip_skipped :
    ∃ s, EventSystem.run (History.step Manager.sampleSha256 sampleTemplate)
      {} sampleTwins = some s ∧
      clipOf "front" ⟨100, 160⟩ ∈ s.day.ledger.done ∧
      (∀ call ∈ s.calls, call.record ≠ ⟨100, 160⟩) ∧ (∀ o ∈ s.origins, o.2 ≠ ⟨100, 160⟩) ∧
      ¬ Sound "front" s := by
  obtain ⟨s, hs, hdone, hcalls, horigins⟩ :
      ∃ s ∈ EventSystem.run (History.step Manager.sampleSha256 sampleTemplate) {} sampleTwins,
        clipOf "front" ⟨100, 160⟩ ∈ s.day.ledger.done ∧
        (∀ call ∈ s.calls, call.record ≠ ⟨100, 160⟩) ∧ ∀ o ∈ s.origins, o.2 ≠ ⟨100, 160⟩ := by
    decide +kernel
  refine ⟨s, hs, hdone, hcalls, horigins, ?_⟩
  -- of the twin there is neither a file, nor a call
  intro hsound
  obtain ⟨record, heq, hjust⟩ := hsound.done _ hdone
  obtain rfl := clipOf_injective heq
  -- each of the three justifications needs one
  cases hjust with
  | imported horigin => exact horigins _ horigin rfl
  | overwritten hcall hrecord => exact hcalls _ hcall hrecord
  | givenUp ha _ _ hrecord => exact hcalls _ ha hrecord

end SceneTrove

end EzvizBridge
