import EzvizBridge.Hub.Model

/-!
# What one step of the hub can do

The results about whole runs rest on three descriptions of a step, so that none of them has to
open the definition of `step` again.

* `step_task` — a step of a producer task moves that task along `Phase.Moves` and touches nothing
  that the other parties look at, except that it empties the map when it leaves `draining`;
* `join_cases` — the critical section of `subscribe` refuses, joins the running producer, or
  starts a new generation;
* `step_keeps` — every other step leaves the producers and the generation alone, and inserts
  nobody.

`foldl_retain` computes the whole fan-out of one chunk: each subscriber is fed on its own.
-/

namespace EzvizBridge

/-! ### The program counter -/

/-- The moves of the program counter of a producer task; `current` says that its generation is the
hub's when it moves. -/
inductive Phase.Moves (current : Prop) : Phase → Phase → Prop
  | backoff (wakeAt : ℕ) : Moves current .spawned (.sleeping wakeAt)
  | start : Moves current .spawned .starting
  | wake (wakeAt : ℕ) : Moves current (.sleeping wakeAt) .starting
  | giveUp (wakeAt : ℕ) : Moves current (.sleeping wakeAt) .givenUp
  | session : Moves current .starting .streaming
  | ret (result : Option BridgeError) : Moves current .streaming (.returned result)
  | stale (result : Option BridgeError) (h : ¬ current) : Moves current (.returned result) .finished
  | record (result : Option BridgeError) (h : current) :
      Moves current (.returned result) (.recording result)
  | tally (result : Option BridgeError) : Moves current (.recording result) (.tallying result)
  | count (error : BridgeError) : Moves current (.tallying (some error)) (.counting error)
  | reset (result : Option BridgeError) : Moves current (.tallying result) .resetting
  | counted (error : BridgeError) : Moves current (.counting error) .draining
  | wasReset : Moves current .resetting .draining
  | clear : Moves current .draining .cleared
  | finish : Moves current .cleared .finished

namespace RawInner

variable {cfg : HubConfig} {s s' : RawInner} {g : ℕ}

/-- A task that moves on has the new phase. -/
theorem phase_goto {task : Task} (h : s.tasks g = some task) (p : Phase) :
    (s.goto g p).phase = Function.update s.phase g (some p) := by
  funext x
  by_cases hx : x = g
  · subst hx
    simp only [goto, phase, Function.update_self, h, Option.map_some]
  · simp only [goto, phase, Function.update_of_ne hx]

/-- A cancellation does not move the program counter. -/
@[simp] theorem phase_cancel (g : ℕ) : (s.cancel g).phase = s.phase := by
  funext x
  by_cases hx : x = g
  · subst hx
    simp only [cancel, phase, Function.update_self, Option.map_map]
    rfl
  · simp only [cancel, phase, Function.update_of_ne hx]

/-- The producer that starts is spawned. -/
@[simp] theorem phase_startProducer :
    s.startProducer.phase
      = Function.update s.phase (s.producerGeneration + 1) (some .spawned) := by
  funext x
  by_cases hx : x = s.producerGeneration + 1
  · subst hx
    simp only [startProducer, phase, Function.update_self, Option.map_some]
  · simp only [startProducer, phase, Function.update_of_ne hx]

/-! ### Steps of a producer task -/

/-- The task of generation `g` moves from `p` to `q`, and all the rest that the subscribers, the
other tasks and the recordings look at is as before. -/
structure TaskMoves (s : RawInner) (g : ℕ) (p q : Phase) (s' : RawInner) : Prop where
  was : s.phase g = some p
  moves : Phase.Moves (s.producerGeneration = g) p q
  phase : s'.phase = Function.update s.phase g (some q)
  subscribers : s'.subscribers = if p = .draining then [] else s.subscribers
  channels : s'.channels = s.channels
  producer : s'.producer = s.producer
  generation : s'.producerGeneration = s.producerGeneration
  history : s'.history = s.history
  closed : s'.closed = s.closed
  closing : s'.closing = s.closing
  entering : s'.entering = s.entering
  nextId : s'.nextId = s.nextId

/-- The events of the producer task of generation `g`. -/
def taskEvent (g : ℕ) : Event → Prop
  | .advance x | .giveUp x | .ret x _ => x = g
  | _ => False

/-- A step of a task is one of its moves. -/
theorem advance_moves (h : s.advance g = some s') : ∃ p q, s.TaskMoves g p q s' := by
  rw [advance] at h
  cases htask : s.tasks g with
  | none =>
    rw [htask] at h
    exact nomatch h
  | some task =>
    rw [htask] at h
    obtain ⟨cancelled, p⟩ := task
    have was : s.phase g = some p := by rw [RawInner.phase, htask, Option.map_some]
    have hgoto := phase_goto htask
    -- one case for each place where the task can stand
    cases p with
    | spawned =>
      simp only at h
      split at h
      · split at h <;> obtain rfl := Option.some.inj h
        · exact ⟨_, _, was, .backoff _, hgoto _, rfl, rfl, rfl, rfl, rfl, rfl, rfl, rfl, rfl⟩
        · exact ⟨_, _, was, .start, hgoto _, rfl, rfl, rfl, rfl, rfl, rfl, rfl, rfl, rfl⟩
      · obtain rfl := Option.some.inj h
        exact ⟨_, _, was, .start, hgoto _, rfl, rfl, rfl, rfl, rfl, rfl, rfl, rfl, rfl⟩
    | sleeping wakeAt =>
      simp only at h
      split at h
      · obtain rfl := Option.some.inj h
        exact ⟨_, _, was, .wake _, hgoto _, rfl, rfl, rfl, rfl, rfl, rfl, rfl, rfl, rfl⟩
      · exact nomatch h
    | starting =>
      obtain rfl := Option.some.inj h
      exact ⟨_, _, was, .session, hgoto _, rfl, rfl, rfl, rfl, rfl, rfl, rfl, rfl, rfl⟩
    | returned result =>
      simp only at h
      split at h
      · obtain rfl := Option.some.inj h
        exact ⟨_, _, was, .stale _ ‹_›, hgoto _, rfl, rfl, rfl, rfl, rfl, rfl, rfl, rfl, rfl⟩
      · obtain rfl := Option.some.inj h
        have hcur : s.producerGeneration = g := not_not.mp ‹_›
        exact ⟨_, _, was, .record _ hcur, hgoto _, rfl, rfl, rfl, rfl, rfl, rfl, rfl, rfl, rfl⟩
    | recording result =>
      obtain rfl := Option.some.inj h
      exact ⟨_, _, was, .tally _, hgoto _, rfl, rfl, rfl, rfl, rfl, rfl, rfl, rfl, rfl⟩
    | tallying result =>
      rcases cancelled with _ | _ <;> rcases result with _ | error <;>
        obtain rfl := Option.some.inj h
      · exact ⟨_, _, was, .reset _, hgoto _, rfl, rfl, rfl, rfl, rfl, rfl, rfl, rfl, rfl⟩
      · exact ⟨_, _, was, .count _, hgoto _, rfl, rfl, rfl, rfl, rfl, rfl, rfl, rfl, rfl⟩
      · exact ⟨_, _, was, .reset _, hgoto _, rfl, rfl, rfl, rfl, rfl, rfl, rfl, rfl, rfl⟩
      · exact ⟨_, _, was, .reset _, hgoto _, rfl, rfl, rfl, rfl, rfl, rfl, rfl, rfl, rfl⟩
    | counting error =>
      obtain rfl := Option.some.inj h
      exact ⟨_, _, was, .counted _, hgoto _, rfl, rfl, rfl, rfl, rfl, rfl, rfl, rfl, rfl⟩
    | resetting =>
      obtain rfl := Option.some.inj h
      exact ⟨_, _, was, .wasReset, hgoto _, rfl, rfl, rfl, rfl, rfl, rfl, rfl, rfl, rfl⟩
    | draining =>
      obtain rfl := Option.some.inj h
      exact ⟨_, _, was, .clear, hgoto _, rfl, rfl, rfl, rfl, rfl, rfl, rfl, rfl, rfl⟩
    | cleared =>
      obtain rfl := Option.some.inj h
      exact ⟨_, _, was, .finish, hgoto _, rfl, rfl, rfl, rfl, rfl, rfl, rfl, rfl, rfl⟩
    | givenUp | streaming | finished => exact nomatch h

/-- **A step of a producer task.** It moves the program counter of that task by one move and, in
what the other parties look at, nothing else; only the move out of `draining` empties the map. -/
theorem step_task {e : Event} (h : s.step cfg e = some s') (he : taskEvent g e) :
    ∃ p q, s.TaskMoves g p q s' := by
  -- the three events of a task
  cases e with
  | advance x =>
    obtain rfl := he
    exact advance_moves h
  | giveUp x =>
    obtain rfl := he
    simp only [step] at h
    split at h
    · next wakeAt htask =>
      obtain rfl := Option.some.inj h
      have was : s.phase x = some (.sleeping wakeAt) := by
        rw [RawInner.phase, htask, Option.map_some]
      exact ⟨_, _, was, .giveUp _, phase_goto htask _, rfl, rfl, rfl, rfl, rfl, rfl, rfl, rfl, rfl⟩
    · exact nomatch h
  | ret x result =>
    obtain rfl := he
    simp only [step] at h
    split at h
    · next was =>
      obtain rfl := Option.some.inj h
      obtain ⟨task, htask, -⟩ := Option.map_eq_some_iff.mp was
      exact ⟨_, _, was, .ret _, phase_goto htask _, rfl, rfl, rfl, rfl, rfl, rfl, rfl, rfl, rfl⟩
    · exact nomatch h
  | _ => exact he.elim

/-! ### The critical section of `subscribe` -/

/-- `ensure_running` starts a new generation: nobody listens, or there is no unfinished producer. -/
def starts (s : RawInner) : Prop :=
  s.subscribers = [] ∨ ∀ g, s.producer = some g → s.isFinished g

/-- The map is untouched by `ensure_running`, which either leaves everything as it is or starts
the next generation, possibly after it cancelled the current one. -/
theorem ensureRunning_cases (s : RawInner) :
    (s.starts ∧ ∃ t : RawInner, (t = s ∨ ∃ current, t = s.cancel current) ∧
      s.ensureRunning s.needsFreshStream = t.startProducer) ∨
    (¬ s.starts ∧ s.ensureRunning s.needsFreshStream = s) := by
  rw [ensureRunning]
  -- no producer, one that has ended, or one that runs
  cases hp : s.producer with
  | none =>
    refine .inl ⟨.inr fun g hg => ?_, s, .inl rfl, rfl⟩
    rw [hp] at hg
    exact nomatch hg
  | some current =>
    by_cases hfin : s.isFinished current = true
    · refine .inl ⟨.inr fun g hg => ?_, s, .inl rfl, ?_⟩
      · obtain rfl := Option.some.inj (hp.symm.trans hg)
        exact hfin
      · simp only [hfin, if_true]
    · rw [Bool.not_eq_true] at hfin
      have hfresh : s.needsFreshStream = s.subscribers.isEmpty := by
        rw [needsFreshStream, hp]
        simp only [Option.any_some, hfin, Bool.not_false, Bool.and_true]
      simp only [hfin, hfresh, Bool.false_eq_true, if_false]
      by_cases hsub : s.subscribers = []
      · -- the restart: the session of `current` is cancelled, not waited for
        refine .inl ⟨.inl hsub, s.cancel current, .inr ⟨current, rfl⟩, ?_⟩
        rw [hsub]
        rfl
      · refine .inr ⟨?_, ?_⟩
        · rintro (h | h)
          · exact hsub h
          · exact Bool.false_ne_true (hfin.symm.trans (h current hp))
        · rw [List.isEmpty_eq_false_iff.mpr hsub]
          rfl

/-- What an admission leaves alone, and how it inserts the subscriber. -/
structure Inserts (s : RawInner) (id : ℕ) (s' : RawInner) : Prop where
  subscribers : s'.subscribers = s.subscribers ++ [id]
  channels : s'.channels = Function.update s.channels id {}
  born : s'.history.born = Function.update s.history.born id s'.producerGeneration
  output : s'.history.output = s.history.output
  mark : s'.history.mark
    = Function.update s.history.mark id fun g => (s.history.output g).length
  entering : s'.entering = s.entering.erase id
  nextId : s'.nextId = s.nextId
  closed : s'.closed = s.closed
  closing : s'.closing = s.closing

/-- **An admission.** It refuses at the limit and changes nothing but the list of the callers; it
joins the producer that runs; or it starts the next generation. -/
theorem join_cases (cfg : HubConfig) (s : RawInner) (id : ℕ) :
    (cfg.maxSubscribers ≤ s.subscribers.length ∧
      s.join cfg id = { s with entering := s.entering.erase id }) ∨
    (s.subscribers.length < cfg.maxSubscribers ∧ s.Inserts id (s.join cfg id) ∧
      ((¬ s.starts ∧ (s.join cfg id).phase = s.phase ∧
          (s.join cfg id).producer = s.producer ∧
          (s.join cfg id).producerGeneration = s.producerGeneration) ∨
        (s.starts ∧
          (s.join cfg id).phase
            = Function.update s.phase (s.producerGeneration + 1) (some .spawned) ∧
          (s.join cfg id).producer = some (s.producerGeneration + 1) ∧
          (s.join cfg id).producerGeneration = s.producerGeneration + 1))) := by
  -- at the limit, or admitted
  by_cases hmax : cfg.maxSubscribers ≤ s.subscribers.length
  · exact .inl ⟨hmax, if_pos hmax⟩
  · refine .inr ⟨Nat.lt_of_not_le hmax, ?_⟩
    set s₁ : RawInner := { s with entering := s.entering.erase id } with hs₁
    have hjoin : s.join cfg id = (s₁.ensureRunning s₁.needsFreshStream).insert id := if_neg hmax
    -- with a start, or joining what runs
    rcases ensureRunning_cases s₁ with ⟨hstart, t, ht, hrun⟩ | ⟨hstart, hrun⟩
    · rw [hjoin, hrun]
      rcases ht with rfl | ⟨current, rfl⟩
      · exact ⟨⟨rfl, rfl, rfl, rfl, rfl, rfl, rfl, rfl, rfl⟩,
          .inr ⟨hstart, phase_startProducer, rfl, rfl⟩⟩
      · refine ⟨⟨rfl, rfl, rfl, rfl, rfl, rfl, rfl, rfl, rfl⟩, .inr ⟨hstart, ?_, rfl, rfl⟩⟩
        change (s₁.cancel current).startProducer.phase = _
        rw [phase_startProducer, phase_cancel]
        rfl
    · rw [hjoin, hrun]
      exact ⟨⟨rfl, rfl, rfl, rfl, rfl, rfl, rfl, rfl, rfl⟩, .inl ⟨hstart, rfl, rfl, rfl⟩⟩

end RawInner

/-! ### The fan-out of one chunk -/

namespace Channel

variable {capacity : ℕ} {c : Channel}

/-- Send the slices in order until the first one is refused; the flag says whether all went
through. -/
def sendAll (capacity : ℕ) : Channel → List (List UInt8) → Channel × Bool
  | c, [] => (c, true)
  | c, bytes :: more =>
    match c.trySend capacity bytes with
    | none => (c, false)
    | some c => sendAll capacity c more

/-- **What a subscriber gets of a chunk.** As many slices as its queue has room for, in order and
from the first one on; it stays subscribed exactly when that is all of them. -/
theorem sendAll_eq (halive : c.alive = true) (slices : List (List UInt8)) :
    c.sendAll capacity slices
      = ({ c with queue := c.queue ++ slices.take (capacity - c.queue.length) },
        decide (slices.length ≤ capacity - c.queue.length)) := by
  -- on the slices
  induction slices generalizing c with
  | nil =>
    simp only [sendAll, List.take_nil, List.append_nil, List.length_nil, Nat.zero_le, decide_true]
  | cons bytes more ih =>
    rw [sendAll, trySend]
    -- there is room for this one, or for none of them
    by_cases hroom : c.queue.length < capacity
    · rw [if_pos ⟨halive, hroom⟩]
      simp only
      have hlen : capacity - c.queue.length = capacity - (c.queue ++ [bytes]).length + 1 := by
        rw [List.length_append, List.length_singleton]
        omega
      have hrest := ih (c := { c with queue := c.queue ++ [bytes] }) halive
      rw [hrest, hlen, List.take_succ_cons, List.length_cons, List.append_assoc]
      simp only [List.singleton_append, Nat.add_le_add_iff_right]
    · have hzero : capacity - c.queue.length = 0 := by omega
      rw [if_neg fun h => hroom h.2, hzero]
      simp only [List.take_zero, List.append_nil, List.length_cons, Nat.le_zero_eq,
        Nat.add_eq_zero_iff, one_ne_zero, and_false, decide_false]

/-- A receiver that is gone gets nothing, and the first slice ends its subscription. -/
theorem sendAll_dead (halive : c.alive = false) (slices : List (List UInt8)) :
    c.sendAll capacity slices = (c, slices.isEmpty) := by
  cases slices with
  | nil => rfl
  | cons bytes more =>
    rw [sendAll, trySend, if_neg]
    · rfl
    · rintro ⟨h, -⟩
      exact Bool.false_ne_true (halive.symm.trans h)

end Channel

namespace RawInner

variable {cfg : HubConfig} {s s' : RawInner} {g : ℕ}

theorem mem_retain {capacity i : ℕ} {bytes : List UInt8} :
    i ∈ (s.retain capacity bytes).subscribers
      ↔ i ∈ s.subscribers ∧ ((s.channels i).trySend capacity bytes).isSome = true :=
  List.mem_filter

/-- **The fan-out of one chunk**: the loop of `retain`s over its slices feeds each subscriber on its
own, and removes the ones whose queue could not take everything. -/
theorem foldl_retain (capacity : ℕ) (slices : List (List UInt8)) (s : RawInner) :
    slices.foldl (retain capacity) s
      = { s with
          subscribers := s.subscribers.filter fun i => ((s.channels i).sendAll capacity slices).2
          channels := fun i =>
            if i ∈ s.subscribers then ((s.channels i).sendAll capacity slices).1
            else s.channels i } := by
  induction slices generalizing s with
  | nil =>
    simp only [List.foldl_nil, Channel.sendAll, ite_self, List.filter_true]
  | cons bytes more ih =>
    rw [List.foldl_cons, ih]
    -- a subscriber that took this slice is fed the rest, one that refused it is out
    have hsub : ∀ i ∈ s.subscribers,
        (((s.channels i).trySend capacity bytes).isSome = true ∧
            (((s.retain capacity bytes).channels i).sendAll capacity more)
              = (s.channels i).sendAll capacity (bytes :: more)) ∨
        (((s.channels i).trySend capacity bytes).isSome = false ∧
            (s.retain capacity bytes).channels i = s.channels i ∧
            (s.channels i).sendAll capacity (bytes :: more) = (s.channels i, false)) := by
      intro i hi
      have hch : (s.retain capacity bytes).channels i
          = ((s.channels i).trySend capacity bytes).getD (s.channels i) := if_pos hi
      rw [hch, Channel.sendAll]
      cases (s.channels i).trySend capacity bytes with
      | none => exact .inr ⟨rfl, rfl, rfl⟩
      | some c => exact .inl ⟨rfl, rfl⟩
    -- who is left, and what is in the queues
    congr 1
    · change ((s.subscribers.filter _).filter _) = _
      rw [List.filter_filter]
      refine List.filter_congr fun i hi => ?_
      rcases hsub i hi with ⟨hsome, heq⟩ | ⟨hnone, -, hfalse⟩
      · rw [heq, hsome, Bool.and_true]
      · rw [hnone, hfalse, Bool.and_false]
    · funext i
      by_cases hi : i ∈ s.subscribers
      · rw [if_pos hi]
        rcases hsub i hi with ⟨hsome, heq⟩ | ⟨hnone, hch, hfalse⟩
        · rw [if_pos (mem_retain.mpr ⟨hi, hsome⟩), heq]
        · have hout : i ∉ (s.retain capacity bytes).subscribers := fun h =>
            Bool.false_ne_true (hnone.symm.trans (mem_retain.mp h).2)
          rw [if_neg hout, hch, hfalse]
      · rw [if_neg hi, if_neg (fun h => hi (mem_retain.mp h).1)]
        exact if_neg hi

/-- What `consume` answers and does, for a chunk of generation `g`: nothing when that generation is
not current, and otherwise the fan-out. -/
theorem consume_eq (cfg : HubConfig) (s : RawInner) (g : ℕ) (chunk : List UInt8) :
    (s.producerGeneration ≠ g ∧ (s.consume cfg g chunk).2 = s) ∨
    (s.producerGeneration = g ∧ ∃ started, (s.consume cfg g chunk).2
      = { (chunks 65536 chunk).foldl (retain cfg.queueChunks) s with
          producerStarted := started }) := by
  rw [consume]
  by_cases hgen : s.producerGeneration = g
  · refine .inr ⟨hgen, ?_⟩
    rw [if_neg (not_not.mpr hgen)]
    by_cases hsub : s.subscribers = []
    · -- with nobody in the map the fan-out changes nothing
      refine ⟨s.producerStarted, ?_⟩
      rw [if_pos (List.isEmpty_iff.mpr hsub), foldl_retain, hsub]
      simp only [List.filter_nil, List.not_mem_nil, if_false]
      rw [← hsub]
    · exact ⟨none, by rw [if_neg (by rwa [List.isEmpty_iff])]⟩
  · exact .inl ⟨hgen, by rw [if_pos hgen]⟩

/-! ### All other steps -/

/-- The producers and the generation are as before, and nobody was inserted. -/
structure Keeps (s s' : RawInner) : Prop where
  phase : s'.phase = s.phase
  generation : s'.producerGeneration = s.producerGeneration
  born : s'.history.born = s.history.born
  mark : s'.history.mark = s.history.mark
  subscribers : ∀ i ∈ s'.subscribers, i ∈ s.subscribers

/-- The events of the producer tasks, and the critical section of `subscribe`. -/
def acts : Event → Prop
  | .advance _ | .giveUp _ | .ret _ _ | .join _ => True
  | _ => False

theorem keeps_of_eq (h : s'.phase = s.phase) (hg : s'.producerGeneration = s.producerGeneration)
    (hh : s'.history = s.history) (hs : s'.subscribers = s.subscribers) : s.Keeps s' := by
  refine ⟨h, hg, by rw [hh], by rw [hh], fun i hi => ?_⟩
  rwa [hs] at hi

/-- A chunk leaves the producers alone. -/
theorem consume_keeps (cfg : HubConfig) (s : RawInner) (g : ℕ) (chunk : List UInt8) :
    s.Keeps ((s.consume cfg g chunk).2.logOutput g chunk) := by
  rcases consume_eq cfg s g chunk with ⟨-, h⟩ | ⟨-, started, h⟩
  · rw [h]
    exact ⟨rfl, rfl, rfl, rfl, fun i hi => hi⟩
  · rw [h, foldl_retain]
    exact ⟨rfl, rfl, rfl, rfl, fun i hi => (List.mem_filter.mp hi).1⟩

theorem removeSubscriber_keeps (s : RawInner) (id : ℕ) : s.Keeps (s.removeSubscriber id) :=
  ⟨rfl, rfl, rfl, rfl, fun _ hi => (List.mem_filter.mp hi).1⟩

theorem phase_elim_cancel (s : RawInner) (o : Option ℕ) : (o.elim s s.cancel).phase = s.phase := by
  cases o with
  | none => rfl
  | some g => exact phase_cancel g

/-- The fields of a cancellation other than the tokens. -/
theorem elim_cancel_eq (s : RawInner) (o : Option ℕ) :
    ∃ tasks, o.elim s s.cancel = { s with tasks := tasks } := by
  cases o with
  | none => exact ⟨s.tasks, rfl⟩
  | some g => exact ⟨_, rfl⟩

/-- **Every other step** leaves the producers alone and inserts nobody. -/
theorem step_keeps {e : Event} (h : s.step cfg e = some s') (he : ¬ acts e) : s.Keeps s' := by
  -- one event after the other
  cases e with
  | tick d =>
    obtain rfl := Option.some.inj h
    exact keeps_of_eq rfl rfl rfl rfl
  | enter =>
    simp only [step] at h
    split at h <;> obtain rfl := Option.some.inj h <;> exact keeps_of_eq rfl rfl rfl rfl
  | hand id =>
    obtain ⟨-, rfl⟩ := EventSystem.guarded h
    exact keeps_of_eq rfl rfl rfl rfl
  | abandon id =>
    obtain ⟨-, rfl⟩ := EventSystem.guarded h
    exact keeps_of_eq rfl rfl rfl rfl
  | recv id =>
    obtain ⟨-, rfl⟩ := EventSystem.guarded h
    exact keeps_of_eq rfl rfl rfl rfl
  | unsubscribe id =>
    obtain rfl := Option.some.inj h
    exact removeSubscriber_keeps s id
  | drop id =>
    obtain ⟨-, rfl⟩ := EventSystem.guarded h
    exact ⟨rfl, rfl, rfl, rfl, (removeSubscriber_keeps s id).subscribers⟩
  | idleSleep =>
    obtain ⟨-, rfl⟩ := EventSystem.guarded h
    exact keeps_of_eq rfl rfl rfl rfl
  | idleTest wakeAt =>
    obtain ⟨-, rfl⟩ := EventSystem.guarded h
    exact keeps_of_eq rfl rfl rfl rfl
  | idleCancel =>
    obtain ⟨-, rfl⟩ := EventSystem.guarded h
    obtain ⟨tasks, heq⟩ := elim_cancel_eq s s.producer
    refine keeps_of_eq (phase_elim_cancel s s.producer) ?_ ?_ ?_ <;> rw [heq]
  | close =>
    obtain rfl := Option.some.inj h
    exact keeps_of_eq rfl rfl rfl rfl
  | closeTake =>
    obtain ⟨-, rfl⟩ := EventSystem.guarded h
    obtain ⟨tasks, heq⟩ := elim_cancel_eq s s.producer
    refine keeps_of_eq (phase_elim_cancel s s.producer) ?_ ?_ ?_ <;> rw [heq]
  | closeClear taken =>
    obtain ⟨-, rfl⟩ := EventSystem.guarded h
    exact ⟨rfl, rfl, rfl, rfl, fun i hi => absurd hi (List.not_mem_nil)⟩
  | consume g chunk =>
    obtain ⟨-, rfl⟩ := EventSystem.guarded h
    exact consume_keeps cfg s g chunk
  | advance _ | giveUp _ | ret _ _ | join _ => exact absurd trivial he

end RawInner

end EzvizBridge
