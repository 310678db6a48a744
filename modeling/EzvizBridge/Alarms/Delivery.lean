import EzvizBridge.Alarms.Priming

/-!
# Delivery of the alarms

The poller inserts alarms, one camera after the other, and any number of clients read them, each on
its own camera. A client starts either with a read without cursor or with a cursor that it has from
before the start of the process; afterwards it sends the `next_sequence` of the last answer that it
got. Answers may get lost, and calls may end at any time.
-/

namespace EzvizBridge

namespace Alarms

/-! ### Clients -/

/-- A client of one camera. It has no account as long as its cursor is ahead of what the process has
numbered. -/
structure Client where
  camera : String
  cursor : ℕ
  call : Option BatchCall := none
  account : Option Account := none
  deriving DecidableEq

namespace Client

/-- The first read, without a cursor. -/
def first (camera : String) (slot : CameraSlot) : Client :=
  let cursor := slot.recentBatch.nextSequence
  { camera, cursor, account := some (Account.opened slot.history cursor) }

/-- The client comes with a cursor from before. -/
def resume (camera : String) (cursor : ℕ) (slot : CameraSlot) : Client :=
  { camera
    cursor
    account := if cursor ≤ slot.history.head then some (Account.opened slot.history cursor)
      else none }

/-- The client sends its cursor. -/
def ask (self : Client) (slot : CameraSlot) : Option Client :=
  match self.call with
  | none => some { self with call := some (slot.subscribe self.cursor) }
  | some _ => none

/-- The call moves on. -/
def moves (self : Client) (move : BatchCall → Option BatchCall) : Option Client := do
  let call ← self.call
  return { self with call := some (← move call) }

/-- The client gets the answer. -/
def receive (self : Client) (slot : CameraSlot) : Option Client := do
  let call ← self.call
  match call.phase with
  | .returned batch _ =>
    some
      { self with
        cursor := batch.nextSequence
        call := none
        account := some
          (match self.account with
          | some account => account.receive batch.events
          | none => Account.opened slot.history batch.nextSequence) }
  | _ => none

/-- The answer, or the call, is lost. -/
def abandon (self : Client) : Client := { self with call := none }

/-- The poller has made a step. -/
def observe (self : Client) (fresh : List Entry) (history : CameraHistory) : Client :=
  { self with account := self.account.map fun account => account.observe self.cursor fresh history }

/-- What a client does, or what happens to its call. -/
inductive Move
  | ask
  | read (late : Bool)
  | wake
  | deadline
  | shutdown
  | receive
  | abandon
  deriving DecidableEq, Repr

/-- One move. -/
def step (self : Client) (slot : CameraSlot) : Move → Option Client
  | .ask => self.ask slot
  | .read late => self.moves (·.read slot late)
  | .wake => self.moves (·.wake slot)
  | .deadline => self.moves (·.giveUp .deadline)
  | .shutdown => self.moves (·.giveUp .shutdown)
  | .receive => self.receive slot
  | .abandon => some self.abandon

end Client

/-- The poller and the clients of its feed. -/
structure FeedSystem where
  task : PollerTask
  clients : ℕ → Option Client := fun _ => none

/-- What may happen next. -/
inductive FeedEvent
  | poll (event : PollEvent)
  | first (id : ℕ) (camera : String)
  | resume (id : ℕ) (camera : String) (cursor : ℕ)
  | client (id : ℕ) (move : Client.Move)

/-- The event is the arrival of an answer at this client. -/
def FeedEvent.isReceive (id : ℕ) : FeedEvent → Bool
  | .client other .receive => other = id
  | _ => false

namespace FeedSystem

/-- The slot of a camera. -/
def slot (self : FeedSystem) (camera : String) : CameraSlot := self.task.poller.feed.slots camera

/-- A client is new or has moved. -/
def set (self : FeedSystem) (id : ℕ) (client : Client) : FeedSystem :=
  { self with clients := Function.update self.clients id (some client) }

/-- A new client of a camera that exists. -/
def join (self : FeedSystem) (id : ℕ) (client : Client) : Option FeedSystem :=
  if self.clients id = none ∧ client.camera ∈ self.task.poller.feed.cameras.map Prod.fst then
    some (self.set id client)
  else none

/-- The step of the poller, which the accounts take note of. -/
def poll (self : FeedSystem) (event : PollEvent) (task : PollerTask) : FeedSystem :=
  { task
    clients := fun id => (self.clients id).map fun client =>
      client.observe (self.task.newAlarms event client.camera)
        (task.poller.feed.slots client.camera).history }

/-- One step. -/
def step (self : FeedSystem) : FeedEvent → Option FeedSystem
  | .poll event => (self.task.step event).map (self.poll event)
  | .first id camera => self.join id (Client.first camera (self.slot camera))
  | .resume id camera cursor => self.join id (Client.resume camera cursor (self.slot camera))
  | .client id move => do
    let client ← self.clients id
    return self.set id (← client.step (self.slot client.camera) move)

end FeedSystem

/-! ### Calls tell what they have read -/

/-- What a call has read, if anything, is like this. -/
def CallPhase.Tells (tells : ℕ → List AlarmEvent → Prop) : CallPhase → Prop
  | .reading => True
  | .parked next => tells next []
  | .returned batch _ => tells batch.nextSequence batch.events

namespace BatchCall

variable {call moved : BatchCall} {slot : CameraSlot} {tells tells' : ℕ → List AlarmEvent → Prop}

/-- The call was made with this cursor, and tells this. -/
def Tells (self : BatchCall) (cursor : ℕ) (tells : ℕ → List AlarmEvent → Prop) : Prop :=
  self.after = cursor ∧ self.phase.Tells tells

/-- What the call tells, put more weakly. -/
theorem Tells.imp {cursor : ℕ} (h : call.Tells cursor tells)
    (himp : ∀ next events, tells next events → tells' next events) : call.Tells cursor tells' := by
  refine ⟨h.1, ?_⟩
  have hphase := h.2
  cases hcase : call.phase with
  | reading => trivial
  | parked next =>
    rw [hcase] at hphase
    exact himp _ _ hphase
  | returned batch reason =>
    rw [hcase] at hphase
    exact himp _ _ hphase

/-- What a read tells is what the history has behind the cursor. -/
theorem tells_read {late : Bool}
    (h : tells (slot.history.after call.after maxBatch).2
      ((slot.history.after call.after maxBatch).1.map Entry.event))
    (hmoved : call.read slot late = some moved) : moved.Tells call.after tells := by
  unfold BatchCall.read at hmoved
  generalize slot.history.after call.after maxBatch = answer at h hmoved
  obtain ⟨events, next⟩ := answer
  -- only a call that is about to read does so
  split at hmoved
  · obtain rfl := Option.some.inj hmoved
    refine ⟨rfl, ?_⟩
    dsimp only
    split_ifs with hanswer
    · exact h
    · exact h
    · -- it waits because there are no events
      obtain ⟨hnil, -⟩ := not_or.mp hanswer
      rw [not_not] at hnil
      subst hnil
      exact h
  -- the call is in another phase
  · exact nomatch hmoved

/-- A call that wakes goes back to reading, which tells nothing yet. -/
theorem tells_wake (hmoved : call.wake slot = some moved) : moved.Tells call.after tells := by
  unfold BatchCall.wake at hmoved
  split at hmoved
  · split_ifs at hmoved
    obtain rfl := Option.some.inj hmoved
    exact ⟨rfl, trivial⟩
  · exact nomatch hmoved

/-- A call that gives up tells what it has. -/
theorem Tells.giveUp {cursor : ℕ} {reason : Reason} (h : call.Tells cursor tells)
    (hmoved : call.giveUp reason = some moved) : moved.Tells cursor tells := by
  unfold BatchCall.giveUp at hmoved
  split at hmoved
  · rename_i hphase
    obtain rfl := Option.some.inj hmoved
    have htells := h.2
    rw [hphase] at htells
    exact ⟨h.1, htells⟩
  · exact nomatch hmoved

end BatchCall

namespace Client

variable {client moved : Client} {slot : CameraSlot}

/-- The client is served in order. -/
def Served (slot : CameraSlot) (client : Client) : Prop :=
  match client.account with
  | none => ∀ call ∈ client.call, call.Tells client.cursor fun next _ => next ≤ slot.history.head
  | some account =>
    account.Fair slot.history client.cursor ∧
      ∀ call ∈ client.call, call.Tells client.cursor (account.Answer slot.history client.cursor)

/-- A client that has just come has no account. -/
theorem served_first (camera : String) (h : slot.Ordered) : (first camera slot).Served slot :=
  ⟨Account.fair_opened h.indexed (Nat.le_refl _), fun _ hcall => nomatch hcall⟩

/-- A client that resumes counts from its cursor. -/
theorem served_resume (camera : String) (cursor : ℕ) (h : slot.Ordered) :
    (resume camera cursor slot).Served slot := by
  unfold Served resume
  dsimp only
  split_ifs with hle
  · exact ⟨Account.fair_opened h.indexed hle, fun _ hcall => nomatch hcall⟩
  · exact fun _ hcall => nomatch hcall

/-- A step of the call. -/
theorem Served.moves {move : BatchCall → Option BatchCall} (h : client.Served slot)
    (hmove : ∀ call moved tells, call.Tells client.cursor tells →
      (tells (slot.history.after client.cursor maxBatch).2
        ((slot.history.after client.cursor maxBatch).1.map Entry.event)) →
      move call = some moved → moved.Tells client.cursor tells)
    (hslot : slot.Ordered) (hmoved : client.moves move = some moved) : moved.Served slot := by
  obtain ⟨call, hcall, hmoved⟩ := Option.bind_eq_some_iff.mp hmoved
  obtain ⟨call', hcall', hmoved⟩ := Option.bind_eq_some_iff.mp hmoved
  obtain rfl := Option.some.inj hmoved
  unfold Served at h ⊢
  dsimp only at h ⊢
  cases haccount : client.account with
  -- a client without an account: its answer is only compared with the head
  | none =>
    rw [haccount] at h
    intro call'' hcall''
    obtain rfl := Option.some.inj hcall''
    exact hmove call _ _ (h call hcall) (Account.after_le_head hslot.indexed) hcall'
  -- with an account: the answer is the one of the feed
  | some account =>
    rw [haccount] at h
    refine ⟨h.1, fun call'' hcall'' => ?_⟩
    obtain rfl := Option.some.inj hcall''
    exact hmove call _ _ (h.2 call hcall) (Account.answer_after hslot.indexed h.1) hcall'

theorem Served.read {late : Bool} (h : client.Served slot) (hslot : slot.Ordered)
    (hmoved : client.moves (·.read slot late) = some moved) : moved.Served slot := by
  refine h.moves (fun call moved tells hcall hafter hread => ?_) hslot hmoved
  have htells := BatchCall.tells_read (hcall.1 ▸ hafter) hread
  rwa [hcall.1] at htells

theorem Served.wake (h : client.Served slot) (hslot : slot.Ordered)
    (hmoved : client.moves (·.wake slot) = some moved) : moved.Served slot := by
  refine h.moves (fun call moved tells hcall _ hwake => ?_) hslot hmoved
  have htells : moved.Tells call.after tells := BatchCall.tells_wake hwake
  rwa [hcall.1] at htells

theorem Served.giveUp {reason : Reason} (h : client.Served slot) (hslot : slot.Ordered)
    (hmoved : client.moves (·.giveUp reason) = some moved) : moved.Served slot :=
  h.moves (fun _ _ _ hcall _ hgive => hcall.giveUp hgive) hslot hmoved

/-- The next call starts from the cursor. -/
theorem Served.ask (h : client.Served slot) (hmoved : client.ask slot = some moved) :
    moved.Served slot := by
  unfold Client.ask at hmoved
  split at hmoved
  · obtain rfl := Option.some.inj hmoved
    unfold Served at h ⊢
    dsimp only
    cases haccount : client.account with
    | none =>
      intro call hcall
      obtain rfl := Option.some.inj hcall
      exact ⟨rfl, trivial⟩
    | some account =>
      rw [haccount] at h
      refine ⟨h.1, fun call hcall => ?_⟩
      obtain rfl := Option.some.inj hcall
      exact ⟨rfl, trivial⟩
  · exact nomatch hmoved

/-- The client may drop its call at any time. -/
theorem Served.abandon (h : client.Served slot) : client.abandon.Served slot := by
  unfold Served Client.abandon at *
  dsimp only
  cases haccount : client.account with
  | none => exact fun _ hcall => nomatch hcall
  | some account =>
    rw [haccount] at h
    exact ⟨h.1, fun _ hcall => nomatch hcall⟩

/-- What an arriving answer is. -/
theorem receive_cases (h : client.receive slot = some moved) :
    ∃ call batch reason, client.call = some call ∧ call.phase = .returned batch reason ∧
      moved = { client with
        cursor := batch.nextSequence
        call := none
        account := some
          (match client.account with
          | some account => account.receive batch.events
          | none => Account.opened slot.history batch.nextSequence) } := by
  obtain ⟨call, hcall, h⟩ := Option.bind_eq_some_iff.mp h
  split at h
  · rename_i batch reason hphase
    exact ⟨call, batch, reason, hcall, hphase, (Option.some.inj h).symm⟩
  · exact nomatch h

/-- The answer that arrives is booked. -/
theorem Served.receive (h : client.Served slot) (hslot : slot.Ordered)
    (hmoved : client.receive slot = some moved) : moved.Served slot := by
  obtain ⟨call, batch, reason, hcall, hphase, rfl⟩ := receive_cases hmoved
  unfold Served at h ⊢
  dsimp only
  refine ⟨?_, fun _ hcall => nomatch hcall⟩
  -- the first answer opens the account, the later ones are added to it
  cases haccount : client.account with
  | none =>
    rw [haccount] at h
    have htells := (h call hcall).2
    rw [hphase] at htells
    exact Account.fair_opened hslot.indexed htells
  | some account =>
    rw [haccount] at h
    have htells := (h.2 call hcall).2
    rw [hphase] at htells
    exact h.1.receive htells

/-- A move of the call is one of a call that the client has. -/
theorem moves_cases {move : BatchCall → Option BatchCall} (h : client.moves move = some moved) :
    ∃ call call', client.call = some call ∧ move call = some call' ∧
      moved = { client with call := some call' } := by
  obtain ⟨call, hcall, h⟩ := Option.bind_eq_some_iff.mp h
  obtain ⟨call', hcall', h⟩ := Option.bind_eq_some_iff.mp h
  exact ⟨call, call', hcall, hcall', (Option.some.inj h).symm⟩

/-- The client asks when it has no call. -/
theorem ask_cases (h : client.ask slot = some moved) :
    client.call = none ∧ moved = { client with call := some (slot.subscribe client.cursor) } := by
  unfold Client.ask at h
  split at h
  · exact ⟨‹_›, (Option.some.inj h).symm⟩
  · exact nomatch h

/-- A client stays at its camera. -/
theorem step_camera {move : Move} (h : client.step slot move = some moved) :
    moved.camera = client.camera := by
  cases move with
  | ask =>
    obtain ⟨-, rfl⟩ := ask_cases h
    rfl
  | receive =>
    obtain ⟨_, _, _, -, -, rfl⟩ := receive_cases h
    rfl
  | abandon =>
    obtain rfl := Option.some.inj h
    rfl
  | read late | wake | deadline | shutdown =>
    obtain ⟨_, _, -, -, rfl⟩ := moves_cases h
    rfl

/-- Every move of the client keeps it. -/
theorem Served.step {move : Move} (h : client.Served slot) (hslot : slot.Ordered)
    (hmoved : client.step slot move = some moved) : moved.Served slot := by
  cases move with
  | ask => exact h.ask hmoved
  | read late => exact h.read hslot hmoved
  | wake => exact h.wake hslot hmoved
  | deadline => exact h.giveUp hslot hmoved
  | shutdown => exact h.giveUp hslot hmoved
  | receive => exact h.receive hslot hmoved
  | abandon =>
    obtain rfl := Option.some.inj hmoved
    exact h.abandon

/-- The history grows while the client stands still. -/
theorem Served.observe {later : CameraSlot} {fresh : List Entry} (h : client.Served slot)
    (hextends : CameraHistory.Extends slot.history later.history fresh) :
    (client.observe fresh later.history).Served later := by
  unfold Served Client.observe at *
  dsimp only
  cases haccount : client.account with
  | none =>
    rw [haccount] at h
    exact fun call hcall => (h call hcall).imp fun _ _ hle => hle.trans hextends.head
  | some account =>
    rw [haccount] at h
    exact ⟨h.1.observe hextends,
      fun call hcall => (h.2 call hcall).imp fun _ _ ht => ht.observe hextends⟩

end Client

/-! ### Every client is served in order -/

namespace FeedSystem

variable {s s' : FeedSystem} {id : ℕ} {client : Client}

theorem set_self (s : FeedSystem) (id : ℕ) (client : Client) :
    (s.set id client).clients id = some client :=
  Function.update_self ..

theorem set_of_ne {id' : ℕ} (s : FeedSystem) (client : Client) (h : id' ≠ id) :
    (s.set id client).clients id' = s.clients id' :=
  Function.update_of_ne h ..

/-- What a step does: the poller moves, a client is new, or a client moves. -/
theorem step_cases {event : FeedEvent} (h : s.step event = some s') :
    (∃ poll task, event = .poll poll ∧ s.task.step poll = some task ∧ s' = s.poll poll task) ∨
      (∃ id camera client, s.clients id = none ∧ s' = s.set id client ∧
        (event = .first id camera ∧ client = Client.first camera (s.slot camera) ∨
          ∃ cursor, event = .resume id camera cursor ∧
            client = Client.resume camera cursor (s.slot camera))) ∨
      (∃ id move client moved, event = .client id move ∧ s.clients id = some client ∧
        client.step (s.slot client.camera) move = some moved ∧ s' = s.set id moved) := by
  -- on the event, whose guard says who may take the step
  cases event with
  | poll poll =>
    obtain ⟨task, htask, hs⟩ := Option.map_eq_some_iff.mp h
    exact .inl ⟨poll, task, rfl, htask, hs.symm⟩
  | first id camera =>
    obtain ⟨hguard, hs⟩ := EventSystem.guarded h
    exact .inr (.inl ⟨id, camera, _, hguard.1, hs.symm, .inl ⟨rfl, rfl⟩⟩)
  | resume id camera cursor =>
    obtain ⟨hguard, hs⟩ := EventSystem.guarded h
    exact .inr (.inl ⟨id, camera, _, hguard.1, hs.symm, .inr ⟨cursor, rfl, rfl⟩⟩)
  | client id move =>
    obtain ⟨client, hclient, h⟩ := Option.bind_eq_some_iff.mp h
    obtain ⟨moved, hmoved, h⟩ := Option.bind_eq_some_iff.mp h
    exact .inr (.inr ⟨id, move, client, moved, rfl, hclient, hmoved, (Option.some.inj h).symm⟩)

/-- What holds in every reachable state. -/
structure Sound (system : FeedSystem) : Prop where
  sane : system.task.Sane
  served : ∀ id client, system.clients id = some client →
    client.Served (system.slot client.camera)

/-- A client that is served may be set. -/
theorem Sound.set (h : s.Sound) (hclient : client.Served (s.slot client.camera)) :
    (s.set id client).Sound := by
  refine ⟨h.sane, fun id' client' hclient' => ?_⟩
  by_cases heq : id' = id
  · subst heq
    rw [set_self] at hclient'
    obtain rfl := Option.some.inj hclient'
    exact hclient
  · rw [set_of_ne s client heq] at hclient'
    exact h.served id' client' hclient'

/-- Every step keeps it. -/
theorem Sound.step {event : FeedEvent} (h : s.Sound) (hs : s.step event = some s') : s'.Sound := by
  obtain ⟨poll, task, -, htask, rfl⟩ | ⟨id, camera, client, -, rfl, hclient⟩ |
    ⟨id, move, client, moved, -, hclient, hmoved, rfl⟩ := step_cases hs
  -- the poller has moved, and every client sees the new history
  · obtain ⟨hsane, hextends⟩ := h.sane.step htask
    refine ⟨hsane, fun id client hclient => ?_⟩
    obtain ⟨before, hbefore, rfl⟩ := Option.map_eq_some_iff.mp hclient
    exact (h.served id before hbefore).observe (hextends before.camera)
  -- a client that comes, or comes back
  · rcases hclient with ⟨-, rfl⟩ | ⟨cursor, -, rfl⟩
    · exact h.set (Client.served_first camera (h.sane.ordered camera))
    · exact h.set (Client.served_resume camera cursor (h.sane.ordered camera))
  -- a client that moves, by its own step
  · have hserved := (h.served id client hclient).step (h.sane.ordered client.camera) hmoved
    rw [← Client.step_camera hmoved] at hserved
    exact h.set hserved

/-- The bridge after the start of the process; nobody reads yet. -/
def start (cameras : List (String × CameraConfig)) (distinct : (cameras.map Prod.fst).Nodup)
    (files : String → CameraFiles) (binding : CameraConfig → String) (limits : AlarmLimits) :
    FeedSystem :=
  { task := { poller := { feed := AlarmFeed.load cameras distinct files binding limits } } }

theorem sound_start (cameras : List (String × CameraConfig))
    (distinct : (cameras.map Prod.fst).Nodup) (files : String → CameraFiles)
    (binding : CameraConfig → String) (limits : AlarmLimits) :
    (start cameras distinct files binding limits).Sound :=
  ⟨PollerTask.sane_load cameras distinct files binding limits _, fun _ _ hclient => nomatch hclient⟩

end FeedSystem

/-! ### A client that keeps reading gets everything -/

/-- The call does not wait, and what it tells leads on. -/
def BatchCall.Prompt (call : BatchCall) : Prop :=
  match call.phase with
  | .reading => True
  | .parked _ => False
  | .returned batch _ => call.after < batch.nextSequence

namespace BatchCall

variable {call moved : BatchCall} {slot : CameraSlot}

/-- A prompt call does not wait. -/
theorem Prompt.not_wake (h : call.Prompt) : call.wake slot = none := by
  unfold BatchCall.wake
  split
  · rename_i hphase
    unfold Prompt at h
    rw [hphase] at h
    exact h.elim
  · rfl

/-- A prompt call has no deadline to reach. -/
theorem Prompt.not_giveUp {reason : Reason} (h : call.Prompt) : call.giveUp reason = none := by
  unfold BatchCall.giveUp
  split
  · rename_i hphase
    unfold Prompt at h
    rw [hphase] at h
    exact h.elim
  · rfl

/-- A read behind which there is something is answered at once. -/
theorem prompt_read {account : Account} {e : Entry} {late : Bool} (hslot : slot.Ordered)
    (hfair : account.Fair slot.history call.after) (he : e ∈ account.due)
    (hlt : call.after < e.sequence) (hthere : e ∈ slot.history.alarms)
    (hmoved : call.read slot late = some moved) : moved.Prompt := by
  -- the alarm is in the history behind the cursor
  have hpending : slot.history.Pending call.after := by
    obtain ⟨x, hx, rfl⟩ := List.mem_map.mp hthere
    have hfloor : slot.history.floor < x.sequence := (hfair.fresh _ he).1
    have hcursor : call.after < x.sequence := hlt
    exact ⟨x, hx, by omega⟩
  have hevents := CameraHistory.after_ne_nil hslot.indexed (by decide : 0 < maxBatch) hpending
  have hanswer := @Account.answer_after _ _ _ maxBatch hslot.indexed hfair
  unfold BatchCall.read at hmoved
  generalize slot.history.after call.after maxBatch = answer at hevents hanswer hmoved
  obtain ⟨events, next⟩ := answer
  split at hmoved
  · obtain rfl := Option.some.inj hmoved
    dsimp only at hevents hanswer ⊢
    -- there are events, so the call returns with a cursor further on
    rw [if_pos (.inl hevents)]
    obtain ⟨x, hx⟩ := List.exists_mem_of_ne_nil events hevents
    have := hanswer.range x.event (List.mem_map_of_mem hx)
    show call.after < next
    omega
  · exact nomatch hmoved

end BatchCall

namespace Client

variable {client moved : Client} {slot : CameraSlot} {e : Entry} {cursor count : ℕ}

/-- Since it was at `cursor`, the client has got `count` answers. Either the alarm is settled, or
every answer but the first has led on. -/
def Advances (e : Entry) (cursor count : ℕ) (client : Client) : Prop :=
  ∃ account, client.account = some account ∧ e ∈ account.due ∧
    (account.Settles e ∨
      client.cursor < e.sequence ∧ cursor ≤ client.cursor ∧
        (count = 0 ∨ cursor + count ≤ client.cursor + 1 ∧ ∀ call ∈ client.call, call.Prompt))

/-- A move of the call. -/
theorem Advances.call {call' : BatchCall} (h : client.Advances e cursor count)
    (hcall : ∀ account, client.account = some account → e ∈ account.due →
      client.cursor < e.sequence →
      (∀ call ∈ client.call, call.Prompt) → account.Settles e ∨ call'.Prompt) :
    { client with call := some call' }.Advances e cursor count := by
  obtain ⟨account, haccount, he, hsettles | ⟨hlt, hle, hzero | ⟨hcount, hprompt⟩⟩⟩ := h
  -- the alarm is settled, and stays so
  · exact ⟨account, haccount, he, .inl hsettles⟩
  · exact ⟨account, haccount, he, .inr ⟨hlt, hle, .inl hzero⟩⟩
  -- the call stays prompt, or the alarm is settled now
  · refine ⟨account, haccount, he, ?_⟩
    refine (hcall account haccount he hlt hprompt).imp id fun hprompt' => ?_
    refine ⟨hlt, hle, .inr ⟨hcount, fun call hcall' => ?_⟩⟩
    obtain rfl := Option.some.inj hcall'
    exact hprompt'

theorem Advances.abandon (h : client.Advances e cursor count) :
    client.abandon.Advances e cursor count := by
  obtain ⟨account, haccount, he, h⟩ := h
  refine ⟨account, haccount, he, h.imp id fun ⟨hlt, hle, hcount⟩ => ⟨hlt, hle, hcount.imp id ?_⟩⟩
  exact fun hand => ⟨hand.1, fun _ hcall => nomatch hcall⟩

/-- An answer arrives. -/
theorem Advances.receive (hserved : client.Served slot) (hslot : slot.Ordered)
    (h : client.Advances e cursor count) (hmoved : client.receive slot = some moved) :
    moved.Advances e cursor (count + 1) := by
  have hserved' := hserved.receive hslot hmoved
  obtain ⟨call, batch, reason, hcall, hphase, rfl⟩ := receive_cases hmoved
  obtain ⟨account, haccount, he, h⟩ := h
  unfold Served at hserved hserved'
  rw [haccount] at hserved
  dsimp only at hserved'
  rw [haccount] at hserved'
  obtain ⟨hafter, htells⟩ := hserved.2 call hcall
  rw [hphase] at htells
  have hforward : client.cursor ≤ batch.nextSequence := htells.forward
  refine ⟨account.receive batch.events, by rw [haccount], he, ?_⟩
  -- the alarm was settled before, or the cursor is still before it
  rcases h with hsettles | ⟨hlt, hle, hcount⟩
  · exact .inl hsettles.receive
  -- the new cursor is before the alarm or has reached it
  · rcases Nat.lt_or_ge batch.nextSequence e.sequence with hnext | hnext
    · refine .inr ⟨hnext, hle.trans hforward, .inr ⟨?_, fun _ hcall => nomatch hcall⟩⟩
      dsimp only
      -- the first answer needs no progress, the later ones have made some
      rcases hcount with rfl | ⟨hcount, hprompt⟩
      · omega
      · have hon := hprompt call hcall
        unfold BatchCall.Prompt at hon
        rw [hphase, hafter] at hon
        dsimp only at hon
        omega
    · exact .inl (hserved'.1.complete e he hnext)

/-- A move of the client brings it closer to the alarm, if an answer arrives. -/
theorem Advances.step {move : Move} (hserved : client.Served slot) (hslot : slot.Ordered)
    (h : client.Advances e cursor count) (hmoved : client.step slot move = some moved) :
    moved.Advances e cursor (count + if move = .receive then 1 else 0) := by
  -- only the arrival of an answer counts
  have hsame : move ≠ .receive → moved.Advances e cursor count →
      moved.Advances e cursor (count + if move = .receive then 1 else 0) := by
    intro hne hadvances
    rwa [if_neg hne]
  cases move with
  -- the answers of the feed, each of which moves the cursor
  | receive => exact h.receive hserved hslot hmoved
  | ask =>
    obtain ⟨-, rfl⟩ := ask_cases hmoved
    exact hsame nofun (h.call fun _ _ _ _ _ => .inr trivial)
  | abandon =>
    obtain rfl := Option.some.inj hmoved
    exact hsame nofun h.abandon
  | read late =>
    obtain ⟨call, call', hcall, hread, rfl⟩ := moves_cases hmoved
    refine hsame nofun (h.call fun account haccount he hlt _ => ?_)
    unfold Served at hserved
    rw [haccount] at hserved
    obtain ⟨hfair, hcalls⟩ := hserved
    rw [← (hcalls call hcall).1] at hfair hlt
    -- the alarm is there for the read, or was evicted
    rcases hfair.pending e he hlt with hthere | hmissed
    · exact .inr (BatchCall.prompt_read hslot hfair he hlt hthere hread)
    · exact .inl (.inr hmissed)
  | wake =>
    obtain ⟨call, call', hcall, hwake, rfl⟩ := moves_cases hmoved
    refine hsame nofun (h.call fun _ _ _ _ hprompt => ?_)
    rw [(hprompt call hcall).not_wake] at hwake
    exact nomatch hwake
  | deadline | shutdown =>
    obtain ⟨call, call', hcall, hgive, rfl⟩ := moves_cases hmoved
    refine hsame nofun (h.call fun _ _ _ _ hprompt => ?_)
    rw [(hprompt call hcall).not_giveUp] at hgive
    exact nomatch hgive

/-- More alarms do not take the client back. -/
theorem Advances.observe {fresh : List Entry} {history : CameraHistory}
    (h : client.Advances e cursor count) :
    (client.observe fresh history).Advances e cursor count := by
  obtain ⟨account, haccount, he, h⟩ := h
  refine ⟨account.observe client.cursor fresh history, ?_, List.mem_append_left _ he, ?_⟩
  · rw [Client.observe, haccount, Option.map_some]
  · exact h.imp Account.Settles.observe id

end Client

namespace FeedSystem

variable {s s' : FeedSystem} {id : ℕ} {client : Client}

open EventSystem (run run_keeps)

/-- A client over a step. -/
theorem advances_step {event : FeedEvent} {e : Entry} {cursor count : ℕ} (h : s.Sound)
    (hs : s.step event = some s') (hclient : s.clients id = some client)
    (hadvances : client.Advances e cursor count) :
    ∃ client', s'.clients id = some client' ∧ client'.camera = client.camera ∧
      client'.Advances e cursor (count + if event.isReceive id then 1 else 0) := by
  obtain ⟨poll, task, rfl, htask, rfl⟩ | ⟨id', camera, client', hnone, rfl, hevent⟩ |
    ⟨id', move, client', moved, rfl, hclient', hmoved, rfl⟩ := step_cases hs
  -- the poller moves, and the client only observes
  · refine ⟨_, congrArg (Option.map _) hclient, rfl, ?_⟩
    exact hadvances.observe
  -- another client has come
  · have hne : id ≠ id' := by
      rintro rfl
      exact nomatch hnone.symm.trans hclient
    refine ⟨client, (set_of_ne s client' hne).trans hclient, rfl, ?_⟩
    rcases hevent with ⟨rfl, -⟩ | ⟨_, rfl, -⟩
    · exact hadvances
    · exact hadvances
  -- this client moves, or another one
  · by_cases heq : id = id'
    · subst heq
      obtain rfl := Option.some.inj (hclient.symm.trans hclient')
      refine ⟨moved, set_self s id moved, Client.step_camera hmoved, ?_⟩
      have hmove : (FeedEvent.client id move).isReceive id = decide (move = .receive) := by
        cases move <;> simp [FeedEvent.isReceive]
      rw [hmove]
      simpa using hadvances.step (h.served id client hclient) (h.sane.ordered client.camera) hmoved
    · refine ⟨client, (set_of_ne s moved heq).trans hclient, rfl, ?_⟩
      have hother : (FeedEvent.client id' move).isReceive id = false := by
        cases move <;> simp [FeedEvent.isReceive, Ne.symm heq]
      rw [hother]
      exact hadvances

/-- A client over a run. -/
theorem advances_run {events : List FeedEvent} {e : Entry} {cursor count : ℕ} (h : s.Sound)
    (hrun : run step s events = some s') (hclient : s.clients id = some client)
    (hadvances : client.Advances e cursor count) :
    ∃ client', s'.clients id = some client' ∧ client'.camera = client.camera ∧
      client'.Advances e cursor (count + events.countP (·.isReceive id)) := by
  -- on the events, with the number of answers that have arrived
  induction events generalizing s client count with
  | nil =>
    obtain rfl := Option.some.inj hrun
    exact ⟨client, hclient, rfl, hadvances⟩
  | cons event events ih =>
    obtain ⟨mid, hmid, hrest⟩ := Option.bind_eq_some_iff.mp hrun
    obtain ⟨client₁, hclient₁, hcamera₁, hadvances₁⟩ := advances_step h hmid hclient hadvances
    obtain ⟨client₂, hclient₂, hcamera₂, hadvances₂⟩ := ih (h.step hmid) hrest hclient₁ hadvances₁
    refine ⟨client₂, hclient₂, hcamera₂.trans hcamera₁, ?_⟩
    have hcount : count + (event :: events).countP (·.isReceive id) =
        count + (if event.isReceive id then 1 else 0) + events.countP (·.isReceive id) := by
      rw [List.countP_cons]
      omega
    rw [hcount]
    exact hadvances₂

/-- A read without a stale cursor does not send the client back; a stale one is answered at once,
with the head. -/
theorem read_tells {call : BatchCall} (slot : CameraSlot) (hphase : call.phase = .reading)
    (late : Bool) :
    ∃ moved, call.read slot late = some moved ∧
      (call.after ≤ slot.history.head → moved.phase.Tells fun next _ => call.after ≤ next) ∧
      (slot.history.head < call.after →
        moved.phase = .returned (envelope slot.history.head [] none) .answered) := by
  have hread : ∃ moved, call.read slot late = some moved := by
    -- a read that can be made is made
    unfold BatchCall.read
    rw [hphase]
    exact ⟨_, rfl⟩
  obtain ⟨moved, hmoved⟩ := hread
  refine ⟨moved, hmoved, fun hle => ?_, fun hlt => ?_⟩
  · exact (BatchCall.tells_read (CameraHistory.le_after hle) hmoved).2
  -- the cursor is ahead of the head: the answer has no events and takes the client back
  · unfold BatchCall.read at hmoved
    rw [hphase, CameraHistory.after_eq_of_lt hlt] at hmoved
    dsimp only at hmoved
    rw [if_pos (.inr hlt)] at hmoved
    obtain rfl := Option.some.inj hmoved
    rfl

/-- **Every live alarm is delivered exactly once.** In every reachable state, for every client that
has been answered: it has received events with ascending numbers, all of them new and due to it; and
each alarm that is due to it has been received once if the cursor is past it, unless it was evicted
before the cursor got there. As the client goes on, an alarm ahead of the cursor is settled when as
many answers have arrived as there are numbers up to it, and one more.

A read with a cursor that is not ahead of the head never sends the client back. A cursor that is
ahead is answered at once with the head, and with that answer the account is opened. -/
theorem alarms_delivered_once {cameras : List (String × CameraConfig)}
    {distinct : (cameras.map Prod.fst).Nodup} {files : String → CameraFiles}
    {binding : CameraConfig → String} {limits : AlarmLimits} {events : List FeedEvent}
    (hrun : run step (start cameras distinct files binding limits) events = some s)
    (hclient : s.clients id = some client) :
    (∀ account, client.account = some account →
      account.received.Pairwise (fun e e' => e.sequence < e'.sequence) ∧
      (∀ event ∈ account.received, (s.slot client.camera).history.floor < event.sequence ∧
        ∃ e ∈ account.due, e.event = event.bare) ∧
      (∀ e ∈ account.due, e.sequence ≤ client.cursor →
        (account.received.map (·.sequence)).count e.sequence = 1 ∨ e ∈ account.missed) ∧
      (∀ e ∈ account.due, ∀ later s', run step s later = some s' →
        e.sequence < client.cursor + later.countP (·.isReceive id) →
        ∃ client' account', s'.clients id = some client' ∧ client'.account = some account' ∧
          ((account'.received.map (·.sequence)).count e.sequence = 1 ∨ e ∈ account'.missed))) ∧
    (∀ call, client.call = some call → call.phase = .reading → ∀ late,
      ∃ moved, call.read (s.slot client.camera) late = some moved ∧
        (client.cursor ≤ (s.slot client.camera).history.head →
          moved.phase.Tells fun next _ => client.cursor ≤ next) ∧
        ((s.slot client.camera).history.head < client.cursor →
          moved.phase =
            .returned (envelope (s.slot client.camera).history.head [] none) .answered)) ∧
    (∀ moved, client.receive (s.slot client.camera) = some moved → moved.account.isSome) := by
  have hsound : s.Sound :=
    run_keeps Sound (fun _ _ _ h hs => h.step hs)
      (sound_start cameras distinct files binding limits) hrun
  have hserved := hsound.served id client hclient
  unfold Client.Served at hserved
  -- the account, the read of a stale cursor, and the first answer
  refine ⟨fun account haccount => ?_, fun call hcall hphase late => ?_, fun moved hmoved => ?_⟩
  · rw [haccount] at hserved
    obtain ⟨hfair, -⟩ := hserved
    refine ⟨hfair.ascending, fun event hevent => ?_,
      fun e he hle => hfair.count_received he hle, ?_⟩
    · obtain ⟨e, he, heq⟩ := hfair.owed event hevent
      have hnumber : e.sequence = event.sequence := congrArg AlarmEvent.sequence heq
      exact ⟨hnumber ▸ (hfair.fresh e he).1, e, he, heq⟩
    · intro e he later s' hlater hcount
      -- at the start no answer has arrived yet
      have hadvances : client.Advances e client.cursor 0 := by
        refine ⟨account, haccount, he, ?_⟩
        rcases Nat.lt_or_ge client.cursor e.sequence with hlt | hge
        · exact .inr ⟨hlt, Nat.le_refl _, .inl rfl⟩
        · exact .inl (hfair.complete e he hge)
      obtain ⟨client', hclient', -, account', haccount', he', hadvances'⟩ :=
        advances_run hsound hlater hclient hadvances
      have hserved' :=
        (run_keeps Sound (fun _ _ _ h hs => h.step hs) hsound hlater).served id client'
        hclient'
      unfold Client.Served at hserved'
      rw [haccount'] at hserved'
      refine ⟨client', account', hclient', haccount', ?_⟩
      -- at the end of the run the alarm is settled, or too few answers were counted
      rcases hadvances' with hsettles | ⟨hlt, hle, hzero | ⟨hmany, -⟩⟩
      · rcases hsettles with ⟨event, hevent, heq⟩ | hmissed
        · refine hserved'.1.count_received he' ?_
          exact heq ▸ hserved'.1.behind event hevent
        · exact .inr hmissed
      · omega
      · omega
  -- the call asks behind the cursor of the client
  · have hafter : call.after = client.cursor := by
      cases haccount : client.account with
      | none =>
        rw [haccount] at hserved
        exact (hserved call hcall).1
      | some account =>
        rw [haccount] at hserved
        exact (hserved.2 call hcall).1
    rw [← hafter]
    exact read_tells (s.slot client.camera) hphase late
  · obtain ⟨_, _, _, -, -, rfl⟩ := Client.receive_cases hmoved
    rfl

def sampleCameras : List (String × CameraConfig) := [("front", { serial := "CAM1", channel := 1 })]

def sampleMessage : ParsedMessage :=
  { record := { id := "m1", occurredAt := 60 }, channel := some 1, timeMs := some 60000,
    token := by decide }

/-- One cycle over one device, whose list is always the same page. -/
def sampleCycle (total : ℕ) (messages : List ParsedMessage) : List FeedEvent :=
  [.poll (.summary (.ok [{ serial := "CAM1", total, topId := none, utcOffset := some 0 }])),
    .poll (.serial { now := 90 } fun _ _ _ => .ok { messages, hasNext := false }),
    .poll (.camera {}), .poll .leave, .poll .leave]

/-- A client reads for the first time and waits; the device is primed and has an alarm. -/
def sampleDelivery : List FeedEvent :=
  [.first 7 "front", .client 7 .ask, .client 7 (.read false)] ++ sampleCycle 0 [] ++
    sampleCycle 1 [sampleMessage] ++
    [.client 7 .wake, .client 7 (.read false), .client 7 .receive]

/-- The client that waits for the alarm has it once. -/
theorem alarms_delivered_once_sample :
    ∃ s client account,
      run step (start sampleCameras (by decide) (fun _ => {}) (·.serial) ⟨2, 0⟩) sampleDelivery =
        some s ∧
      s.clients 7 = some client ∧ client.account = some account ∧
      (account.received.map (·.sequence)).count 1 = 1 := by
  have hsome : (run step (start sampleCameras (by decide) (fun _ => {}) (·.serial) ⟨2, 0⟩)
      sampleDelivery).isSome = true := by
    decide +kernel
  obtain ⟨s, hs⟩ := Option.isSome_iff_exists.mp hsome
  have hstate : ∀ t ∈ run step (start sampleCameras (by decide) (fun _ => {}) (·.serial) ⟨2, 0⟩)
      sampleDelivery,
      t.clients 7 = some
        { camera := "front"
          cursor := 1
          account := some
            { received := [{ sequence := 1, id := "m1", occurredAt := 60, alarmType := 0,
                             category := "other", title := "", hasPicture := false }]
              due := [{ sequence := 1, record := { id := "m1", occurredAt := 60 } }] } } := by
    decide +kernel
  have hclient := hstate s hs
  have hdelivered := ((alarms_delivered_once hs hclient).1 _ rfl).2.2.1
  refine ⟨s, _, _, hs, hclient, rfl, ?_⟩
  exact (hdelivered _ List.mem_cons_self (Nat.le_refl 1)).resolve_right List.not_mem_nil

end FeedSystem

end Alarms

end EzvizBridge
