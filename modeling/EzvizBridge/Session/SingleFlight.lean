import EzvizBridge.Session.Locking

/-!
# Single flight

Any number of calls of `authed`, `refresh`, `current`, `update` and `adopt`, in any order of their
steps, with calls that are cancelled anywhere. A call that has sent a request goes on to the second
one only after the generation of the first is past.
-/

namespace EzvizBridge

namespace Session

/-! ### What a call knows -/

/-- At most `count` requests, with growing generations below `bound`. -/
structure Within (requests : List (EzvizToken × ℕ)) (count bound : ℕ) : Prop where
  length_le : requests.length ≤ count
  increasing : requests.Pairwise fun first second => first.2 < second.2
  below : ∀ request ∈ requests, request.2 < bound

namespace Within

variable {requests : List (EzvizToken × ℕ)} {count bound : ℕ}

theorem mono (h : Within requests count bound) {count' bound' : ℕ} (hcount : count ≤ count')
    (hbound : bound ≤ bound') : Within requests count' bound' :=
  ⟨h.length_le.trans hcount, h.increasing,
    fun request hmem => (h.below request hmem).trans_le hbound⟩

/-- A request with the generation that bounds the others. -/
theorem append (h : Within requests count bound) (token : EzvizToken) :
    Within (requests ++ [(token, bound)]) (count + 1) (bound + 1) where
  length_le := by
    rw [List.length_append]
    exact Nat.add_le_add_right h.length_le 1
  increasing := by
    refine List.pairwise_append.mpr ⟨h.increasing, List.pairwise_singleton _ _, ?_⟩
    intro request hmem last hlast
    rw [List.mem_singleton.mp hlast]
    exact h.below request hmem
  below := by
    intro request hmem
    rcases List.mem_append.mp hmem with hmem | hmem
    · exact (h.below request hmem).trans (Nat.lt_succ_self _)
    · rw [List.mem_singleton.mp hmem]
      exact Nat.lt_succ_self _

end Within

namespace State

variable {s s' : State} {id : ℕ}

/-- What a call knows of the store. -/
def Attends (s : State) (id : ℕ) (call : Call) : Prop :=
  match call.phase with
  | .ready attempt => attempt ≤ 1 ∧ Within call.requests attempt s.generation
  | .reading attempt token =>
    (attempt ≤ 1 ∧ Within call.requests attempt s.generation) ∧ id ∈ s.readers ∧ token = s.token
  | .requesting attempt seen =>
    attempt ≤ 1 ∧ Within call.requests (attempt + 1) (seen + 1) ∧ seen ≤ s.generation
  | .locking seen =>
    Within call.requests 1 (seen + 1) ∧ (call.kind = .authed → seen ≤ s.generation)
  | .joined seen task =>
    Within call.requests 1 (seen + 1) ∧ ∃ stage, s.tasks task = some ⟨.rotate seen, stage⟩
  | .done _ => ∃ bound, Within call.requests 2 bound

/-- The calls. -/
structure Serving (s : State) : Prop where
  attends : ∀ id call, s.calls id = some call → s.Attends id call
  sent : ∀ id call, s.calls id = some call → ∀ request ∈ call.requests, request ∈ s.reads
  reads : ∀ request ∈ s.reads, request ∈ s.installs

/-- The later state has the tasks of the earlier one, and a generation that is not older. -/
structure Extends (s s' : State) : Prop where
  generation : s.generation ≤ s'.generation
  installs : s.installs ⊆ s'.installs
  tasks : ∀ task work stage, s.tasks task = some ⟨work, stage⟩ →
    ∃ stage', s'.tasks task = some ⟨work, stage'⟩

/-- What a call knows stays true, as long as it keeps the slot that it reads. -/
theorem Attends.mono {call : Call} (h : s.Attends id call) (hx : s.Extends s')
    (hread : id ∈ s.readers → id ∈ s'.readers ∧ s'.token = s.token) : s'.Attends id call := by
  -- on the phase of the call; what it knows is of the past, or of the slot that it reads
  obtain ⟨kind, phase, requests⟩ := call
  cases phase with
  | ready attempt => exact ⟨h.1, h.2.mono le_rfl hx.generation⟩
  | reading attempt token =>
    obtain ⟨hready, hid, htoken⟩ := h
    obtain ⟨hid', htoken'⟩ := hread hid
    exact ⟨⟨hready.1, hready.2.mono le_rfl hx.generation⟩, hid', htoken.trans htoken'.symm⟩
  | requesting attempt seen => exact ⟨h.1, h.2.1, h.2.2.trans hx.generation⟩
  | locking seen => exact ⟨h.1, fun hkind => (h.2 hkind).trans hx.generation⟩
  | joined seen task =>
    obtain ⟨hwithin, stage, hstage⟩ := h
    exact ⟨hwithin, hx.tasks task _ stage hstage⟩
  | done result => exact h

/-- At most two requests, in any phase. -/
theorem Attends.within {call : Call} (h : s.Attends id call) :
    ∃ bound, Within call.requests 2 bound := by
  obtain ⟨kind, phase, requests⟩ := call
  cases phase with
  | ready attempt => exact ⟨_, h.2.mono (h.1.trans (Nat.le_succ 1)) le_rfl⟩
  | reading attempt token => exact ⟨_, h.1.2.mono (h.1.1.trans (Nat.le_succ 1)) le_rfl⟩
  | requesting attempt seen => exact ⟨_, h.2.1.mono (Nat.add_le_add_right h.1 1) le_rfl⟩
  | locking seen => exact ⟨_, h.1.mono (Nat.le_succ 1) le_rfl⟩
  | joined seen task => exact ⟨_, h.1.mono (Nat.le_succ 1) le_rfl⟩
  | done result => exact h

/-- A step of a task: the calls stay as they are. -/
theorem Serving.of_task (h : s.Serving) (hx : s.Extends s') (hcalls : s'.calls = s.calls)
    (hreaders : s'.readers = s.readers) (hreads : s'.reads = s.reads)
    (htoken : s'.token = s.token ∨ s.readers = ∅) : s'.Serving where
  attends := by
    -- a token that is replaced has no readers
    intro id call hid
    rw [hcalls] at hid
    refine (h.attends id call hid).mono hx ?_
    intro hread
    rcases htoken with htoken | hempty
    · exact ⟨hreaders ▸ hread, htoken⟩
    · rw [hempty] at hread
      exact absurd hread (Finset.notMem_empty id)
  sent := by
    rw [hcalls, hreads]
    exact h.sent
  reads := by
    rw [hreads]
    exact fun request hmem => hx.installs (h.reads request hmem)

/-- A step of a call: the other calls stay as they are. -/
theorem Serving.of_call (h : s.Serving) {call : Call}
    (hcalls : s'.calls = Function.update s.calls id (some call)) (hx : s.Extends s')
    (hreaders : ∀ j, j ≠ id → j ∈ s.readers → j ∈ s'.readers) (htoken : s'.token = s.token)
    (hreads : s.reads ⊆ s'.reads) (hinstalls : ∀ request ∈ s'.reads, request ∈ s'.installs)
    (hattends : s'.Attends id call) (hsent : ∀ request ∈ call.requests, request ∈ s'.reads) :
    s'.Serving where
  attends := by
    intro j other hj
    rw [hcalls] at hj
    -- the call itself, or another one
    rcases of_update_eq_some hj with ⟨rfl, rfl⟩ | ⟨hne, hj⟩
    · exact hattends
    · exact (h.attends j other hj).mono hx fun hread => ⟨hreaders j hne hread, htoken⟩
  sent := by
    intro j other hj request hmem
    rw [hcalls] at hj
    rcases of_update_eq_some hj with ⟨rfl, rfl⟩ | ⟨_, hj⟩
    · exact hsent request hmem
    · exact hreads (h.sent j other hj request hmem)
  reads := hinstalls

/-! ### Steps of a task -/

/-- A task that moves on does the same work. -/
theorem tasks_put {work : Work} {old new : Stage} (hid : s.tasks id = some ⟨work, old⟩) (task : ℕ)
    (other : Work) (stage : Stage) (h : s.tasks task = some ⟨other, stage⟩) :
    ∃ stage', Function.update s.tasks id (some ⟨work, new⟩) task = some ⟨other, stage'⟩ := by
  rcases eq_or_ne task id with rfl | hne
  · rw [hid, Option.some.injEq, Task.mk.injEq] at h
    obtain ⟨rfl, -⟩ := h
    exact ⟨new, Function.update_self _ _ _⟩
  · exact ⟨stage, (Function.update_of_ne hne _ _).trans h⟩

/-- A new task. -/
theorem tasks_new {work : Work} {new : Stage} (hid : s.tasks id = none) (task : ℕ) (other : Work)
    (stage : Stage) (h : s.tasks task = some ⟨other, stage⟩) :
    ∃ stage', Function.update s.tasks id (some ⟨work, new⟩) task = some ⟨other, stage'⟩ := by
  have hne : task ≠ id := by
    rintro rfl
    exact nomatch hid.symm.trans h
  exact ⟨stage, (Function.update_of_ne hne _ _).trans h⟩

/-- Most steps of a task leave the slot and its generation alone. -/
theorem Serving.put (h : s.Serving) {work : Work} {old new : Stage}
    (hid : s.tasks id = some ⟨work, old⟩)
    (htasks : s'.tasks = Function.update s.tasks id (some ⟨work, new⟩))
    (hgen : s'.generation = s.generation) (hinstalls : s'.installs = s.installs)
    (hcalls : s'.calls = s.calls) (hreaders : s'.readers = s.readers) (hreads : s'.reads = s.reads)
    (htoken : s'.token = s.token ∨ s.readers = ∅) : s'.Serving := by
  refine h.of_task ⟨hgen.ge, ?_, ?_⟩ hcalls hreaders hreads htoken
  · rw [hinstalls]
    exact List.Subset.refl _
  · rw [htasks]
    exact tasks_put hid

/-- A new task. -/
theorem Serving.start (h : s.Serving) {work : Work} (hs : s.start id work = some s') :
    s'.Serving := by
  unfold State.start at hs
  split at hs
  case h_2 => exact nomatch hs
  case h_1 hid =>
  obtain rfl := Option.some.inj hs
  exact h.of_task ⟨le_rfl, List.Subset.refl _, tasks_new hid⟩ rfl rfl rfl (.inl rfl)

/-- The task gets the lock. -/
theorem Serving.acquire (h : s.Serving) (hs : s.acquire id = some s') : s'.Serving := by
  unfold State.acquire at hs
  split at hs
  case h_2 => exact nomatch hs
  case h_1 work hid hfree =>
  obtain rfl := Option.some.inj hs
  exact h.put hid rfl rfl rfl rfl rfl rfl (.inl rfl)

/-- The task reads the token of the store. -/
theorem Serving.readToken (h : s.Serving) (hs : s.readToken id = some s') : s'.Serving := by
  unfold State.readToken at hs
  split at hs
  case h_3 => exact nomatch hs
  case h_1 seen hid _ =>
    split at hs
    all_goals
      obtain rfl := Option.some.inj hs
      exact h.put hid rfl rfl rfl rfl rfl rfl (.inl rfl)
  case h_2 change hid _ =>
    obtain rfl := Option.some.inj hs
    exact h.put hid rfl rfl rfl rfl rfl rfl (.inl rfl)

/-- The task sends its request. -/
theorem Serving.send (h : s.Serving) (hs : s.send id = some s') : s'.Serving := by
  unfold State.send at hs
  split at hs
  case h_2 => exact nomatch hs
  case h_1 seen current hid =>
  obtain rfl := Option.some.inj hs
  exact h.put hid rfl rfl rfl rfl rfl rfl (.inl rfl)

/-- The task gets its answer. -/
theorem Serving.answer (h : s.Serving) {reply : Except BridgeError RefreshReply}
    (hs : s.answer id reply = some s') : s'.Serving := by
  unfold State.answer at hs
  split at hs
  case h_2 => exact nomatch hs
  case h_1 seen current hid =>
  -- a reply that cannot be used ends the refresh, and otherwise its token is new
  split at hs
  case h_1 error herror =>
    obtain rfl := Option.some.inj hs
    exact h.put hid rfl rfl rfl rfl rfl rfl (.inl rfl)
  case h_2 updated hupdated =>
    obtain ⟨-, rfl⟩ := EventSystem.guarded hs
    exact h.put hid rfl rfl rfl rfl rfl rfl (.inl rfl)

/-- The task takes the staged token. -/
theorem Serving.takeStaged (h : s.Serving) {renamed : Bool}
    (hs : s.takeStaged id renamed = some s') : s'.Serving := by
  unfold State.takeStaged at hs
  split at hs
  case h_2 => exact nomatch hs
  case h_1 name hid =>
  -- the staged token is missing, or its file could not be renamed, or it is taken
  split at hs
  case h_1 error herror =>
    obtain rfl := Option.some.inj hs
    exact h.put hid rfl rfl rfl rfl rfl rfl (.inl rfl)
  case h_2 token htoken =>
    split at hs
    all_goals
      obtain rfl := Option.some.inj hs
      exact h.put hid rfl rfl rfl rfl rfl rfl (.inl rfl)

/-- The task writes the token file. -/
theorem Serving.write (h : s.Serving) {written : Written} (hs : s.write id written = some s') :
    s'.Serving := by
  unfold State.write at hs
  split at hs
  case h_2 => exact nomatch hs
  case h_1 work token hid =>
  split at hs
  all_goals
    obtain rfl := Option.some.inj hs
    exact h.put hid rfl rfl rfl rfl rfl rfl (.inl rfl)

/-- Nobody reads the slot that is written. -/
theorem Serving.swap (h : s.Serving) (hs : s.swap id = some s') : s'.Serving := by
  unfold State.swap at hs
  split at hs
  case h_2 => exact nomatch hs
  case h_1 work token hid =>
  obtain ⟨⟨-, hreaders⟩, rfl⟩ := EventSystem.guarded hs
  exact h.put hid rfl rfl rfl rfl rfl rfl (.inr hreaders)

/-- The task counts the generation up. -/
theorem Serving.bump (h : s.Serving) (hs : s.bump id = some s') : s'.Serving := by
  unfold State.bump at hs
  split at hs
  case h_2 => exact nomatch hs
  case h_1 work hid =>
  obtain rfl := Option.some.inj hs
  refine h.of_task ⟨?_, List.subset_append_left _ _, tasks_put hid⟩ rfl rfl rfl (.inl rfl)
  show s.generation ≤ if work.renews then s.generation + 1 else s.generation
  split
  · exact Nat.le_succ _
  · exact le_rfl

/-- The task lets go of the lock. -/
theorem Serving.release (h : s.Serving) (hs : s.release id = some s') : s'.Serving := by
  unfold State.release at hs
  split at hs
  case h_2 => exact nomatch hs
  case h_1 work result hid =>
  obtain rfl := Option.some.inj hs
  exact h.put hid rfl rfl rfl rfl rfl rfl (.inl rfl)

/-! ### Steps of a call -/

/-- A step of a call leaves the tasks and the contents of the store alone. -/
theorem Working.of_call (h : s.Working) (hstore : s'.toStore = s.toStore)
    (htasks : s'.tasks = s.tasks) (hlock : s'.lock = s.lock) (hwriter : s'.writer = s.writer)
    (hapart : s.readers = ∅ → s.writer ≠ none → s'.readers = ∅) : s'.Working where
  locked := by
    refine ⟨?_, ?_, ?_, ?_⟩
    · rw [htasks, hlock]
      exact h.locked.holds
    · rw [htasks, hlock]
      exact h.locked.owned
    · rw [htasks, hwriter]
      exact h.locked.writes
    · intro j hj
      rw [hwriter] at hj
      exact hapart (h.locked.apart j hj) (by rw [hj]; exact nofun)
  sound := by
    rw [hstore]
    exact h.sound
  rest := by
    rw [hstore, hlock]
    exact h.rest
  doing := by
    rw [hstore, htasks, hlock]
    exact h.doing
  past := by
    rw [htasks, hstore]
    exact h.past
  prompt := by
    rw [htasks]
    exact h.prompt

/-- While the slot is not locked for writing, it has the token of the generation. -/
theorem Working.installed (h : s.Working) (hwriter : s.writer = none) :
    (s.token, s.generation) ∈ s.installs := by
  -- the lock is free, or the task that has it says so
  cases hlock : s.lock with
  | none => exact (h.rest hlock).installed
  | some id =>
    obtain ⟨⟨work, stage⟩, htask⟩ := h.locked.owned id hlock
    have hholds := (h.locked.holds id _ htask).mpr hlock
    have hdoing := h.doing id _ htask hlock
    cases stage with
    | waiting => exact hholds.elim
    | holding => exact hdoing.1.installed
    | requesting current => exact hdoing.1.installed
    | sent current => exact hdoing.1.installed
    | publishing token => exact Store.Carries.installed hdoing
    | storing token => exact hdoing.1.installed
    -- the slot is locked while it is swapped
    | swapped => exact nomatch hwriter.symm.trans ((h.locked.writes id).mpr ⟨work, htask⟩)
    | finished result => exact hdoing.1.installed
    | ended result => exact hholds.elim

/-- A call that takes no part in reading the slot changes its phase. -/
theorem Serving.setCall (h : s.Serving) {call next : Call} (hid : s.calls id = some call)
    (hrequests : next.requests = call.requests) (hattends : s.Attends id next) :
    (s.setCall id next).Serving := by
  refine h.of_call rfl ⟨le_rfl, List.Subset.refl _, fun _ _ stage hstage => ⟨stage, hstage⟩⟩
    (fun _ _ hread => hread) rfl (List.Subset.refl _) h.reads hattends ?_
  rw [hrequests]
  exact h.sent id call hid

/-- The tasks, the store and the calls. -/
structure Kept (s : State) : Prop where
  working : s.Working
  serving : s.Serving

theorem Kept.setCall (h : s.Kept) {call next : Call} (hid : s.calls id = some call)
    (hrequests : next.requests = call.requests) (hattends : s.Attends id next) :
    (s.setCall id next).Kept :=
  ⟨h.working.of_call rfl rfl rfl rfl fun hempty _ => hempty,
    h.serving.setCall hid hrequests hattends⟩

/-- A new call has made no request. -/
theorem Kept.call (h : s.Kept) {kind : CallKind} (hs : s.call id kind = some s') : s'.Kept := by
  unfold State.call at hs
  split at hs
  case h_2 => exact nomatch hs
  case h_1 hid =>
  obtain rfl := Option.some.inj hs
  -- without requests any bound holds
  have hnone : ∀ count bound, Within [] count bound := fun count bound =>
    ⟨Nat.zero_le _, List.Pairwise.nil, nofun⟩
  refine ⟨h.working.of_call rfl rfl rfl rfl fun hempty _ => hempty, ?_⟩
  refine h.serving.of_call rfl ⟨le_rfl, List.Subset.refl _, fun _ _ stage hstage => ⟨stage, hstage⟩⟩
    (fun _ _ hread => hread) rfl (List.Subset.refl _) h.serving.reads ?_ nofun
  cases kind with
  | authed => exact ⟨Nat.zero_le _, hnone _ _⟩
  | refresh seen => exact ⟨hnone _ _, nofun⟩
  | current => exact ⟨Nat.zero_le _, hnone _ _⟩

/-- The call reads the slot, which keeps writers out. -/
theorem Kept.read (h : s.Kept) (hs : s.read id = some s') : s'.Kept := by
  unfold State.read at hs
  split at hs
  case h_2 => exact nomatch hs
  case h_1 kind attempt requests hid hwriter =>
  obtain rfl := Option.some.inj hs
  have hready := h.serving.attends id _ hid
  have hsent := h.serving.sent id _ hid
  constructor
  · exact h.working.of_call rfl rfl rfl rfl fun _ hne => absurd hwriter hne
  · refine h.serving.of_call rfl
      ⟨le_rfl, List.Subset.refl _, fun _ _ stage hstage => ⟨stage, hstage⟩⟩
      (fun _ _ hread => Finset.mem_insert_of_mem hread) rfl (List.Subset.refl _) h.serving.reads ?_
      hsent
    exact ⟨hready, Finset.mem_insert_self _ _, rfl⟩

/-- The reader has kept the writer out, so the generation is the one of the token. -/
theorem Kept.loadGeneration (h : s.Kept) (hs : s.loadGeneration id = some s') : s'.Kept := by
  unfold State.loadGeneration at hs
  split at hs
  case h_2 => exact nomatch hs
  case h_1 kind attempt token requests hid =>
  obtain rfl := Option.some.inj hs
  obtain ⟨⟨hattempt, hwithin⟩, hread, rfl⟩ := h.serving.attends id _ hid
  -- the call reads the slot, so nobody writes it
  have hwriter : s.writer = none := by
    rw [Option.eq_none_iff_forall_ne_some]
    intro j hj
    rw [h.working.locked.apart j hj] at hread
    exact Finset.notMem_empty id hread
  have hinstalled := h.working.installed hwriter
  -- the pair that was read is one that was installed
  have hreads : ∀ request ∈ s.reads ++ [(s.token, s.generation)], request ∈ s.installs := by
    intro request hmem
    rcases List.mem_append.mp hmem with hmem | hmem
    · exact h.serving.reads request hmem
    · exact List.mem_singleton.mp hmem ▸ hinstalled
  have hold : ∀ request ∈ requests, request ∈ s.reads ++ [(s.token, s.generation)] :=
    fun request hmem => List.mem_append_left _ (h.serving.sent id _ hid request hmem)
  constructor
  · exact h.working.of_call rfl rfl rfl rfl fun _ hne => absurd hwriter hne
  · refine h.serving.of_call rfl
      ⟨le_rfl, List.Subset.refl _, fun _ _ stage hstage => ⟨stage, hstage⟩⟩
      (fun j hne hj => Finset.mem_erase.mpr ⟨hne, hj⟩) rfl
        (List.subset_append_left _ _) hreads ?_ ?_
    -- only an authorised call makes its request with it
    · cases kind with
      | authed => exact ⟨hattempt, hwithin.append s.token, le_rfl⟩
      | refresh seen => exact ⟨_, hwithin.mono (hattempt.trans (Nat.le_succ 1)) le_rfl⟩
      | current => exact ⟨_, hwithin.mono (hattempt.trans (Nat.le_succ 1)) le_rfl⟩
    · cases kind with
      | authed =>
        intro request hmem
        rcases List.mem_append.mp hmem with hmem | hmem
        · exact hold request hmem
        · exact List.mem_append_right _ hmem
      | refresh seen => exact hold
      | current => exact hold

/-- The call gets its answer. -/
theorem Kept.reply (h : s.Kept) {answer : Except BridgeError (ℕ × Option ℤ)}
    (hs : s.reply id answer = some s') : s'.Kept := by
  unfold State.reply at hs
  split at hs
  case h_2 => exact nomatch hs
  case h_1 kind attempt seen requests hid =>
  obtain rfl := Option.some.inj hs
  obtain ⟨hattempt, hwithin, hseen⟩ := h.serving.attends id _ hid
  refine h.setCall hid rfl ?_
  -- a call that is done claims nothing more
  have hdone : ∀ result, s.Attends id ⟨kind, .done result, requests⟩ := fun result =>
    ⟨_, hwithin.mono (Nat.add_le_add_right hattempt 1) le_rfl⟩
  split
  case h_1 error => exact hdone _
  case h_2 status code =>
  split
  case isTrue => exact hdone _
  case isFalse =>
  -- a session that is refused the first time is refreshed
  split
  case isTrue hzero =>
    subst hzero
    exact ⟨hwithin, fun _ => hseen⟩
  case isFalse => exact hdone _

/-- The refresh returns. If it succeeded, the generation that the call has seen is past. -/
theorem attends_resume {kind : CallKind} {requests : List (EzvizToken × ℕ)} {seen : ℕ}
    (hwithin : Within requests 1 (seen + 1)) {result : Except BridgeError Unit}
    (hpast : kind = .authed → result = .ok () → seen < s.generation) :
    s.Attends id ⟨kind, kind.resume result, requests⟩ := by
  have hdone : ∀ result, s.Attends id ⟨kind, .done result, requests⟩ := fun result =>
    ⟨_, hwithin.mono (Nat.le_succ 1) le_rfl⟩
  -- only an authorised call goes on after the refresh
  cases kind with
  | refresh _ => exact hdone _
  | current => exact hdone _
  | authed =>
    cases result with
    | error error => exact hdone _
    | ok _ => exact ⟨le_rfl, hwithin.mono le_rfl (hpast rfl rfl)⟩

/-- The call gets the lock of the flight. -/
theorem Kept.enter {task : ℕ} (h : s.Kept) (hs : s.enter id task = some s') : s'.Kept := by
  unfold State.enter at hs
  split at hs
  case h_2 => exact nomatch hs
  case h_1 kind seen requests hid hfree htask =>
  obtain ⟨hwithin, hseen⟩ := h.serving.attends id _ hid
  split at hs
  -- the generation has changed while it waited, so the session is new
  case isTrue hne =>
    obtain rfl := Option.some.inj hs
    refine h.setCall hid rfl (attends_resume hwithin ?_)
    exact fun hkind _ => lt_of_le_of_ne (hseen hkind) (Ne.symm hne)
  case isFalse heq =>
  -- a failure that is recent is the answer
  split at hs
  case h_1 error herror =>
    obtain rfl := Option.some.inj hs
    exact h.setCall hid rfl (attends_resume hwithin nofun)
  case h_2 hnone =>
    -- the new task has the lock; nothing else has changed
    obtain rfl := Option.some.inj hs
    have hsent := h.serving.sent id _ hid
    have hworking : (s.setCall id ⟨kind, .joined seen task, requests⟩).Working :=
      h.working.of_call rfl rfl rfl rfl fun hempty _ => hempty
    constructor
    · exact hworking.take hfree (not_not.mp heq).symm
    · refine h.serving.of_call rfl ⟨le_rfl, List.Subset.refl _, tasks_new htask⟩
        (fun _ _ hread => hread) rfl (List.Subset.refl _) h.serving.reads ?_ hsent
      exact ⟨hwithin, _, Function.update_self _ _ _⟩

/-- The refresh that the call waits for has ended. -/
theorem Kept.join (h : s.Kept) (hs : s.join id = some s') : s'.Kept := by
  unfold State.join at hs
  split at hs
  case h_2 => exact nomatch hs
  case h_1 kind seen task requests hid =>
  obtain ⟨hwithin, stage, hstage⟩ := h.serving.attends id _ hid
  split at hs
  case h_2 => exact nomatch hs
  case h_1 work result htask =>
  obtain rfl := Option.some.inj hs
  refine h.setCall hid rfl (attends_resume hwithin ?_)
  intro _ hok
  -- the task is the refresh that it has joined
  rw [htask, Option.some.injEq, Task.mk.injEq] at hstage
  obtain ⟨rfl, -⟩ := hstage
  exact h.working.past task _ (hok ▸ htask)

/-- A cancelled call lets go of the slot; its task goes on. -/
theorem Kept.cancel (h : s.Kept) (hs : s.cancel id = some s') : s'.Kept := by
  unfold State.cancel at hs
  split at hs
  case h_1 => exact nomatch hs
  case h_2 => exact nomatch hs
  case h_3 kind phase requests hdone hid =>
  obtain rfl := Option.some.inj hs
  have hsent := h.serving.sent id _ hid
  have hwithin := (h.serving.attends id _ hid).within
  constructor
  · refine h.working.of_call rfl rfl rfl rfl ?_
    intro hempty _
    show s.readers.erase id = ∅
    rw [hempty, Finset.erase_empty]
  · exact h.serving.of_call rfl
      ⟨le_rfl, List.Subset.refl _, fun _ _ stage hstage => ⟨stage, hstage⟩⟩
      (fun j hne hj => Finset.mem_erase.mpr ⟨hne, hj⟩) rfl (List.Subset.refl _) h.serving.reads
      hwithin hsent

/-! ### Steps of the world -/

/-- What the task with the lock knows is not about the tokens that are staged later. -/
theorem doing_enrol {S : Store} {work : Work} {stage : Stage} (h : S.Doing work stage)
    (name : String) {token : EzvizToken} (hfresh : token.rfSessionId ∉ S.issued) :
    Store.Doing
      { S with
        staged := Function.update S.staged name (some token)
        issued := insert token.rfSessionId S.issued } work stage := by
  have hrest : S.Rest → Store.Rest
      { S with
        staged := Function.update S.staged name (some token)
        issued := insert token.rfSessionId S.issued } := fun hr =>
    ⟨hr.live.enrol name hfresh, hr.saved, hr.installed⟩
  -- at each stage the task knows of the tokens of before only
  cases stage with
  | waiting => trivial
  | holding => exact ⟨hrest h.1, h.2⟩
  | requesting current => exact ⟨hrest h.1, h.2⟩
  | sent current => exact ⟨hrest h.1, h.2⟩
  | publishing carried =>
    have hcarries : S.Carries work carried := h
    exact ⟨hcarries.live.enrol name hfresh, hcarries.current, hcarries.installed, hcarries.ids⟩
  | storing carried =>
    exact ⟨⟨h.1.live.enrol name hfresh, h.1.current, h.1.installed, h.1.ids⟩, h.2⟩
  | swapped => exact ⟨h.1.enrol name hfresh, h.2⟩
  | finished result => exact ⟨hrest h.1, h.2⟩
  | ended result => trivial

/-- A token is staged, with a session id that was not issued before. -/
theorem Kept.enrol (h : s.Kept) {name : String} {token : EzvizToken}
    (hs : s.enrol name token = some s') : s'.Kept := by
  obtain ⟨hfresh, rfl⟩ := EventSystem.guarded hs
  constructor
  · refine ⟨⟨h.working.locked.holds, h.working.locked.owned, h.working.locked.writes,
      h.working.locked.apart⟩, h.working.sound.enrol name hfresh, ?_, ?_, h.working.past,
      h.working.prompt⟩
    · intro hfree
      have hr := h.working.rest hfree
      exact ⟨hr.live.enrol name hfresh, hr.saved, hr.installed⟩
    · intro j task hj hlock
      exact doing_enrol (h.working.doing j task hj hlock) name hfresh
  · exact h.serving.of_task ⟨le_rfl, List.Subset.refl _, fun _ _ stage hstage => ⟨stage, hstage⟩⟩
      rfl rfl rfl (.inl rfl)

/-- The clock and what EZVIZ takes back are nobody's business. -/
theorem Kept.of_eq (h : s.Kept) (hstore : s'.toStore = s.toStore) (htasks : s'.tasks = s.tasks)
    (hlock : s'.lock = s.lock) (hwriter : s'.writer = s.writer) (hreaders : s'.readers = s.readers)
    (hcalls : s'.calls = s.calls) (hreads : s'.reads = s.reads) : s'.Kept := by
  constructor
  · exact h.working.of_call hstore htasks hlock hwriter fun hempty _ => hreaders.trans hempty
  · refine h.serving.of_task ⟨?_, ?_, ?_⟩ hcalls hreaders hreads (.inl ?_)
    · rw [hstore]
    · rw [hstore]
      exact List.Subset.refl _
    · rw [htasks]
      exact fun _ _ stage hstage => ⟨stage, hstage⟩
    · rw [hstore]

/-! ### Runs -/

/-- What one step preserves. -/
theorem Kept.step (h : s.Kept) {event : Event} (hs : Session.step s event = some s') :
    s'.Kept := by
  -- on the event: those of the tasks, those of the calls, and those of the world
  cases event with
  | update task change => exact ⟨h.working.start hs nofun, h.serving.start hs⟩
  | adopt task name => exact ⟨h.working.start hs nofun, h.serving.start hs⟩
  | acquire task => exact ⟨h.working.acquire hs, h.serving.acquire hs⟩
  | readToken task => exact ⟨h.working.readToken hs, h.serving.readToken hs⟩
  | send task => exact ⟨h.working.send hs, h.serving.send hs⟩
  | answer task reply => exact ⟨h.working.answer hs, h.serving.answer hs⟩
  | takeStaged task renamed => exact ⟨h.working.takeStaged hs, h.serving.takeStaged hs⟩
  | write task written => exact ⟨h.working.write hs, h.serving.write hs⟩
  | swap task => exact ⟨h.working.swap hs, h.serving.swap hs⟩
  | bump task => exact ⟨h.working.bump hs, h.serving.bump hs⟩
  | release task => exact ⟨h.working.release hs, h.serving.release hs⟩
  | call id kind => exact h.call hs
  | read id => exact h.read hs
  | loadGeneration id => exact h.loadGeneration hs
  | reply id answer => exact h.reply hs
  | enter id task => exact h.enter hs
  | join id => exact h.join hs
  | cancel id => exact h.cancel hs
  | enrol name token => exact h.enrol hs
  | consume rfSessionId =>
    obtain rfl := Option.some.inj hs
    exact h.of_eq rfl rfl rfl rfl rfl rfl rfl
  | tick duration =>
    obtain rfl := Option.some.inj hs
    exact h.of_eq rfl rfl rfl rfl rfl rfl rfl

/-- A store that was just loaded has no tasks and no calls. -/
theorem kept_load (token : EzvizToken) (consumed issued : Finset String) :
    (load token consumed issued).Kept :=
  ⟨working_load token consumed issued, ⟨nofun, nofun, nofun⟩⟩

theorem Kept.run {token : EzvizToken} {consumed issued : Finset String} {events : List Event}
    (hrun : EventSystem.run Session.step (load token consumed issued) events = some s) : s.Kept :=
  EventSystem.run_keeps State.Kept (fun _ _ _ hk hs => hk.step hs)
    (kept_load token consumed issued) hrun

/-! ### Results -/

/-- A `rotate` is in progress. -/
def Rotating (s : State) (id : ℕ) : Prop :=
  ∃ seen stage, s.tasks id = some ⟨.rotate seen, stage⟩ ∧ ∀ result, stage ≠ .ended result

/-- A refresh in progress has the lock. -/
theorem Working.lock_of_rotating (h : s.Working) (hid : s.Rotating id) : s.lock = some id := by
  obtain ⟨seen, stage, htask, hended⟩ := hid
  apply (h.locked.holds id _ htask).mp
  cases stage with
  | waiting => exact absurd htask (h.prompt id seen)
  | ended result => exact absurd rfl (hended result)
  | holding | requesting | sent | publishing | storing | swapped | finished => trivial

/-- While the lock is free, every pair that EZVIZ has answered with has reached the memory. -/
theorem Working.installed_of_rotated (h : s.Working) (hfree : s.lock = none) {old : String}
    {pair : String × String} (hrot : Entry.rotated old pair ∈ s.log) : s.Installed pair := by
  have hrest := h.rest hfree
  rcases hrest.live.kept old pair hrot with hin | rfl
  · exact hin
  · exact ⟨s.token, s.generation, hrest.installed, rfl⟩

end State

open State in
/-- Any run of the store: at most one refresh is in progress; it is sent for the generation that its
caller has seen; a refresh token that was replaced is not sent or stored again, and the pair that
replaces it is not lost; `current` returns what was installed, with its generation; the file follows
the memory; and a call sends its second request with a newer generation. -/
theorem refresh_single_flight {token : EzvizToken} {consumed issued : Finset String}
    {events : List Event} {s : State}
    (hrun : EventSystem.run step (load token consumed issued) events = some s) :
    (∀ i j, s.Rotating i → s.Rotating j → i = j) ∧
      (∀ id call seen task, s.calls id = some call → call.phase = .joined seen task →
        ∃ stage, s.tasks task = some ⟨.rotate seen, stage⟩) ∧
      (∀ rfSessionId seen generation,
        Entry.sent rfSessionId seen generation ∈ s.log → seen = generation) ∧
      s.log.Pairwise Entry.Respects ∧
      (s.lock = none → ∀ old pair, Entry.rotated old pair ∈ s.log → s.Installed pair) ∧
      (∀ read ∈ s.reads, read ∈ s.installs) ∧
      (∀ first second generation, (first, generation) ∈ s.installs →
        (second, generation) ∈ s.installs → first.ids = second.ids) ∧
      (s.lock = none → s.unsaved = false → s.file = s.token) ∧
      (∀ id call, s.calls id = some call →
        call.requests.length ≤ 2 ∧
          (call.requests.Pairwise fun first second => first.2 < second.2) ∧
          ∀ request ∈ call.requests, request ∈ s.reads) := by
  -- the invariants of the run, and their readings
  obtain ⟨hworking, hserving⟩ := Kept.run hrun
  refine ⟨?_, ?_, hworking.sound.sent_current, hworking.sound.ordered, ?_, hserving.reads,
    hworking.sound.installs_ids, ?_, ?_⟩
  · intro i j hi hj
    exact Option.some.inj
      ((hworking.lock_of_rotating hi).symm.trans (hworking.lock_of_rotating hj))
  · rintro id ⟨kind, phase, requests⟩ seen task hid rfl
    exact (hserving.attends id _ hid).2
  · intro hfree old pair hrot
    exact hworking.installed_of_rotated hfree hrot
  · intro hfree hsaved
    exact (hworking.rest hfree).saved hsaved
  · intro id call hid
    obtain ⟨bound, hwithin⟩ := (hserving.attends id call hid).within
    exact ⟨hwithin.length_le, hwithin.increasing, hserving.sent id call hid⟩

/-- A token file of an enrolment. -/
def sampleToken : EzvizToken :=
  { sessionId := "session-0-0123456789"
    rfSessionId := "refresh-0-0123456789"
    apiUrl := "apiieu.ezvizlife.com"
    featureCode := some "feature" }

/-- Two calls find the session expired. The caller of the refresh is cancelled while it is under
way, an `update` waits for it and fails to write the file, and the other call goes on with the new
token. -/
def sampleEvents : List Event :=
  let expired : Except BridgeError (ℕ × Option ℤ) := .ok (200, some 99997)
  let granted : Except BridgeError RefreshReply :=
    .ok ⟨200, some 200, some (some "session-1-0123456789", some "refresh-1-0123456789")⟩
  [.call 0 .authed, .call 1 .authed, .read 0, .read 1, .loadGeneration 0, .loadGeneration 1,
    .reply 0 expired, .reply 1 expired, .enter 0 0, .update 1 (.setServiceUrls "urls"),
    .readToken 0, .send 0, .cancel 0, .answer 0 granted, .write 0 .saved, .swap 0, .bump 0,
    .release 0, .acquire 1, .readToken 1, .write 1 (.failed false), .swap 1, .bump 1, .release 1,
    .enter 1 2, .read 1, .loadGeneration 1, .reply 1 (.ok (200, some 200))]

open State in
/-- A call is refused, its session is refreshed, and its second request is made with the new token.
-/
theorem refresh_single_flight_sample :
    ∃ s, EventSystem.run step (load sampleToken ∅ ∅) sampleEvents = some s ∧
      (s.generation = 1 ∧ s.lock = none ∧
        (s.calls 1).map (fun call => call.requests.map Prod.snd) = some [0, 1] ∧
        s.token.serviceUrls = some "urls" ∧ s.file.serviceUrls = none) ∧
      (∀ i j, s.Rotating i → s.Rotating j → i = j) ∧ s.log.Pairwise Entry.Respects ∧
      (∀ old pair, Entry.rotated old pair ∈ s.log → s.Installed pair) := by
  have hsome : (EventSystem.run step (load sampleToken ∅ ∅) sampleEvents).isSome := by
    decide +kernel
  have hfacts : ∀ s ∈ EventSystem.run step (load sampleToken ∅ ∅) sampleEvents,
      s.generation = 1 ∧ s.lock = none ∧
        (s.calls 1).map (fun call => call.requests.map Prod.snd) = some [0, 1] ∧
        s.token.serviceUrls = some "urls" ∧ s.file.serviceUrls = none := by
    decide +kernel
  obtain ⟨s, hs⟩ := Option.isSome_iff_exists.mp hsome
  obtain ⟨hone, -, -, hordered, hkept, -⟩ := refresh_single_flight hs
  exact ⟨s, hs, hfacts s hs, hone, hordered, hkept (hfacts s hs).2.1⟩

end Session

end EzvizBridge
