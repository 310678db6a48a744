import EzvizBridge.Session.Custody

/-!
# The task with the lock

Only the task with the lock changes the contents of the store, so every other task sees them at
rest: a task that takes the lock finds in memory the token that counts, and for a refresh the
generation is still the one that its caller has seen.
-/

namespace EzvizBridge

namespace Session

/-! ### What a task knows -/

/-- A refresh is for the generation of the store. -/
def Work.Current (generation : ℕ) : Work → Prop
  | .rotate seen => seen = generation
  | .update _ | .adopt _ => True

/-- A refresh that succeeded is over: its generation is past. -/
def Work.Past (generation : ℕ) : Work → Prop
  | .rotate seen => seen < generation
  | .update _ | .adopt _ => True

/-- The task is about to write the token. -/
structure Store.Carries (S : Store) (work : Work) (token : EzvizToken) : Prop where
  live : S.Live token
  current : work.Current S.generation
  installed : (S.token, S.generation) ∈ S.installs
  ids : work.renews = false → token.ids = S.token.ids

/-- What the task with the lock knows of the store. -/
def Store.Doing (S : Store) (work : Work) : Stage → Prop
  | .waiting | .ended _ => True
  | .holding => S.Rest ∧ work.Current S.generation
  | .requesting current | .sent current =>
    S.Rest ∧ work.Current S.generation ∧ current = S.token
  | .publishing token => S.Carries work token
  | .storing token => S.Carries work token ∧ (S.unsaved = false → S.file = token)
  | .swapped =>
    S.Live S.token ∧ work.Current S.generation ∧ (S.unsaved = false → S.file = S.token) ∧
      (work.renews = false →
        ∃ token, (token, S.generation) ∈ S.installs ∧ token.ids = S.token.ids)
  | .finished result => S.Rest ∧ (result = .ok () → work.Past S.generation)

namespace State

variable {s s' : State} {id : ℕ}

/-- The task with the lock is the only one that holds, and the writer of the slot is that task. -/
structure Locked (s : State) : Prop where
  holds : ∀ id task, s.tasks id = some task → (task.stage.Holds ↔ s.lock = some id)
  owned : ∀ id, s.lock = some id → ∃ task, s.tasks id = some task
  writes : ∀ id, s.writer = some id ↔ ∃ work, s.tasks id = some ⟨work, .swapped⟩
  apart : ∀ id, s.writer = some id → s.readers = ∅

/-- The tasks and the contents of the store. -/
structure Working (s : State) : Prop where
  locked : s.Locked
  sound : s.toStore.Sound
  rest : s.lock = none → s.toStore.Rest
  doing : ∀ id task, s.tasks id = some task → s.lock = some id →
    s.toStore.Doing task.work task.stage
  past : ∀ id work, s.tasks id = some ⟨work, .ended (.ok ())⟩ → work.Past s.generation
  /-- A refresh has the lock from the start. -/
  prompt : ∀ id seen, s.tasks id ≠ some ⟨.rotate seen, .waiting⟩

theorem working_load (token : EzvizToken) (consumed issued : Finset String) :
    (load token consumed issued).Working where
  locked :=
    ⟨fun _ _ h => (nomatch h), fun _ h => (nomatch h), by simp [load], fun _ h => (nomatch h)⟩
  sound := by
    refine ⟨List.Pairwise.nil, fun _ _ _ h => (nomatch h), ?_, ?_, ?_, fun _ _ h => (nomatch h),
      fun _ _ h => (nomatch h), fun _ _ _ _ h => (nomatch h)⟩
    · intro found generation hmem
      exact (Prod.mk.inj (List.mem_singleton.mp hmem)).2.le
    · intro found other generation hfound hother
      rw [(Prod.mk.inj (List.mem_singleton.mp hfound)).1,
        (Prod.mk.inj (List.mem_singleton.mp hother)).1]
    · rintro rf ⟨pair, hpair⟩
      exact nomatch hpair
  rest := by
    intro _
    refine ⟨⟨Finset.mem_insert_self _ _, ?_, fun _ _ h => (nomatch h), fun _ _ h => (nomatch h)⟩,
      fun _ => rfl, List.mem_singleton_self _⟩
    rintro ⟨pair, hpair⟩
    exact nomatch hpair
  doing := fun _ _ h => (nomatch h)
  past := fun _ _ h => (nomatch h)
  prompt := fun _ _ h => (nomatch h)

/-! ### The lock -/

/-- The slot is only locked for writing in the one stage. -/
theorem Locked.writer_eq_none (h : s.Locked) {work : Work} {stage : Stage}
    (hid : s.tasks id = some ⟨work, stage⟩) (hholds : stage.Holds) (hne : stage ≠ .swapped) :
    s.writer = none := by
  rw [Option.eq_none_iff_forall_ne_some]
  intro j hj
  obtain ⟨other, hother⟩ := (h.writes j).mp hj
  -- the writer has the lock, so it is this task
  have hlock := (h.holds j _ hother).mp trivial
  obtain rfl := Option.some.inj (((h.holds id _ hid).mp hholds).symm.trans hlock)
  rw [hid, Option.some.injEq, Task.mk.injEq] at hother
  exact hne hother.2

theorem Locked.writer_of_free (h : s.Locked) (hfree : s.lock = none) : s.writer = none := by
  rw [Option.eq_none_iff_forall_ne_some]
  intro j hj
  obtain ⟨work, hwork⟩ := (h.writes j).mp hj
  exact absurd ((h.holds j _ hwork).mp trivial) (by rw [hfree]; exact nofun)

/-- The task with the lock moves on. -/
theorem Locked.move (h : s.Locked) {work : Work} {old new : Stage}
    (hid : s.tasks id = some ⟨work, old⟩) (hold : old.Holds)
    (htasks : s'.tasks = Function.update s.tasks id (some ⟨work, new⟩)) (hnew : new.Holds)
    (hlock : s'.lock = s.lock)
    (hwriter : ∀ j, s'.writer = some j ↔ new = .swapped ∧ j = id)
    (hreaders : new = .swapped → s'.readers = ∅) : s'.Locked where
  holds := by
    intro j task hj
    rw [htasks] at hj
    rw [hlock]
    rcases of_update_eq_some hj with ⟨rfl, rfl⟩ | ⟨_, hj⟩
    · exact ⟨fun _ => (h.holds j _ hid).mp hold, fun _ => hnew⟩
    · exact h.holds j task hj
  owned := by
    intro j hj
    rw [hlock, (h.holds id _ hid).mp hold] at hj
    obtain rfl := Option.some.inj hj
    exact ⟨_, by rw [htasks, Function.update_self]⟩
  writes := by
    intro j
    rw [hwriter, htasks]
    constructor
    -- the writer is the task that moves
    · rintro ⟨rfl, rfl⟩
      exact ⟨work, Function.update_self _ _ _⟩
    · rintro ⟨other, hother⟩
      rcases of_update_eq_some hother with ⟨rfl, heq⟩ | ⟨hne, hother⟩
      · exact ⟨(Task.mk.inj heq).2, rfl⟩
      · -- another task in that stage would have the lock as well
        have hlock' := (h.holds j _ hother).mp trivial
        rw [(h.holds id _ hid).mp hold] at hlock'
        exact absurd (Option.some.inj hlock').symm hne
  apart := by
    intro j hj
    exact hreaders ((hwriter j).mp hj).1

/-- The task with the lock moves on: what is left to show is what it knows then. -/
theorem Working.move (h : s.Working) {work : Work} {old new : Stage}
    (hid : s.tasks id = some ⟨work, old⟩) (hold : old.Holds)
    (htasks : s'.tasks = Function.update s.tasks id (some ⟨work, new⟩)) (hnew : new.Holds)
    (hlock : s'.lock = s.lock)
    (hwriter : ∀ j, s'.writer = some j ↔ new = .swapped ∧ j = id)
    (hreaders : new = .swapped → s'.readers = ∅) (hgen : s.generation ≤ s'.generation)
    (hsound : s'.toStore.Sound) (hdoing : s'.toStore.Doing work new) : s'.Working where
  locked := h.locked.move hid hold htasks hnew hlock hwriter hreaders
  sound := hsound
  rest := by
    intro hfree
    rw [hlock, (h.locked.holds id _ hid).mp hold] at hfree
    exact nomatch hfree
  doing := by
    intro j task hj hlock'
    rw [hlock, (h.locked.holds id _ hid).mp hold] at hlock'
    obtain rfl := Option.some.inj hlock'
    rw [htasks, Function.update_self] at hj
    obtain rfl := Option.some.inj hj
    exact hdoing
  past := by
    intro j other hj
    rw [htasks] at hj
    rcases of_update_eq_some hj with ⟨rfl, heq⟩ | ⟨_, hj⟩
    · -- a task that has ended does not hold
      rw [(Task.mk.inj heq).2] at hnew
      exact hnew.elim
    -- generations only grow
    · have hpast := h.past j other hj
      cases other with
      | rotate seen => exact lt_of_lt_of_le hpast hgen
      | update _ => trivial
      | adopt _ => trivial
  prompt := by
    intro j seen hj
    rw [htasks] at hj
    rcases of_update_eq_some hj with ⟨rfl, heq⟩ | ⟨_, hj⟩
    · rw [(Task.mk.inj heq).2] at hnew
      exact hnew.elim
    · exact h.prompt j seen hj

/-! ### Steps of a task -/

/-- A task that waits is added: nobody has to know. -/
theorem Working.start (h : s.Working) {work : Work} (hs : s.start id work = some s')
    (hwork : ∀ seen, work ≠ .rotate seen) : s'.Working := by
  unfold State.start at hs
  split at hs
  case h_2 => exact nomatch hs
  case h_1 hid =>
  obtain rfl := Option.some.inj hs
  -- the lock belongs to another task
  have hother : s.lock ≠ some id := by
    intro hlock
    obtain ⟨task, htask⟩ := h.locked.owned id hlock
    exact nomatch hid.symm.trans htask
  refine ⟨⟨?_, ?_, ?_, h.locked.apart⟩, h.sound, h.rest, ?_, ?_, ?_⟩
  · intro j task hj
    rcases of_update_eq_some hj with ⟨rfl, rfl⟩ | ⟨_, hj⟩
    · exact ⟨False.elim, fun hlock => hother hlock⟩
    · exact h.locked.holds j task hj
  · intro j hj
    obtain ⟨task, htask⟩ := h.locked.owned j hj
    have hne : j ≠ id := fun heq => hother (heq ▸ hj)
    exact ⟨task, (Function.update_of_ne hne _ _).trans htask⟩
  · intro j
    rw [show (s.put id work .waiting).writer = s.writer from rfl, h.locked.writes j]
    constructor
    · rintro ⟨found, hfound⟩
      have hne : j ≠ id := by
        rintro rfl
        exact nomatch hid.symm.trans hfound
      exact ⟨found, (Function.update_of_ne hne _ _).trans hfound⟩
    · rintro ⟨found, hfound⟩
      rcases of_update_eq_some hfound with ⟨_, heq⟩ | ⟨_, hfound⟩
      · exact nomatch (Task.mk.inj heq).2
      · exact ⟨found, hfound⟩
  · intro j task hj hlock
    rcases of_update_eq_some hj with ⟨_, rfl⟩ | ⟨_, hj⟩
    · trivial
    · exact h.doing j task hj hlock
  · intro j found hj
    rcases of_update_eq_some hj with ⟨_, heq⟩ | ⟨_, hj⟩
    · exact nomatch (Task.mk.inj heq).2
    · exact h.past j found hj
  · intro j seen hj
    rcases of_update_eq_some hj with ⟨_, heq⟩ | ⟨_, hj⟩
    · exact hwork seen (Task.mk.inj heq).1
    · exact h.prompt j seen hj

/-- A task takes the free lock, whether it has waited or is new. -/
theorem Working.take (h : s.Working) {work : Work} (hfree : s.lock = none)
    (hwork : work.Current s.generation) :
    Working { s.put id work .holding with lock := some id } := by
  -- nobody else holds
  have hidle : ∀ j task, s.tasks j = some task → ¬task.stage.Holds := by
    intro j task hj hholds
    exact nomatch hfree.symm.trans ((h.locked.holds j task hj).mp hholds)
  have hwriter := h.locked.writer_of_free hfree
  refine ⟨⟨?_, ?_, ?_, h.locked.apart⟩, h.sound, nofun, ?_, ?_, ?_⟩
  · intro j task hj
    rcases of_update_eq_some hj with ⟨rfl, rfl⟩ | ⟨hne, hj⟩
    · exact ⟨fun _ => rfl, fun _ => trivial⟩
    · exact ⟨fun hholds => (hidle j task hj hholds).elim,
        fun hlock => absurd (Option.some.inj hlock).symm hne⟩
  · intro j hj
    obtain rfl := Option.some.inj hj
    exact ⟨_, Function.update_self _ _ _⟩
  · intro j
    constructor
    · intro hj
      exact nomatch hwriter.symm.trans hj
    · rintro ⟨found, hfound⟩
      rcases of_update_eq_some hfound with ⟨_, heq⟩ | ⟨_, hfound⟩
      · exact nomatch (Task.mk.inj heq).2
      · exact (hidle j _ hfound trivial).elim
  · intro j task hj hlock
    obtain rfl := Option.some.inj hlock
    rcases of_update_eq_some hj with ⟨_, rfl⟩ | ⟨hne, _⟩
    · exact ⟨h.rest hfree, hwork⟩
    · exact absurd rfl hne
  · intro j found hj
    rcases of_update_eq_some hj with ⟨_, heq⟩ | ⟨_, hj⟩
    · exact nomatch (Task.mk.inj heq).2
    · exact h.past j found hj
  · intro j seen hj
    rcases of_update_eq_some hj with ⟨_, heq⟩ | ⟨_, hj⟩
    · exact nomatch (Task.mk.inj heq).2
    · exact h.prompt j seen hj

/-- The task with the lock moves on, and the slot stays unlocked. -/
theorem Working.advance (h : s.Working) {work : Work} {old new : Stage}
    (hid : s.tasks id = some ⟨work, old⟩) (hold : old.Holds) (hne : old ≠ .swapped)
    (htasks : s'.tasks = Function.update s.tasks id (some ⟨work, new⟩)) (hnew : new.Holds)
    (hne' : new ≠ .swapped) (hlock : s'.lock = s.lock) (hwriter : s'.writer = s.writer)
    (hgen : s.generation ≤ s'.generation) (hsound : s'.toStore.Sound)
    (hdoing : s'.toStore.Doing work new) : s'.Working := by
  refine h.move hid hold htasks hnew hlock ?_ (fun heq => absurd heq hne') hgen hsound hdoing
  intro j
  rw [hwriter, h.locked.writer_eq_none hid hold hne]
  exact ⟨nofun, fun heq => absurd heq.1 hne'⟩

theorem Working.put (h : s.Working) {work : Work} {old new : Stage}
    (hid : s.tasks id = some ⟨work, old⟩) (hold : old.Holds) (hne : old ≠ .swapped)
    (hnew : new.Holds) (hne' : new ≠ .swapped) (hdoing : s.toStore.Doing work new) :
    (s.put id work new).Working :=
  h.advance hid hold hne rfl hnew hne' rfl rfl le_rfl h.sound hdoing

theorem Working.known (h : s.Working) {work : Work} {stage : Stage}
    (hid : s.tasks id = some ⟨work, stage⟩) (hholds : stage.Holds) :
    s.toStore.Doing work stage :=
  h.doing id _ hid ((h.locked.holds id _ hid).mp hholds)

theorem Working.readToken (h : s.Working) (hs : s.readToken id = some s') : s'.Working := by
  unfold State.readToken at hs
  split at hs
  case h_3 => exact nomatch hs
  case h_1 seen hid _ =>
    obtain ⟨hrest, hcur⟩ := h.known hid trivial
    split at hs
    · obtain rfl := Option.some.inj hs
      exact h.put hid trivial nofun trivial nofun ⟨hrest, hcur, rfl⟩
    · obtain rfl := Option.some.inj hs
      exact h.put hid trivial nofun trivial nofun ⟨hrest, nofun⟩
  case h_2 change hid _ =>
    obtain ⟨hrest, hcur⟩ := h.known hid trivial
    obtain rfl := Option.some.inj hs
    have hids := change.keeps s.token
    exact h.put hid trivial nofun trivial nofun
      ⟨hrest.live.of_ids hids, trivial, hrest.installed, fun _ => hids⟩

theorem Working.acquire (h : s.Working) (hs : s.acquire id = some s') : s'.Working := by
  unfold State.acquire at hs
  split at hs
  case h_2 => exact nomatch hs
  case h_1 work hid hfree =>
  obtain rfl := Option.some.inj hs
  refine h.take hfree ?_
  cases work with
  | rotate seen => exact absurd hid (h.prompt id seen)
  | update _ => trivial
  | adopt _ => trivial

/-- What is sent is the token in memory, and it is the one that counts. -/
theorem Working.send (h : s.Working) (hs : s.send id = some s') : s'.Working := by
  unfold State.send at hs
  split at hs
  case h_2 => exact nomatch hs
  case h_1 seen current hid =>
  obtain rfl := Option.some.inj hs
  obtain ⟨hrest, rfl, rfl⟩ := h.known hid trivial
  have hsettles : s.toStore.Settles
      { s.toStore with
        log := s.log ++ [.sent s.token.rfSessionId s.generation s.generation] } :=
    Store.settles_append rfl (fun _ _ => nofun) rfl rfl fun _ _ hn => hn
  refine h.advance hid trivial nofun rfl trivial nofun rfl rfl le_rfl ?_ ?_
  · refine h.sound.append hsettles rfl rfl rfl ?_ ?_
    · rintro rf rfl
      exact hrest.live.unspent
    · intro rf seen generation heq
      obtain ⟨-, rfl, rfl⟩ := Entry.sent.inj heq
      rfl
  · exact ⟨⟨hrest.live.mono hsettles, hrest.saved, hrest.installed⟩, rfl, rfl⟩

/-- The answer of EZVIZ makes another token the one that counts. -/
theorem Working.answer (h : s.Working) {reply : Except BridgeError RefreshReply}
    (hs : s.answer id reply = some s') : s'.Working := by
  unfold State.answer at hs
  split at hs
  case h_2 => exact nomatch hs
  case h_1 seen current hid =>
  obtain ⟨hrest, rfl, rfl⟩ := h.known hid trivial
  split at hs
  case h_1 error =>
    obtain rfl := Option.some.inj hs
    exact h.put hid trivial nofun trivial nofun ⟨hrest, nofun⟩
  case h_2 updated hupdated =>
  obtain ⟨⟨-, hfresh⟩, rfl⟩ := EventSystem.guarded hs
  exact h.advance hid trivial nofun rfl trivial nofun rfl rfl le_rfl (h.sound.rotate hrest updated)
    ⟨hrest.live_rotate h.sound hfresh, rfl, hrest.installed, nofun⟩

/-- `adopt` takes a staged token, which was never in the store. -/
theorem Working.takeStaged (h : s.Working) {renamed : Bool}
    (hs : s.takeStaged id renamed = some s') : s'.Working := by
  unfold State.takeStaged at hs
  split at hs
  case h_2 => exact nomatch hs
  case h_1 name hid =>
  obtain ⟨hrest, -⟩ := h.known hid trivial
  split at hs
  case h_1 error herror =>
    obtain rfl := Option.some.inj hs
    exact h.put hid trivial nofun trivial nofun ⟨hrest, fun _ => trivial⟩
  case h_2 token htoken =>
  have hfile := readToken_ok htoken
  split at hs
  case isFalse =>
    obtain rfl := Option.some.inj hs
    exact h.put hid trivial nofun trivial nofun ⟨hrest, fun _ => trivial⟩
  case isTrue =>
  obtain rfl := Option.some.inj hs
  -- every other staged file was there before, under another name
  have hstaged : ∀ other found, Function.update s.staged name none other = some found →
      other ≠ name ∧ s.staged other = some found := by
    intro other found hfound
    rcases eq_or_ne other name with rfl | hne
    · rw [Function.update_self] at hfound
      exact nomatch hfound
    · rw [Function.update_of_ne hne] at hfound
      exact ⟨hne, hfound⟩
  have hunspent := h.sound.staged_unspent name token hfile
  have hsettles : s.toStore.Settles
      { s.toStore with
        file := token
        unsaved := false
        staged := Function.update s.staged name none
        log := s.log ++ [.stored token] } :=
    Store.settles_append rfl (fun _ _ => nofun) rfl rfl fun other found hfound =>
      (hstaged other found hfound).2
  refine h.advance hid trivial nofun rfl trivial nofun rfl rfl le_rfl ?_ ?_
  · refine h.sound.append hsettles rfl rfl rfl ?_ nofun
    rintro rf rfl
    exact hunspent
  · refine ⟨⟨⟨h.sound.staged_issued name token hfile, ?_, ?_, ?_⟩, trivial, hrest.installed, nofun⟩,
      fun _ => rfl⟩
    · rintro ⟨pair, hpair⟩
      exact hunspent ⟨pair, hsettles.rotated _ _ hpair⟩
    · intro other found hfound heq
      obtain ⟨hne, hfound⟩ := hstaged other found hfound
      exact hne (h.sound.staged_inj other name found token hfound hfile heq)
    · intro old pair hpair
      rcases hrest.live.kept old pair (hsettles.rotated _ _ hpair) with hin | rfl
      · exact .inl hin
      · exact .inl ⟨s.token, s.generation, hrest.installed, rfl⟩

/-- `publish` writes the token that counts to the file. -/
theorem Working.write (h : s.Working) {written : Written} (hs : s.write id written = some s') :
    s'.Working := by
  unfold State.write at hs
  split at hs
  case h_2 => exact nomatch hs
  case h_1 work token hid =>
  have hcarries := h.known hid trivial
  -- the file is replaced, whether `publish` takes that for a success or not
  have hreplaced : ∀ unsaved, Working
      { s.put id work (.storing token) with
        file := token, unsaved := unsaved, log := s.log ++ [.stored token] } := by
    intro unsaved
    have hsettles : s.toStore.Settles
        { s.toStore with
          file := token, unsaved := unsaved, log := s.log ++ [.stored token] } :=
      Store.settles_append rfl (fun _ _ => nofun) rfl rfl fun _ _ hn => hn
    refine h.advance hid trivial nofun rfl trivial nofun rfl rfl le_rfl ?_ ?_
    · refine h.sound.append hsettles rfl rfl rfl ?_ nofun
      rintro rf rfl
      exact hcarries.live.unspent
    · exact ⟨⟨hcarries.live.mono hsettles, hcarries.current, hcarries.installed, hcarries.ids⟩,
        fun _ => rfl⟩
  split at hs
  case h_1 =>
    obtain rfl := Option.some.inj hs
    exact hreplaced false
  case h_2 =>
    obtain rfl := Option.some.inj hs
    exact hreplaced true
  case h_3 =>
    obtain rfl := Option.some.inj hs
    refine h.advance hid trivial nofun rfl trivial nofun rfl rfl le_rfl ?_ ?_
    · exact
        ⟨h.sound.ordered, h.sound.sent_current, h.sound.installs_le, h.sound.installs_ids,
          h.sound.spent_issued, h.sound.staged_issued, h.sound.staged_unspent, h.sound.staged_inj⟩
    · refine ⟨⟨hcarries.live.mono ?_, hcarries.current, hcarries.installed, hcarries.ids⟩, nofun⟩
      exact ⟨subset_rfl, fun _ _ hn => hn, fun _ _ hr => hr, fun _ hm => hm⟩

/-- The slot is written while nobody reads it. -/
theorem Working.swap (h : s.Working) (hs : s.swap id = some s') : s'.Working := by
  unfold State.swap at hs
  split at hs
  case h_2 => exact nomatch hs
  case h_1 work token hid =>
  obtain ⟨hcarries, hfile⟩ := h.known hid trivial
  obtain ⟨⟨-, hreaders⟩, rfl⟩ := EventSystem.guarded hs
  have hsettles : s.toStore.Settles
      { s.toStore with token := token, log := s.log ++ [.stored token] } :=
    Store.settles_append rfl (fun _ _ => nofun) rfl rfl fun _ _ hn => hn
  refine h.move hid trivial rfl trivial rfl ?_ (fun _ => hreaders) le_rfl ?_ ?_
  · intro j
    exact ⟨fun hj => ⟨rfl, (Option.some.inj hj).symm⟩, fun heq => congrArg some heq.2.symm⟩
  · refine h.sound.append hsettles rfl rfl rfl ?_ nofun
    rintro rf rfl
    exact hcarries.live.unspent
  · refine ⟨hcarries.live.mono hsettles, hcarries.current, hfile, ?_⟩
    intro hwork
    exact ⟨s.token, hcarries.installed, (hcarries.ids hwork).symm⟩

/-- The generation follows before anybody can read the slot. -/
theorem Working.bump (h : s.Working) (hs : s.bump id = some s') : s'.Working := by
  unfold State.bump at hs
  split at hs
  case h_2 => exact nomatch hs
  case h_1 work hid =>
  obtain rfl := Option.some.inj hs
  obtain ⟨hlive, hcur, hfile, hids⟩ := h.known hid trivial
  have hgen : s.generation ≤ if work.renews then s.generation + 1 else s.generation := by
    split
    · exact Nat.le_succ _
    · exact le_rfl
  refine h.move hid trivial rfl trivial rfl (fun j => ⟨nofun, nofun⟩) nofun hgen
    (h.sound.install ?_) ⟨⟨hlive.mono ?_, hfile, ?_⟩, ?_⟩
  -- only a renewal takes a new generation
  · cases hwork : work.renews with
    | true => exact .inl rfl
    | false => exact .inr ⟨rfl, hids hwork⟩
  · exact ⟨subset_rfl, fun _ _ hn => hn, fun _ _ hr => hr, List.subset_append_left _ _⟩
  · exact List.mem_append_right _ (List.mem_singleton_self _)
  · intro _
    cases work with
    | rotate seen => exact hcur ▸ Nat.lt_succ_self _
    | update _ => trivial
    | adopt _ => trivial

/-- The lock is free again, and nothing is in between. -/
theorem Working.release (h : s.Working) (hs : s.release id = some s') : s'.Working := by
  unfold State.release at hs
  split at hs
  case h_2 => exact nomatch hs
  case h_1 work result hid =>
  obtain rfl := Option.some.inj hs
  have hlock := (h.locked.holds id _ hid).mp trivial
  obtain ⟨hrest, hpast⟩ := h.known hid trivial
  have hwriter := h.locked.writer_eq_none hid trivial nofun
  -- no other task holds
  have hidle : ∀ j task, j ≠ id → s.tasks j = some task → ¬task.stage.Holds := by
    intro j task hne hj hholds
    exact hne (Option.some.inj (((h.locked.holds j task hj).mp hholds).symm.trans hlock))
  refine ⟨⟨?_, nofun, ?_, h.locked.apart⟩, h.sound, fun _ => hrest, nofun, ?_, ?_⟩
  · intro j task hj
    rcases of_update_eq_some hj with ⟨rfl, rfl⟩ | ⟨hne, hj⟩
    · exact ⟨False.elim, nofun⟩
    · exact ⟨fun hholds => (hidle j task hne hj hholds).elim, nofun⟩
  · intro j
    constructor
    · intro hj
      exact nomatch hwriter.symm.trans hj
    · rintro ⟨found, hfound⟩
      rcases of_update_eq_some hfound with ⟨_, heq⟩ | ⟨hne, hfound⟩
      · exact nomatch (Task.mk.inj heq).2
      · exact (hidle j _ hne hfound trivial).elim
  · intro j found hj
    rcases of_update_eq_some hj with ⟨_, heq⟩ | ⟨_, hj⟩
    · obtain ⟨rfl, hended⟩ := Task.mk.inj heq
      exact hpast (Stage.ended.inj hended)
    · exact h.past j found hj
  · intro j seen hj
    rcases of_update_eq_some hj with ⟨_, heq⟩ | ⟨_, hj⟩
    · exact nomatch (Task.mk.inj heq).2
    · exact h.prompt j seen hj

end State

end Session

end EzvizBridge
