import EzvizBridge.Controls.Forced
import EzvizBridge.Lib.Prefixes

/-!
# The law of verified writes

A write that is due is sent once, and then the value is read back. A second write, of the previous
value, is sent exactly if a read-back has obtained another value than the desired one and none has
obtained the desired one; this fails if the read-backs succeed without any value of the control.

`ControlService::update` and `set_account_defence` have the same end, `settle`.
-/

namespace EzvizBridge

namespace Controls

open Effects Effects.Program Prefixes

namespace Effect

/-- A write of either kind. -/
def isWrite : Effect → Bool
  | .write _ | .setGroupDefenceMode _ => true
  | _ => false

/-- The end of a read-back. -/
def isReadBack : Effect → Bool
  | .readBack _ => true
  | _ => false

/-- The value of the control that a read-back has obtained. -/
def obtainedControl : Effect → Option Desired
  | .readBack (.control value) => value
  | _ => none

/-- The mode of the account that a read-back has obtained. -/
def obtainedMode : Effect → Option DefenceMode
  | .readBack (.account mode) => mode
  | _ => none

theorem IsRead.not_write {effect : Effect} (h : effect.IsRead) : effect.isWrite = false := by
  cases effect <;> first | rfl | exact h.elim

theorem IsRead.not_readBack {effect : Effect} (h : effect.IsRead) : effect.isReadBack = false := by
  cases effect <;> first | rfl | exact h.elim

end Effect

/-- A read-back has obtained another value than the desired one, and none has obtained the desired
one. -/
def Disagrees {β : Type} (desired : β) (values : List β) : Prop :=
  (∃ value ∈ values, value ≠ desired) ∧ desired ∉ values

instance {β : Type} [DecidableEq β] (desired : β) (values : List β) :
    Decidable (Disagrees desired values) :=
  inferInstanceAs (Decidable (_ ∧ _))

/-- The law of a write that is due. `before` is what was done before the write, `undo` writes the
previous value, `obtained` is the value that a read-back has obtained, `Shows` says that the vendor
has shown a value between two points of the run. -/
structure Verified {α β : Type} [DecidableEq β] (service : ControlService) (before : List Effect)
    (write : Effect) (undo : Option Effect) (obtained : Effect → Option β) (desired : β)
    (shown : α → Option β) (Shows : List Effect → List Effect → β → Prop)
    (result : Except ControlError α) (log : List Effect) : Prop where
  sent : before ++ [write] <+: log
  /-- One write, and a rollback exactly if the read-backs disagree. -/
  writes : log.filter Effect.isWrite =
    write :: if Disagrees desired (log.filterMap obtained) then undo.toList else []
  /-- At most three read-backs, all after the write. -/
  bounded : log.countP Effect.isReadBack ≤ 3
  after : before.countP Effect.isReadBack = 0
  /-- What a read-back has obtained the vendor has shown after the write. -/
  fresh : Each (fun head effect => ∀ value, obtained effect = some value →
    Shows (before ++ [write]) head value) log
  confirmed : ∀ after, result = .ok after → shown after = some desired
  /-- After an error all the cells have been invalidated, and nothing was done since. -/
  invalidated : ∀ error, result = .error error → service.cells.map .invalidate <:+ log

/-! ### The common end -/

section Settle

variable {α β : Type} (w : World) (service : ControlService) (read : Service α)
  (reading : α → Reading)
  (matches_ : α → Bool)

/-- The end of `update` and `set_account_defence`. -/
def settle (write : Effect) (undo : Option Effect) : Service α := do
  send w service write
  match ← confirm read reading matches_ verifyDelays .unknown with
  | .confirmed after => return after
  | .mismatch => do
    (undo.forM (rollBack w service) : Program Effect Unit)
    invalidate service
    throw .unconfirmed
  | .unknown => do
    invalidate service
    throw .unconfirmed

/-- The read-backs of `confirm`: they end with the first one that matches. -/
def readBacks : List ℕ → Program Effect (List (Except ControlError α))
  | [] => return []
  | delay :: delays => do
    let result ← readBack read reading delay
    if result.toOption.any matches_ then return [result] else return result :: (← readBacks delays)

/-- What `confirm` makes of the read-backs. -/
def verdict : List (Except ControlError α) → Confirmation α → Confirmation α
  | [], outcome => outcome
  | .ok value :: results, _ =>
    if matches_ value then .confirmed value else verdict results .mismatch
  | .error _ :: results, outcome => verdict results outcome

/-- The confirmation is the verdict over the read-backs that were made. -/
theorem confirm_eq (delays : List ℕ) (outcome : Confirmation α) (log : List Effect) :
    (confirm read reading matches_ delays outcome).run log =
      (verdict matches_ ((readBacks read reading matches_ delays).run log).1 outcome,
        ((readBacks read reading matches_ delays).run log).2) := by
  -- on the delays
  induction delays generalizing outcome log with
  | nil => rfl
  | cons delay delays ih =>
    rcases hback : (readBack read reading delay).run log with ⟨error | value, mid⟩
    · simp only [confirm, readBacks, run_bind, hback]
      exact ih outcome mid
    -- a value that matches ends the read-backs
    · by_cases hmatch : matches_ value
      · simp only [confirm, readBacks, run_bind, hback, Except.toOption, Option.any_some,
          hmatch, if_true, run_pure, verdict]
      · simp only [confirm, readBacks, run_bind, hback, Except.toOption, Option.any_some, hmatch,
          Bool.false_eq_true, if_false, run_pure, verdict]
        exact ih .mismatch mid

end Settle

/-! ### The verdict -/

section Verdict

variable {α : Type} {matches_ : α → Bool} {results : List (Except ControlError α)}
  {outcome : Confirmation α}

/-- Without a match the verdict depends on whether a read-back has succeeded. -/
theorem verdict_of_no_match (h : ∀ value, .ok value ∈ results → matches_ value = false) :
    verdict matches_ results outcome = if results.any Except.isOk then .mismatch else outcome := by
  induction results generalizing outcome with
  | nil => rfl
  | cons result results ih =>
    have hrest := fun value hmem => h value (List.mem_cons_of_mem result hmem)
    cases result with
    | error error => exact ih hrest
    | ok value =>
      rw [verdict, h value List.mem_cons_self, if_neg Bool.false_ne_true, ih hrest, ite_self]
      rfl

/-- A match is confirmed, by the first value that matches. -/
theorem verdict_of_match (matches_ : α → Bool) {value : α} (hmem : .ok value ∈ results)
    (hmatch : matches_ value = true) :
    ∃ after, .ok after ∈ results ∧ matches_ after = true ∧
      verdict matches_ results outcome = .confirmed after := by
  -- on the results, as far as the first match
  induction results generalizing outcome with
  | nil => cases hmem
  | cons result results ih =>
    cases result with
    | error error =>
      have htail : Except.ok value ∈ results := by simpa using hmem
      obtain ⟨after, hafter, hyes, hverdict⟩ := ih htail
      exact ⟨after, List.mem_cons_of_mem _ hafter, hyes, hverdict⟩
    | ok found =>
      by_cases hfound : matches_ found
      · exact ⟨found, List.mem_cons_self, hfound, if_pos hfound⟩
      · have htail : Except.ok value ∈ results := by
          rcases List.mem_cons.mp hmem with heq | htail
          · cases heq
            exact absurd hmatch hfound
          · exact htail
        obtain ⟨after, hafter, hyes, hverdict⟩ := ih htail
        exact ⟨after, List.mem_cons_of_mem _ hafter, hyes, (if_neg hfound).trans hverdict⟩

end Verdict

/-! ### What the read-backs do -/

/-- What a read is for: `shown` is the value that it obtains, if any. -/
structure Observes {α β : Type} (read : Service α) (reading : α → Reading)
    (obtained : Effect → Option β) (shown : α → Option β)
    (Shows : List Effect → List Effect → β → Prop) : Prop where
  emits : Emits Effect.IsRead read.run
  obtained_reading : ∀ after, obtained (.readBack (reading after)) = shown after
  obtained_failed : obtained (.readBack .failed) = none
  obtained_other : ∀ effect, effect.isReadBack = false → obtained effect = none
  shows : ∀ {log after log' value}, read.run.run log = (.ok after, log') →
    shown after = some value →
    Shows log log' value
  mono : ∀ {since since' until_ until' value}, Shows since until_ value → since' <+: since →
    until_ <+: until' → Shows since' until' value

/-- The value that a read-back has obtained. -/
def valueOf {α β : Type} (shown : α → Option β) (result : Except ControlError α) : Option β :=
  result.toOption.bind shown

/-- What the read-backs with these results have done. -/
structure BackTail {α β : Type} (obtained : Effect → Option β) (shown : α → Option β)
    (Shows : List Effect → List Effect → β → Prop) (log tail : List Effect)
    (results : List (Except ControlError α)) : Prop where
  writes : tail.filter Effect.isWrite = []
  values : tail.filterMap obtained = results.filterMap (valueOf shown)
  count : tail.countP Effect.isReadBack = results.length
  fresh : Each (fun head effect => ∀ value, obtained effect = some value →
    Shows log (log ++ head) value) tail

section Tail

variable {α β : Type} {read : Service α} {reading : α → Reading} {obtained : Effect → Option β}
  {shown : α → Option β} {Shows : List Effect → List Effect → β → Prop}
    {log first second : List Effect}
  {results results' : List (Except ControlError α)}

/-- No read-back was made. -/
theorem BackTail.nil : BackTail obtained shown Shows log []
    ([] : List (Except ControlError α)) where
  writes := rfl
  values := rfl
  count := rfl
  fresh := .nil

/-- Read-backs, one after the other. -/
theorem BackTail.append (hobserves : Observes read reading obtained shown Shows)
    (hfirst : BackTail obtained shown Shows log first results)
    (hsecond : BackTail obtained shown Shows (log ++ first) second results') :
    BackTail obtained shown Shows log (first ++ second) (results ++ results') where
  writes := by rw [List.filter_append, hfirst.writes, hsecond.writes, List.append_nil]
  values := by rw [List.filterMap_append, List.filterMap_append, hfirst.values, hsecond.values]
  count := by rw [List.countP_append, List.length_append, hfirst.count, hsecond.count]
  fresh := by
    refine hfirst.fresh.append (hsecond.fresh.imp fun head effect _ hshows value hvalue => ?_)
    rw [← List.append_assoc]
    exact hobserves.mono (hshows value hvalue) (List.prefix_append log first) List.prefix_rfl

/-- Other effects than writes and read-backs are not seen. -/
theorem BackTail.of_silent (hobserves : Observes read reading obtained shown Shows)
    (hwrite : ∀ effect ∈ first, effect.isWrite = false)
    (hback : ∀ effect ∈ first, effect.isReadBack = false) :
    BackTail obtained shown Shows log first ([] : List (Except ControlError α)) where
  writes := List.filter_eq_nil_iff.mpr fun effect hmem => by simp [hwrite effect hmem]
  values := List.filterMap_eq_nil_iff.mpr fun effect hmem =>
    hobserves.obtained_other effect (hback effect hmem)
  count := List.countP_eq_zero.mpr fun effect hmem => by simp [hback effect hmem]
  fresh := Each.of_forall fun _ effect hmem value hvalue => by
    rw [hobserves.obtained_other effect (hback effect hmem)] at hvalue
    cases hvalue

/-- What a read-back has obtained is the value of its result. -/
theorem obtained_of (hobserves : Observes read reading obtained shown Shows)
    (result : Except ControlError α) :
    obtained (.readBack (.of reading result)) = valueOf shown result := by
  cases result with
  | ok after => exact hobserves.obtained_reading after
  | error error => exact hobserves.obtained_failed

/-- One read-back: it sleeps, it reads, and what it has obtained the vendor has shown. -/
theorem readBack_tail (hobserves : Observes read reading obtained shown Shows) (delay : ℕ)
    (log : List Effect) : ∃ tail, ((readBack read reading delay).run log).2 = log ++ tail ∧
      BackTail obtained shown Shows log tail [((readBack read reading delay).run log).1] := by
  obtain ⟨reads, hreads, hread⟩ := hobserves.emits (log ++ [.sleep delay])
  rcases hrun : read.run.run (log ++ [.sleep delay]) with ⟨result, mid⟩
  have hback : (readBack read reading delay).run log =
      (result, mid ++ [.readBack (.of reading result)]) := by
    simp only [readBack, run_bind, run_perform, run_pure, hrun]
  have hmid : mid = log ++ (.sleep delay :: reads) := by
    rw [hrun] at hreads
    exact hreads.trans (List.append_assoc _ _ _)
  have hsilent : BackTail obtained shown Shows log (.sleep delay :: reads)
      ([] : List (Except ControlError α)) := by
    refine .of_silent hobserves (fun effect hmem => ?_) fun effect hmem => ?_
    · rcases List.mem_cons.mp hmem with rfl | hmem
      · rfl
      · exact (hread effect hmem).not_write
    · rcases List.mem_cons.mp hmem with rfl | hmem
      · rfl
      · exact (hread effect hmem).not_readBack
  -- the value was obtained between the sleep and the record
  have hshows : ∀ value, valueOf shown result = some value → Shows log mid value := by
    intro value hvalue
    cases result with
    | error error => cases hvalue
    | ok after =>
      exact hobserves.mono (hobserves.shows hrun hvalue) (List.prefix_append _ _) List.prefix_rfl
  rw [hback]
  refine ⟨(.sleep delay :: reads) ++ [.readBack (.of reading result)], ?_, ?_, ?_, ?_, ?_⟩
  · rw [hmid, List.append_assoc]
  · rw [List.filter_append, hsilent.writes]
    rfl
  · rw [List.filterMap_append, hsilent.values, List.filterMap_nil, List.nil_append]
    simp only [List.filterMap_cons, List.filterMap_nil, obtained_of hobserves]
  · rw [List.countP_append, hsilent.count]
    rfl
  · refine hsilent.fresh.append (.singleton fun value hvalue => ?_)
    rw [List.append_nil, ← hmid]
    exact hshows value (by rwa [obtained_of hobserves] at hvalue)

/-- Each delay makes one read-back at most. -/
theorem readBacks_tail (hobserves : Observes read reading obtained shown Shows)
    (matches_ : α → Bool) (delays : List ℕ) (log : List Effect) :
    ∃ tail, ((readBacks read reading matches_ delays).run log).2 = log ++ tail ∧
      BackTail obtained shown Shows log tail ((readBacks read reading matches_ delays).run log).1 ∧
      ((readBacks read reading matches_ delays).run log).1.length ≤ delays.length := by
  -- on the delays
  induction delays generalizing log with
  | nil => exact ⟨[], (List.append_nil log).symm, .nil, le_rfl⟩
  | cons delay delays ih =>
    obtain ⟨first, hfirst, htail⟩ := readBack_tail hobserves delay log
    rcases hback : (readBack read reading delay).run log with ⟨result, mid⟩
    rw [hback] at hfirst htail
    simp only [readBacks, run_bind, hback]
    -- the read-backs stop with a match
    by_cases hstop : result.toOption.any matches_
    · rw [if_pos hstop]
      exact ⟨first, hfirst, htail, Nat.succ_le_succ (Nat.zero_le _)⟩
    · rw [if_neg hstop]
      obtain ⟨second, hsecond, htail', hlength⟩ := ih mid
      obtain rfl : mid = log ++ first := hfirst
      refine ⟨first ++ second, ?_, htail.append hobserves htail', Nat.succ_le_succ hlength⟩
      rw [← List.append_assoc]
      exact hsecond

end Tail

/-! ### Runs of the common end -/

section Runs

variable (w : World) (service : ControlService)

theorem invalidate_run (log : List Effect) :
    (invalidate service).run log = ((), log ++ service.cells.map .invalidate) :=
  run_forM_perform log service.cells .invalidate

/-- A write that the vendor accepts. -/
theorem send_accepted {effect : Effect} {log : List Effect}
    (h : w.write (log ++ [effect]) = .ok ()) :
    (send w service effect).run.run log = (.ok (), log ++ [effect]) := by
  unfold send
  rw [Fallible.run_bind_ok (Fallible.run_lift _), Fallible.run_bind_ok (Fallible.run_lift _),
    run_history, run_perform, h]
  rfl

/-- A write that fails invalidates the caches. -/
theorem send_refused {effect : Effect} {log : List Effect} {error : BridgeError}
    (h : w.write (log ++ [effect]) = .error error) :
    (send w service effect).run.run log =
      (.error (.failed error.diagnosticCode),
        log ++ [effect] ++ service.cells.map .invalidate) := by
  unfold send
  rw [Fallible.run_bind_ok (Fallible.run_lift _), Fallible.run_bind_ok (Fallible.run_lift _),
    run_history, run_perform, h]
  show ((.error (.failed error.diagnosticCode), ((invalidate service).run (log ++ [effect])).2) :
    Except ControlError Unit × List Effect) = _
  rw [invalidate_run]

/-- The invalidation of a cell. -/
def Effect.isInvalidate : Effect → Bool
  | .invalidate _ => true
  | _ => false

/-- An invalidation neither reads back nor writes. -/
theorem Effect.silent_of_invalidate {effect : Effect} (h : effect.isInvalidate = true) :
    effect.isReadBack = false ∧ effect.isWrite = false := by
  cases effect <;> first | exact ⟨rfl, rfl⟩ | cases h

theorem Effect.not_readBack_of_write {effect : Effect} (h : effect.isWrite = true) :
    effect.isReadBack = false := by
  cases effect <;> first | rfl | cases h

theorem invalidations_silent (effect : Effect) (h : effect ∈ service.cells.map .invalidate) :
    effect.isReadBack = false ∧ effect.isWrite = false := by
  obtain ⟨cell, _, rfl⟩ := List.mem_map.mp h
  exact ⟨rfl, rfl⟩

/-- There is no write among the invalidations. -/
theorem filter_invalidations : (service.cells.map Effect.invalidate).filter Effect.isWrite = [] :=
  List.filter_eq_nil_iff.mpr fun effect hmem => by
    simp [(invalidations_silent service effect hmem).2]

/-- A rollback is its write, with invalidations if it fails. -/
theorem rollBack_run (effect : Effect) (log : List Effect) :
    ∃ rest, ((rollBack w service effect).run log).2 = log ++ effect :: rest ∧
      ∀ effect ∈ rest, effect.isInvalidate = true := by
  have hrun : ((rollBack w service effect).run log).2 =
      ((send w service effect).run.run log).2 := rfl
  cases hwrite : w.write (log ++ [effect]) with
  | ok _ =>
    rw [hrun, send_accepted w service hwrite]
    exact ⟨[], rfl, fun _ hmem => absurd hmem List.not_mem_nil⟩
  | error error =>
    rw [hrun, send_refused w service hwrite]
    refine ⟨service.cells.map .invalidate, List.append_assoc _ _ _, fun effect hmem => ?_⟩
    obtain ⟨cell, _, rfl⟩ := List.mem_map.mp hmem
    rfl

end Runs

section Law

variable {α β : Type} {w : World} {service : ControlService} {read : Service α}
  {reading : α → Reading} {obtained : Effect → Option β} {desired : β} {shown : α → Option β}
  {Shows : List Effect → List Effect → β → Prop} {before : List Effect} {write : Effect}
  {undo : Option Effect}

/-- What comes after the read-backs. -/
theorem settle_accepted (hwrite : w.write (before ++ [write]) = .ok ()) (matches_ : α → Bool)
    {results : List (Except ControlError α)} {log : List Effect}
    (hbacks : (readBacks read reading matches_ verifyDelays).run (before ++ [write]) =
      (results, log)) :
    (settle w service read reading matches_ write undo).run.run before =
      (match verdict matches_ results .unknown with
        | .confirmed after => (.ok after, log)
        | .mismatch => (.error .unconfirmed,
          ((undo.forM (rollBack w service) : Program Effect Unit).run log).2 ++
            service.cells.map .invalidate)
        | .unknown => (.error .unconfirmed, log ++ service.cells.map .invalidate)) := by
  have hconfirm : (liftM (confirm read reading matches_ verifyDelays .unknown) : Service _).run.run
      (before ++ [write]) = (.ok (verdict matches_ results .unknown), log) := by
    rw [Fallible.run_lift, confirm_eq, hbacks]
  refine (Fallible.run_bind_ok (send_accepted w service hwrite)).trans
    ((Fallible.run_bind_ok hconfirm).trans ?_)
  -- the three verdicts, in the order of the source
  cases verdict matches_ results .unknown with
  | confirmed after => rfl
  | mismatch =>
    show ((.error .unconfirmed, ((invalidate service).run _).2) : Except ControlError α × _) = _
    rw [invalidate_run]
    rfl
  | unknown =>
    show ((.error .unconfirmed, ((invalidate service).run log).2) : Except ControlError α × _) = _
    rw [invalidate_run]

/-- The values are those that the results show. -/
theorem mem_values {results : List (Except ControlError α)} {value : β} :
    value ∈ results.filterMap (valueOf shown) ↔ ∃ after, .ok after ∈ results ∧
      shown after = some value := by
  rw [List.mem_filterMap]
  constructor
  · rintro ⟨result, hmem, hvalue⟩
    cases result with
    | error error => cases hvalue
    | ok after => exact ⟨after, hmem, hvalue⟩
  · rintro ⟨after, hmem, hvalue⟩
    exact ⟨.ok after, hmem, hvalue⟩

/-- Where the desired value was not shown, any value disagrees. -/
theorem disagrees_iff {values : List β} (hdesired : desired ∉ values) :
    Disagrees desired values ↔ values ≠ [] := by
  constructor
  · rintro ⟨⟨value, hmem, -⟩, -⟩ rfl
    cases hmem
  · intro hvalues
    obtain ⟨value, hmem⟩ := List.exists_mem_of_ne_nil values hvalues
    exact ⟨⟨value, hmem, fun heq => hdesired (heq ▸ hmem)⟩, hdesired⟩

theorem not_disagrees_nil : ¬Disagrees desired [] := fun h =>
  (disagrees_iff List.not_mem_nil).mp h rfl

/-- The read-backs have succeeded, and none has obtained a value. -/
def Blind (shown : α → Option β) (results : List (Except ControlError α)) : Prop :=
  results.any Except.isOk = true ∧ results.filterMap (valueOf shown) = []

variable [DecidableEq β]

/-- The law, for a run that is known up to the number of its writes: all else holds. -/
theorem verified_iff (hobserves : Observes read reading obtained shown Shows)
    (hbefore : ∀ effect ∈ before, effect.IsRead) (hwrite : write.isWrite = true)
    {tail rest : List Effect} {results : List (Except ControlError α)}
    {result : Except ControlError α}
    (htail : BackTail obtained shown Shows (before ++ [write]) tail results)
    (hlength : results.length ≤ 3) (hrest : ∀ effect ∈ rest, effect.isReadBack = false)
    (hconfirmed : ∀ after, result = .ok after → shown after = some desired)
    (hinvalidated : ∀ error, result = .error error →
      service.cells.map .invalidate <:+ before ++ [write] ++ tail ++ rest) :
    Verified service before write undo obtained desired shown Shows result
        (before ++ [write] ++ tail ++ rest) ↔
      rest.filter Effect.isWrite =
        if Disagrees desired (results.filterMap (valueOf shown)) then undo.toList else [] := by
  have hother := hobserves.obtained_other
  have hnotBack := Effect.not_readBack_of_write hwrite
  have hvalues : (before ++ [write] ++ tail ++ rest).filterMap obtained =
      results.filterMap (valueOf shown) := by
    have h1 : before.filterMap obtained = [] := List.filterMap_eq_nil_iff.mpr fun effect hmem =>
      hother effect (hbefore effect hmem).not_readBack
    have h2 : rest.filterMap obtained = [] := List.filterMap_eq_nil_iff.mpr fun effect hmem =>
      hother effect (hrest effect hmem)
    simp only [List.filterMap_append, h1, h2, List.filterMap_cons, hother write hnotBack,
      htail.values, List.filterMap_nil, List.nil_append, List.append_nil]
  have hwrites : (before ++ [write] ++ tail ++ rest).filter Effect.isWrite =
      write :: rest.filter Effect.isWrite := by
    have h1 : before.filter Effect.isWrite = [] := List.filter_eq_nil_iff.mpr fun effect hmem => by
      simp [(hbefore effect hmem).not_write]
    simp only [List.filter_append, h1, htail.writes, List.filter_cons, hwrite, if_true,
      List.filter_nil, List.nil_append, List.cons_append, List.append_nil]
  have hzero : before.countP Effect.isReadBack = 0 := List.countP_eq_zero.mpr fun effect hmem => by
    simp [(hbefore effect hmem).not_readBack]
  -- the writes decide, and all else holds
  constructor
  · intro h
    have := h.writes
    rw [hwrites, hvalues] at this
    exact List.cons.inj this |>.2
  · intro h
    refine ⟨?_, ?_, ?_, hzero, ?_, hconfirmed, hinvalidated⟩
    · rw [List.append_assoc]
      exact List.prefix_append _ _
    -- the writes are those that the law asks for
    · rw [hwrites, hvalues, h]
    · have h2 : rest.countP Effect.isReadBack = 0 := List.countP_eq_zero.mpr fun effect hmem => by
        simp [hrest effect hmem]
      have h3 : [write].countP Effect.isReadBack = 0 :=
        List.countP_eq_zero.mpr fun effect hmem => by
        simp [List.mem_singleton.mp hmem, hnotBack]
      rw [List.countP_append, List.countP_append, List.countP_append, hzero, h2, h3, htail.count]
      omega
    · -- only the read-backs obtain anything
      have hnone : ∀ (effects log : List Effect), (∀ effect ∈ effects, effect.isReadBack = false) →
          Each (fun head effect => ∀ value, obtained effect = some value →
            Shows (before ++ [write]) (log ++ head) value) effects := by
        intro effects log hnot
        refine .of_forall fun _ effect hmem value hvalue => ?_
        rw [hother effect (hnot effect hmem)] at hvalue
        cases hvalue
      have hstart : ∀ effect ∈ before ++ [write], effect.isReadBack = false := by
        intro effect hmem
        rcases List.mem_append.mp hmem with hmem | hmem
        · exact (hbefore effect hmem).not_readBack
        · rw [List.mem_singleton.mp hmem]
          exact hnotBack
      exact ((hnone _ [] hstart).append htail.fresh).append (hnone rest _ hrest)

section Outcomes

variable (service : ControlService) (hobserves : Observes read reading obtained shown Shows)
  (hbefore : ∀ effect ∈ before, effect.IsRead) (hwrite : write.isWrite = true)
  {tail : List Effect} {results : List (Except ControlError α)}
  (hspec : BackTail obtained shown Shows (before ++ [write]) tail results)
    (hlength : results.length ≤ 3)

include hobserves hbefore hwrite hspec hlength

/-- A read-back has obtained the desired value. -/
theorem verified_confirmed (undo : Option Effect) {found : α}
    (hdesired : desired ∈ results.filterMap (valueOf shown)) (hfound : shown found = some desired) :
    Verified service before write undo obtained desired shown Shows (.ok found)
      (before ++ [write] ++ tail) := by
  rw [← List.append_nil (before ++ [write] ++ tail),
    verified_iff hobserves hbefore hwrite hspec hlength
    (fun effect hmem => by cases hmem) (fun after h => by cases h; exact hfound)
    (fun error h => by cases h), if_neg fun h => h.2 hdesired]
  rfl

/-- The update ends without a rollback: this is right if the read-backs do not disagree, or if there
is nothing to go back to. -/
theorem verified_given_up (undo : Option Effect) {error : ControlError}
    (h : Disagrees desired (results.filterMap (valueOf shown)) → undo = none) :
    Verified service before write undo obtained desired shown Shows (.error error)
      (before ++ [write] ++ tail ++ service.cells.map .invalidate) := by
  rw [verified_iff hobserves hbefore hwrite hspec hlength
    (fun effect hmem => (invalidations_silent service effect hmem).1)
    (fun after h => by cases h) (fun error _ => List.suffix_append _ _), filter_invalidations]
  split
  · rename_i hdisagrees
    rw [h hdisagrees]
    rfl
  · rfl

/-- The update ends with a rollback: this is right if and only if a read-back has obtained a
value. -/
theorem verified_rolled_back (w : World) {undo : Effect} (hundo : undo.isWrite = true)
    {error : ControlError} (hdesired : desired ∉ results.filterMap (valueOf shown)) :
    Verified service before write (some undo) obtained desired shown Shows (.error error)
        (((rollBack w service undo).run (before ++ [write] ++ tail)).2 ++
          service.cells.map .invalidate) ↔
      results.filterMap (valueOf shown) ≠ [] := by
  obtain ⟨rest, hrest, hinvalidate⟩ := rollBack_run w service undo (before ++ [write] ++ tail)
  -- neither the rollback nor the invalidations read back
  have hback : ∀ effect ∈ undo :: rest ++ service.cells.map .invalidate, effect.isReadBack =
      false := by
    intro effect hmem
    rcases List.mem_append.mp hmem with hmem | hmem
    · rcases List.mem_cons.mp hmem with rfl | hmem
      · exact Effect.not_readBack_of_write hundo
      · exact (Effect.silent_of_invalidate (hinvalidate effect hmem)).1
    · exact (invalidations_silent service effect hmem).1
  have hwrites : (undo :: rest ++ service.cells.map Effect.invalidate).filter Effect.isWrite =
      [undo] := by
    have hnone : rest.filter Effect.isWrite = [] := List.filter_eq_nil_iff.mpr fun effect hmem => by
      simp [(Effect.silent_of_invalidate (hinvalidate effect hmem)).2]
    rw [List.filter_append, filter_invalidations, List.filter_cons_of_pos hundo, hnone]
    rfl
  rw [hrest, List.append_assoc (before ++ [write] ++ tail),
    verified_iff hobserves hbefore hwrite hspec
    hlength hback (fun after h => by cases h) (fun error _ => ?_), hwrites]
  · rw [← disagrees_iff hdesired]
    split
    · rename_i hdisagrees
      exact iff_of_true rfl hdisagrees
    · rename_i hagrees
      exact iff_of_false (fun h => nomatch h) hagrees
  · rw [← List.append_assoc]
    exact List.suffix_append _ _

end Outcomes

/-- The law holds unless the write is accepted, there is a value to go back to, and the read-backs
succeed without any value. -/
theorem settle_verified (hobserves : Observes read reading obtained shown Shows)
    (hbefore : ∀ effect ∈ before, effect.IsRead) (hwrite : write.isWrite = true)
    (hundo : ∀ effect, undo = some effect → effect.isWrite = true) :
    Verified service before write undo obtained desired shown Shows
        ((settle w service read reading
          (fun after => shown after = some desired) write undo).run.run before).1
        ((settle w service read reading
          (fun after => shown after = some desired) write undo).run.run before).2 ↔
      ¬(w.write (before ++ [write]) = .ok () ∧ undo ≠ none ∧
        Blind shown
          ((readBacks read reading (fun after => shown after = some desired) verifyDelays).run
            (before ++ [write])).1) := by
  cases hsent : w.write (before ++ [write]) with
  -- the vendor has refused the write, so there is nothing to roll back
  | error error =>
    rw [show (settle w service read reading
      (fun after => shown after = some desired) write undo).run.run
      before = _ from Fallible.run_bind_error (send_refused w service hsent),
      ← List.append_nil (before ++ [write])]
    refine iff_of_true ?_ fun h => nomatch h.1
    exact verified_given_up service hobserves hbefore hwrite .nil (Nat.zero_le 3) undo
      fun h => absurd h not_disagrees_nil
  -- the write was accepted and is read back
  | ok _ =>
    obtain ⟨tail, htail, hspec, hlength⟩ := readBacks_tail hobserves
      (fun after => decide (shown after = some desired)) verifyDelays (before ++ [write])
    rcases hbacks : (readBacks read reading (fun after => decide (shown after = some desired))
      verifyDelays).run (before ++ [write]) with ⟨results, log⟩
    rw [hbacks] at htail hspec hlength
    obtain rfl : log = before ++ [write] ++ tail := htail
    rw [settle_accepted hsent _ hbacks]
    -- a read-back has shown the desired value
    by_cases hdesired : desired ∈ results.filterMap (valueOf shown)
    · obtain ⟨after, hafter, hvalue⟩ := mem_values.mp hdesired
      obtain ⟨found, _, hmatch, hverdict⟩ := verdict_of_match
        (fun after => decide (shown after = some desired)) hafter (decide_eq_true hvalue)
      rw [hverdict]
      refine iff_of_true
        (verified_confirmed service hobserves hbefore hwrite hspec hlength undo hdesired
          (of_decide_eq_true hmatch)) fun h => ?_
      rw [h.2.2.2] at hdesired
      cases hdesired
    -- no read-back has shown it
    · have hno : ∀ after, .ok after ∈ results → decide (shown after = some desired) = false :=
        fun after hmem => decide_eq_false fun hvalue =>
          hdesired (mem_values.mpr ⟨after, hmem, hvalue⟩)
      rw [verdict_of_no_match hno]
      by_cases hok : results.any Except.isOk
      · -- a mismatch, with or without a value
        rw [if_pos hok]
        cases undo with
        | none =>
          refine iff_of_true ?_ fun h => h.2.1 rfl
          exact verified_given_up service hobserves hbefore hwrite hspec hlength none fun _ => rfl
        | some undo =>
          refine (verified_rolled_back service hobserves hbefore hwrite hspec hlength w
            (hundo undo rfl)
            hdesired).trans ?_
          exact ⟨fun hvalues h => hvalues h.2.2.2, fun h hvalues => h ⟨rfl, by simp, hok, hvalues⟩⟩
      -- all read-backs failed
      · rw [if_neg hok]
        have hnil : results.filterMap (valueOf shown) = [] := by
          refine List.filterMap_eq_nil_iff.mpr fun result hmem => ?_
          cases result with
          | error error => rfl
          | ok after => exact absurd (List.any_eq_true.mpr ⟨_, hmem, rfl⟩) hok
        refine iff_of_true ?_ fun h => hok h.2.2.1
        exact verified_given_up service hobserves hbefore hwrite hspec hlength undo
          fun h => absurd (hnil ▸ h) not_disagrees_nil

end Law

end Controls

end EzvizBridge
