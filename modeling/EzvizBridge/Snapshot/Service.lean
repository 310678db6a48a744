import EzvizBridge.Basic
import EzvizBridge.Lib.Guarded

/-!
# Snapshots

`SnapshotService` (`snapshot.rs`) as a service with one guarded cell for each camera
(`Lib.Guarded`). The cell is the last snapshot that was taken. It is served for `cache_duration`;
after that the camera is asked, and if that fails, the last snapshot is served for as long as
`stale_duration`.

The metrics are left out. Times are in milliseconds.
-/

namespace EzvizBridge

namespace Snapshot

open Guarded (Answer State Held Last Spaced about about_concat_self)

/-- `CachedSnapshot`. -/
structure CachedSnapshot where
  data : Bytes
  created : ℕ
  deriving DecidableEq

/-- The answer of the camera, and the reply of the service. -/
abbrev Picture := Except BridgeError Bytes

/-- `SnapshotService::get`: what it does with the cell of a camera before and after
`snapshot_jpeg`. -/
def snapshotService (cameras : List String) (cacheDuration staleDuration : ℕ) :
    Guarded.Service String Unit (Option CachedSnapshot) Picture Picture where
  look camera _ now cached :=
    if camera ∉ cameras then (cached, some (.error .cameraNotFound))
    else
      match cached with
      | some value =>
        if now - value.created ≤ cacheDuration then (cached, some (.ok value.data)) else
          (cached, none)
      | none => (cached, none)
  keep _ _ now answer cached :=
    match answer with
    -- a new picture replaces the cached one
    | .ok image => (some ⟨image, now⟩, .ok image)
    | .error error =>
      match cached with
      | some existing =>
        -- after a failure an older picture may do
        if now - existing.created ≤ staleDuration then (cached, .ok existing.data)
        else (cached, .error error)
      | none => (cached, .error error)

/-! ### What is served -/

/-- The cell has the last snapshot of its camera, and the camera is left alone while that is
recent. -/
def Kept (cacheDuration : ℕ) (log : List (Answer String Unit Picture)) (camera : String) (now : ℕ)
    (cached : Option CachedSnapshot) : Prop :=
  Held Except.toOption (fun _ => cacheDuration + 1) log camera now
    (cached.map fun value => (value.data, value.created))

/-- `image` is the last snapshot of `camera`, taken at `created`. -/
def LastOf (log : List (Answer String Unit Picture)) (camera : String) (image : Bytes)
    (created : ℕ) : Prop :=
  Last Except.toOption (about log camera) image created

/-- The camera has just answered with this error. -/
def Failed (log : List (Answer String Unit Picture)) (camera : String) (now : ℕ)
    (error : BridgeError) :
    Prop :=
  ∃ a ∈ about log camera, a.time = now ∧ a.answer = .error error

/-- What a reply says. -/
def Served (cameras : List String) (cacheDuration staleDuration : ℕ)
    (log : List (Answer String Unit Picture)) (camera : String) (_ : Unit) (now : ℕ) :
    Picture → Prop
  | .ok image =>
    ∃ created, LastOf log camera image created ∧
      (now ≤ created + cacheDuration ∨
        now ≤ created + staleDuration ∧ ∃ error, Failed log camera now error)
  | .error error =>
    (camera ∉ cameras ∧ error = .cameraNotFound) ∨
      Failed log camera now error ∧ ∀ image created, LastOf log camera image created →
        created + staleDuration < now

section Rules

variable {cameras : List String} {cacheDuration staleDuration now asked : ℕ} {camera : String}
  {log : List (Answer String Unit Picture)} {cached : Option CachedSnapshot}

/-- Looking for a picture does not change the cell. -/
theorem look_cell (now : ℕ) :
    ((snapshotService cameras cacheDuration staleDuration).look camera () now cached).1 =
      cached := by
  simp only [snapshotService]
  split
  · rfl
  · split
    · split <;> rfl
    · rfl

/-- The camera is asked when nothing recent is in the cell. -/
theorem look_none
    (h : ((snapshotService cameras cacheDuration staleDuration).look camera () asked cached).2 =
      none) :
    ∀ image created, (cached.map fun value => (value.data, value.created)) = some (image, created) →
      created + (cacheDuration + 1) ≤ asked := by
  simp only [snapshotService] at h
  -- an unknown camera is answered without looking at the cell
  split at h
  · cases h
  · split at h
    · next value =>
      -- a recent picture is answered from the cell, so the one that is there is old
      split at h
      · cases h
      · next hold =>
        rintro _ _ ⟨⟩
        omega
    · rintro _ _ ⟨⟩

/-- The last snapshot is the one in the cell. -/
theorem Kept.lastOf {value : CachedSnapshot} (h : Kept cacheDuration log camera now (some value)) :
    LastOf log camera value.data value.created :=
  h.last _ _ rfl

/-- An empty cell belongs to a camera without a snapshot. -/
theorem Kept.none_last {image : Bytes} {created : ℕ} (h : Kept cacheDuration log camera now none) :
    ¬ LastOf log camera image created := by
  intro hlast
  obtain ⟨a, ha, himage, -⟩ := hlast.mem
  rw [h.empty rfl a ha] at himage
  cases himage

/-- The obligations of a guarded service, for the pictures of the cameras. -/
theorem rules : Guarded.Rules (snapshotService cameras cacheDuration staleDuration)
    (Kept cacheDuration) (Served cameras cacheDuration staleDuration) where
  later log camera now time cached h hle := Held.later h hle
  other log camera now cached a h hne := Held.other h hne
  look log camera request now cached h := by
    -- the look leaves the cell alone
    rw [look_cell]
    exact h
  hit log camera request now cached reply h hreply := by
    -- the registry is asked first, and the camera is not in it
    simp only [snapshotService] at hreply
    split at hreply
    · next hunknown =>
      obtain rfl := Option.some.inj hreply
      exact .inl ⟨hunknown, rfl⟩
    · split at hreply
      -- the cell is asked next, and its picture is served while it is recent
      · next value =>
        split at hreply
        · next hrecent =>
          obtain rfl := Option.some.inj hreply
          exact ⟨value.created, h.lastOf, .inl (by omega)⟩
        · cases hreply
      · cases hreply
  keep log camera request asked now cached answer h hnone hle := by
    have hold := look_none hnone
    rw [look_cell]
    -- whatever the answer is, it is the newest entry of the log about this camera
    have hmem : (⟨camera, request, asked, now, answer⟩ : Answer String Unit Picture) ∈
        about (log ++ [⟨camera, request, asked, now, answer⟩]) camera := by
      rw [about_concat_self rfl]
      exact List.mem_append_right _ (List.mem_singleton_self _)
    -- the invariant of the cell survives an answer, as `Lib.Guarded` has it
    have hheld := Held.concat request h hold hle answer
    cases answer with
    -- a new picture is stored, and served
    | ok image =>
      have hkept : Kept cacheDuration (log ++ [⟨camera, request, asked, now, .ok image⟩]) camera now
          (some ⟨image, now⟩) := hheld
      exact ⟨hkept, now, hkept.lastOf, .inl (Nat.le_add_right _ _)⟩
    -- a failure leaves the cell as it is
    | error error =>
      have hkept : Kept cacheDuration
          (log ++ [⟨camera, request, asked, now, .error error⟩]) camera now
          cached := hheld
      have hfailed : Failed (log ++ [⟨camera, request, asked, now, .error error⟩]) camera
          now error :=
        ⟨_, hmem, rfl, rfl⟩
      -- without a picture the failure is passed on
      cases cached with
      | none =>
        exact ⟨hkept, .inr ⟨hfailed, fun image created hlast => absurd hlast hkept.none_last⟩⟩
      -- with one, it depends on the age of the picture at the time of the failure
      | some existing =>
        simp only [snapshotService]
        split
        · next hrecent =>
            exact ⟨hkept, existing.created, hkept.lastOf, .inr ⟨by omega, error, hfailed⟩⟩
        · next hstale =>
          refine ⟨hkept, .inr ⟨hfailed, fun image created hlast => ?_⟩⟩
          -- the last picture is the one in the cell, and it is too old
          obtain ⟨-, rfl⟩ := hkept.lastOf.unique hlast
          omega

/-- Whatever calls are made, dropped and answered: a snapshot that is served is the last one of its
camera, and it is recent, or the camera has failed just now and it is not stale; an error says that
the camera has failed just now and that nothing else could be served. A camera is asked by one call
at a time, and not while its last snapshot is recent. -/
theorem snapshots_served {events : List (Guarded.Event String Unit Picture)}
    {s : State String Unit (Option CachedSnapshot) Picture Picture}
    (hrun : EventSystem.run (State.step (snapshotService cameras cacheDuration staleDuration) none)
      { cells := fun _ => none } events = some s) :
    (∀ camera past time reply, s.Replied camera () past time reply →
      past <+: s.log ∧ Served cameras cacheDuration staleDuration past camera () time reply) ∧
    s.Sole ∧
    ∀ camera, Spaced Except.toOption (fun _ => cacheDuration + 1) (about s.log camera) := by
  -- the invariant holds of empty cells, and the rules carry it through the run
  have hstart : ∀ camera, Kept cacheDuration [] camera 0 none :=
    fun camera => Guarded.held_nil _ _ camera 0
  have hruled := rules.of_run hstart hrun
  exact ⟨fun camera past time reply hreply => hruled.replied hreply, hruled.sole,
    fun camera => (hruled.cells camera).spaced⟩

def sampleCalls : List (Guarded.Event String Unit Picture) :=
  [.call "front" (), .lock 0, .permit 0, .answer 0 (.ok [0xff]), .pass 10,
    .call "front" (), .lock 1, .permit 1, .answer 1 (.error .cameraOffline)]

/-- A picture, and a failure that is answered by it while it is not too old. -/
theorem snapshots_served_sample :
    ∃ past, Served ["front"] 3 900 past "front" () 10 (.ok [0xff]) ∧ past.length = 2 := by
  obtain ⟨s, hs, hcall⟩ :
      ∃ s ∈ EventSystem.run (State.step (snapshotService ["front"] 3 900) none) { cells := fun _ =>
        none }
          sampleCalls,
        s.calls[1]? = some ⟨"front", (), .returned [⟨"front", (), 0, 0, .ok [0xff]⟩,
          ⟨"front", (), 10, 10, .error .cameraOffline⟩] 10 (.ok [0xff])⟩ := by
    decide +kernel
  obtain ⟨hserved, -, -⟩ := snapshots_served hs
  exact ⟨_, (hserved _ _ _ _ ⟨1, hcall⟩).2, rfl⟩

end Rules

end Snapshot

end EzvizBridge
