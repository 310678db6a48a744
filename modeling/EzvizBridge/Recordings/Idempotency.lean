import EzvizBridge.Recordings.Steps

/-!
# Idempotency keys

The key of a request stands for one recording. It is in the map `idempotency` while the recording
is there, and in a tombstone after the recording was acknowledged.

* `State.Consistent` — the invariant that couples manifests, keys and tombstones;
* `coherent_run` — it holds of the memory and of the journal after every run, crashes included,
  whether the journal could be written or not;
* `recording_keys_survive` — what that means for requests;
* `refused_request_leaves_no_trace_iff` — a refused request changes nothing, unless it was admitted
  and the journal could not be written.
-/

namespace EzvizBridge

namespace Recordings

/-! ### Requests -/

namespace RecordingManifest

/-- What `same_request` compares. -/
def request (self : RecordingManifest) : String × ℕ × Option Source × Option ℤ × Option ℤ :=
  (self.camera, self.requestedDurationSeconds, self.source, self.sdStart, self.sdEnd)

/-- `same_request` compares what was asked for. -/
theorem sameRequest_iff {m m' : RecordingManifest} :
    m.sameRequest m' = true ↔ m.request = m'.request := by
  simp [sameRequest, request]

end RecordingManifest

/-- The key is taken: a recording has it, or a tombstone keeps it. -/
def State.Holds (self : State) (key : String) : Prop :=
  (∃ e ∈ self.idempotency, e.1 = key) ∨
    ∃ t ∈ self.acknowledgements, t.idempotencyKey = some key

/-- What it takes for a request to be admitted: a key of its own, no conflict on the camera, and
room in the spool. -/
structure Admissible (cfg : Config) (state : State) (key : String) (m : RecordingManifest)
    (exclusive : Bool) (spool : Except BridgeError ℕ) : Prop where
  size : 8 ≤ key.utf8ByteSize ∧ key.utf8ByteSize ≤ 128
  unheld : ¬ state.Holds key
  apart : exclusive = true → ∀ m' ∈ state.manifests, m'.camera = m.camera → m'.isActive = false
  room : ∃ total, spool = .ok total ∧
    admits total state.active.length cfg.maxBytes cfg.quotaBytes = true

/-- A recording is admitted exactly when none of the guards of `enqueue` speaks. -/
theorem admission_eq_none_iff {cfg : Config} {state : State} {key : String} {m : RecordingManifest}
    {exclusive : Bool} {spool : Except BridgeError ℕ} :
    admission cfg state key m exclusive spool = .ok none ↔
      Admissible cfg state key m exclusive spool := by
  unfold admission
  constructor
  -- each guard in the order of the source
  · intro h
    split at h
    · cases h
    rename_i hsize
    split at h
    · cases h
    rename_i hack
    split at h
    · -- a known key is never admitted
      split at h
      · cases h
      · split at h <;> simp at h
    rename_i hkey
    split at h
    · cases h
    rename_i hconflict
    split at h
    · cases h
    split_ifs at h with hquota
    refine ⟨not_not.mp hsize, ?_, ?_, _, rfl, hquota⟩
    -- the key is held by no recording and by no tombstone
    · rintro (⟨e, he, heq⟩ | ⟨t, ht, heq⟩)
      · exact Keyed.lookup_eq_none.mp hkey e he heq
      · exact hack (List.any_eq_true.mpr ⟨t, ht, decide_eq_true heq⟩)
    -- an exclusive recording finds no active one on its camera
    · intro hexclusive m' hm' hcamera
      by_contra hactive
      rw [Bool.not_eq_false] at hactive
      exact hconflict ⟨hexclusive, List.any_eq_true.mpr
        ⟨m', hm', decide_eq_true ⟨hcamera, hactive⟩⟩⟩
  -- the other way round, each guard is passed
  · rintro ⟨hsize, hunheld, hapart, total, rfl, hquota⟩
    have hack : ¬ (state.acknowledgements.any fun t => t.idempotencyKey = some key) = true := by
      intro h
      obtain ⟨t, ht, heq⟩ := List.any_eq_true.mp h
      exact hunheld (.inr ⟨t, ht, of_decide_eq_true heq⟩)
    have hkey : Keyed.lookup Prod.fst state.idempotency key = none :=
      Keyed.lookup_eq_none.mpr fun e he heq => hunheld (.inl ⟨e, he, heq⟩)
    have hconflict : ¬ (exclusive = true ∧
        (state.manifests.any fun m' => m'.camera = m.camera ∧ m'.isActive) = true) := by
      rintro ⟨hexclusive, h⟩
      obtain ⟨m', hm', heq⟩ := List.any_eq_true.mp h
      obtain ⟨hcamera, hactive⟩ := of_decide_eq_true heq
      rw [hapart hexclusive m' hm' hcamera] at hactive
      cases hactive
    rw [if_neg (not_not.mpr hsize), if_neg hack, hkey]
    dsimp only
    rw [if_neg hconflict, if_pos hquota]

/-! ### The invariant of the state -/

namespace State

/-- The ids of all recordings. -/
def ids (self : State) : List Uuid := self.manifests.map RecordingManifest.recordingId

/-- Manifests, keys and tombstones fit together. -/
structure Consistent (state : State) : Prop where
  ids : Keyed.Distinct RecordingManifest.recordingId state.manifests
  keys : Keyed.Distinct Prod.fst state.idempotency
  once : Keyed.Distinct Prod.snd state.idempotency
  known : ∀ e ∈ state.idempotency, e.2 ∈ state.ids
  sized : ∀ key, state.Holds key → 8 ≤ key.utf8ByteSize ∧ key.utf8ByteSize ≤ 128
  retired : ∀ t ∈ state.acknowledgements, t.recordingId ∉ state.ids
  apart : ∀ t ∈ state.acknowledgements, ∀ e ∈ state.idempotency, t.idempotencyKey ≠ some e.1
  bounded : state.acknowledgements.length ≤ maxAckTombstones

variable {self other : State} {id : Uuid} {m : RecordingManifest}

/-- A recording is found exactly when its id is there. -/
theorem get_isSome : (self.get id).isSome = true ↔ id ∈ self.ids := Keyed.lookup_isSome

theorem get_eq_none : self.get id = none ↔ id ∉ self.ids := by
  rw [← get_isSome, Bool.not_eq_true, Option.isSome_eq_false_iff, Option.isNone_iff_eq_none]

theorem mem_of_get (h : self.get id = some m) : m ∈ self.manifests ∧ m.recordingId = id :=
  Keyed.mem_of_lookup h

/-- A manifest that is there has its id there. -/
theorem mem_ids (h : m ∈ self.manifests) : m.recordingId ∈ self.ids := List.mem_map_of_mem h

@[simp] theorem ids_update {f : RecordingManifest → RecordingManifest}
    (hf : ∀ m, (f m).recordingId = m.recordingId) : (self.update id f).ids = self.ids :=
  Keyed.map_key_modify hf

/-- The empty state. -/
theorem consistent_empty : ({} : State).Consistent where
  ids := List.nodup_nil
  keys := List.nodup_nil
  once := List.nodup_nil
  known _ h := nomatch h
  sized := by
    rintro key (⟨_, h, -⟩ | ⟨_, h, -⟩) <;> exact nomatch h
  retired _ h := nomatch h
  apart _ h := nomatch h
  bounded := Nat.zero_le _

/-- Only the ids of the manifests matter. -/
theorem Consistent.congr (h : self.Consistent) (hids : other.ids = self.ids)
    (hkeys : other.idempotency = self.idempotency)
    (hacks : other.acknowledgements = self.acknowledgements) : other.Consistent where
  ids := by
    rw [Keyed.Distinct, ← State.ids, hids]
    exact h.ids
  keys := hkeys ▸ h.keys
  once := hkeys ▸ h.once
  known := by
    rw [hkeys, hids]
    exact h.known
  sized := by
    intro key hkey
    rw [Holds, hkeys, hacks] at hkey
    exact h.sized key hkey
  retired := by
    rw [hacks, hids]
    exact h.retired
  apart := by
    rw [hacks, hkeys]
    exact h.apart
  bounded := hacks ▸ h.bounded

/-- A new recording under a key that nobody holds. -/
theorem Consistent.enter {key : String} (h : self.Consistent)
    (hsize : 8 ≤ key.utf8ByteSize ∧ key.utf8ByteSize ≤ 128) (hunheld : ¬ self.Holds key)
    (hid : m.recordingId ∉ self.ids)
    (hretired : ∀ t ∈ self.acknowledgements, t.recordingId ≠ m.recordingId) :
    (self.enter key m).Consistent := by
  -- neither the key nor the id is there yet, so both are appended
  have hkeys : (self.enter key m).idempotency = self.idempotency ++ [(key, m.recordingId)] :=
    Keyed.insert_of_new fun e he heq => hunheld (.inl ⟨e, he, heq⟩)
  have hmanifests : (self.enter key m).manifests = self.manifests ++ [m] := by
    refine Keyed.insert_of_new fun m' hm' heq => hid ?_
    exact heq ▸ mem_ids hm'
  have hids : (self.enter key m).ids = self.ids ++ [m.recordingId] := by
    rw [State.ids, hmanifests, List.map_append, List.map_singleton]
    rfl
  refine ⟨Keyed.distinct_insert h.ids, Keyed.distinct_insert h.keys, ?_, ?_, ?_, ?_, ?_, h.bounded⟩
  -- the new id is not in the map
  · rw [hkeys, Keyed.Distinct, List.map_append, List.map_singleton]
    refine List.Nodup.append h.once (List.nodup_singleton _) ?_
    intro x hx hnew
    obtain ⟨e, he, rfl⟩ := List.mem_map.mp hx
    have heq : e.2 = m.recordingId := List.mem_singleton.mp hnew
    exact hid (heq ▸ h.known e he)
  · intro e he
    rw [hkeys, List.mem_append, List.mem_singleton] at he
    rw [hids, List.mem_append, List.mem_singleton]
    rcases he with he | rfl
    · exact .inl (h.known e he)
    · exact .inr rfl
  -- the key that enters has a length that was checked
  · rintro key' (⟨e, he, rfl⟩ | hold)
    · rw [hkeys, List.mem_append, List.mem_singleton] at he
      rcases he with he | rfl
      · exact h.sized _ (.inl ⟨e, he, rfl⟩)
      · exact hsize
    · exact h.sized _ (.inr hold)
  -- the new id has no tombstone
  · intro t ht hmem
    rw [hids, List.mem_append, List.mem_singleton] at hmem
    exact hmem.elim (h.retired t ht) (hretired t ht)
  -- nor has the new key
  · intro t ht e he
    rw [hkeys, List.mem_append, List.mem_singleton] at he
    rcases he with he | rfl
    · exact h.apart t ht e he
    · exact fun heq => hunheld (.inr ⟨t, ht, heq⟩)

theorem mem_pushTombstone {acks : List AckTombstone} {t t' : AckTombstone}
    (h : t' ∈ pushTombstone acks t) : t' ∈ acks ∨ t' = t := by
  have hmem := List.mem_of_mem_drop h
  rwa [List.mem_append, List.mem_singleton] at hmem

theorem length_pushTombstone (acks : List AckTombstone) (t : AckTombstone) :
    (pushTombstone acks t).length ≤ maxAckTombstones := by
  rw [pushTombstone, List.length_drop]
  omega

/-- The key under which a recording is known. -/
def keyOf (self : State) (id : Uuid) : Option String :=
  (self.idempotency.find? fun e => e.2 = id).map Prod.fst

theorem mem_of_keyOf {key : String} (h : self.keyOf id = some key) :
    (key, id) ∈ self.idempotency := by
  obtain ⟨e, he, rfl⟩ := Option.map_eq_some_iff.mp h
  have hid : e.2 = id := by simpa using List.find?_some he
  exact hid ▸ List.mem_of_find?_eq_some he

theorem release_acknowledgements (self : State) (id : Uuid) (now : Timestamp) :
    (self.release id now).acknowledgements =
      pushTombstone self.acknowledgements ⟨id, self.keyOf id, now⟩ := by
  rw [release, keyOf]

/-- An acknowledged recording: its key moves into the tombstone. -/
theorem Consistent.release (h : self.Consistent) (id : Uuid) (now : Timestamp) :
    (self.release id now).Consistent := by
  -- what is left of map and ids is what is not about this id
  have hkept : ∀ e ∈ (self.release id now).idempotency, e ∈ self.idempotency ∧ e.2 ≠ id := by
    intro e he
    simpa [State.release] using he
  have hids : ∀ {x : Uuid}, x ∈ (self.release id now).ids ↔ x ∈ self.ids ∧ x ≠ id := by
    intro x
    simp only [State.ids, State.release, List.mem_map, Keyed.mem_remove]
    constructor
    · rintro ⟨m, ⟨hm, hne⟩, rfl⟩
      exact ⟨⟨m, hm, rfl⟩, hne⟩
    · rintro ⟨⟨m, hm, rfl⟩, hne⟩
      exact ⟨m, ⟨hm, hne⟩, rfl⟩
  have hacks : ∀ t ∈ (self.release id now).acknowledgements,
      t ∈ self.acknowledgements ∨ t = ⟨id, self.keyOf id, now⟩ := by
    intro t ht
    rw [release_acknowledgements] at ht
    exact mem_pushTombstone ht
  refine ⟨Keyed.distinct_remove h.ids, h.keys.sublist (List.filter_sublist.map _),
    h.once.sublist (List.filter_sublist.map _), ?_, ?_, ?_, ?_, ?_⟩
  · intro e he
    obtain ⟨he, hne⟩ := hkept e he
    exact hids.mpr ⟨h.known e he, hne⟩
  -- a key that is held was held before, by a recording or by a tombstone
  · rintro key (⟨e, he, rfl⟩ | ⟨t, ht, hkey⟩)
    · exact h.sized _ (.inl ⟨e, (hkept e he).1, rfl⟩)
    · obtain ht | rfl := hacks t ht
      · exact h.sized _ (.inr ⟨t, ht, hkey⟩)
      · exact h.sized _ (.inl ⟨_, mem_of_keyOf hkey, rfl⟩)
  -- the released id is gone
  · intro t ht hmem
    obtain ht | rfl := hacks t ht
    · exact h.retired t ht (hids.mp hmem).1
    · exact (hids.mp hmem).2 rfl
  · intro t ht e he hkey
    obtain ⟨he, hne⟩ := hkept e he
    obtain ht | rfl := hacks t ht
    · exact h.apart t ht e he hkey
    · -- the entry under the tombstone's key is the one that was dropped
      have heq : e = (e.1, id) := Keyed.eq_of_mem h.keys he (mem_of_keyOf hkey) rfl
      exact hne (congrArg Prod.snd heq)
  · rw [release_acknowledgements]
    exact length_pushTombstone _ _

/-- The journal of a consistent state is loaded as that state. -/
theorem loadState_journal (h : self.Consistent) : loadState (some self.journal) = self := by
  simp only [loadState, journal, Keyed.foldl_insert h.ids]

end State

/-! ### Requests under a known key -/

section

variable {cfg : Config} {state : State} {key : String} {m : RecordingManifest} {exclusive : Bool}
    {spool : Except BridgeError ℕ}

/-- The answer to a request under the key of a recording. -/
def repeated (first m : RecordingManifest) : Except BridgeError (Option RecordingManifest) :=
  if first.sameRequest m then .ok (some first)
  else .error (.recording "Idempotency-Key was reused with a different request")

/-- A known key is answered by its recording, or by the error for another request. -/
theorem admission_of_known (h : state.Consistent) {id : Uuid}
    (hkey : (key, id) ∈ state.idempotency) :
    ∃ first, state.get id = some first ∧
      admission cfg state key m exclusive spool = repeated first m := by
  -- a key in the map has passed the check on its length
  have hsize := h.sized key (.inl ⟨_, hkey, rfl⟩)
  -- it is in no tombstone
  have hack : ¬ (state.acknowledgements.any fun t => t.idempotencyKey = some key) = true := by
    simpa using fun t ht => h.apart t ht _ hkey
  have hlookup := (Keyed.lookup_eq_some h.keys).mpr ⟨hkey, rfl⟩
  -- and it leads to a manifest
  obtain ⟨first, hfirst⟩ := Option.isSome_iff_exists.mp (State.get_isSome.mpr (h.known _ hkey))
  refine ⟨first, hfirst, ?_⟩
  unfold admission
  rw [if_neg (not_not.mpr hsize), if_neg hack, hlookup]
  simp only [hfirst, repeated]

/-- A key in a tombstone is refused. -/
theorem admission_of_tombstone (h : state.Consistent) {t : AckTombstone}
    (ht : t ∈ state.acknowledgements) (hkey : t.idempotencyKey = some key) :
    admission cfg state key m exclusive spool =
      .error (.recording "Idempotency-Key belongs to an acknowledged recording") := by
  have hsize := h.sized key (.inr ⟨t, ht, hkey⟩)
  have hack : (state.acknowledgements.any fun t => t.idempotencyKey = some key) = true :=
    List.any_eq_true.mpr ⟨t, ht, decide_eq_true hkey⟩
  unfold admission
  rw [if_neg (not_not.mpr hsize), if_pos hack]

/-- The map never leads to a recording that is not there. -/
theorem admission_ne_inconsistent (h : state.Consistent) (scan : Except String ℕ) :
    admission cfg state key m exclusive (scan.mapError .io) ≠
      .error (.recording "recording journal is inconsistent") := by
  -- the key is in the map, or it is looked up in vain
  by_cases hkey : ∃ id, (key, id) ∈ state.idempotency
  · obtain ⟨id, hkey⟩ := hkey
    obtain ⟨first, -, heq⟩ :=
      @admission_of_known cfg state key m exclusive (scan.mapError .io) h id hkey
    rw [heq, repeated]
    split_ifs <;> simp
  · have hlookup : Keyed.lookup Prod.fst state.idempotency key = none := by
      refine Keyed.lookup_eq_none.mpr fun e he heq => hkey ⟨e.2, ?_⟩
      exact heq ▸ he
    unfold admission
    rw [hlookup]
    cases scan <;> simp only [Except.mapError] <;> split_ifs <;> simp

end

/-! ### Memory and journal -/

namespace Manager

variable {cfg : Config} {sha256 : Sha256} {s s' : Manager}

/-- A state of the process, in memory or as the journal has it, whose ids were all given out. -/
structure Sound (used : List Uuid) (state : State) : Prop where
  consistent : state.Consistent
  issued : ∀ id ∈ state.ids, id ∈ used
  buried : ∀ t ∈ state.acknowledgements, t.recordingId ∈ used

/-- Memory and journal are sound, and they agree on what was asked for. -/
structure Coherent (s : Manager) : Prop where
  state : Sound s.used s.state
  journal : Sound s.used (loadState s.journal)
  agree : ∀ m ∈ s.state.manifests, ∀ m' ∈ (loadState s.journal).manifests,
    m.recordingId = m'.recordingId → m.request = m'.request

theorem Sound.mono {used used' : List Uuid} {state : State} (h : Sound used state)
    (hsub : used ⊆ used') : Sound used' state :=
  ⟨h.consistent, fun id hid => hsub (h.issued id hid), fun t ht => hsub (h.buried t ht)⟩

theorem Sound.congr {used : List Uuid} {state state' : State} (h : Sound used state)
    (hids : state'.ids = state.ids) (hkeys : state'.idempotency = state.idempotency)
    (hacks : state'.acknowledgements = state.acknowledgements) : Sound used state' :=
  ⟨h.consistent.congr hids hkeys hacks, hids ▸ h.issued, hacks ▸ h.buried⟩

theorem sound_empty (used : List Uuid) : Sound used {} :=
  ⟨State.consistent_empty, fun _ h => (nomatch h), fun _ h => (nomatch h)⟩

/-- Before the first start nothing is known. -/
theorem coherent_fresh (directory : Directory) : Coherent { directory } :=
  ⟨sound_empty _, sound_empty _, fun _ h => nomatch h⟩

/-- A journal that was left alone or written anew. -/
theorem loadState_cases {used : List Uuid} (hstate : Sound used s'.state)
    (h : s'.journal = s.journal ∨ s'.journal = some s'.state.journal) :
    loadState s'.journal = loadState s.journal ∨ loadState s'.journal = s'.state := by
  obtain h | h := h
  · exact .inl (congrArg loadState h)
  · exact .inr (h ▸ State.loadState_journal hstate.consistent)

/-- Two manifests of one id in a sound state are the same. -/
theorem Sound.request_unique {used : List Uuid} {state : State} (h : Sound used state) :
    ∀ m ∈ state.manifests, ∀ m' ∈ state.manifests,
      m.recordingId = m'.recordingId → m.request = m'.request := by
  intro m hm m' hm' hid
  rw [Keyed.eq_of_mem h.consistent.ids hm hm' hid]

/-- A step that leaves the journal alone or writes the new state to it. -/
theorem Coherent.of_state (h : s.Coherent) (hused : s.used ⊆ s'.used)
    (hstate : Sound s'.used s'.state)
    (hjournal : s'.journal = s.journal ∨ s'.journal = some s'.state.journal)
    (hagree : ∀ m ∈ s'.state.manifests, ∀ m' ∈ (loadState s.journal).manifests,
      m.recordingId = m'.recordingId → m.request = m'.request) : s'.Coherent := by
  rcases loadState_cases hstate hjournal with heq | heq
  · exact ⟨hstate, heq ▸ h.journal.mono hused, heq ▸ hagree⟩
  · exact ⟨hstate, heq ▸ hstate, heq ▸ hstate.request_unique⟩

/-! ### Steps -/

theorem request_of_moves {id : Uuid} {kind : JobKind} {found : Option RecordingManifest}
    {d d' : Directory} {e : Event} {p q : JobPhase} {f : RecordingManifest → RecordingManifest}
    (h : Moves cfg sha256 id kind found d e p q f d') (m : RecordingManifest) :
    (f m).recordingId = m.recordingId ∧ (f m).request = m.request := by
  cases h <;> exact ⟨rfl, rfl⟩

/-- A change to one manifest that leaves its id and its request alone. -/
theorem request_update {state : State} {id : Uuid} {f : RecordingManifest → RecordingManifest}
    (hf : ∀ m, (f m).recordingId = m.recordingId ∧ (f m).request = m.request)
    {m : RecordingManifest} (hm : m ∈ (state.update id f).manifests) :
    ∃ m₀ ∈ state.manifests, m₀.recordingId = m.recordingId ∧ m₀.request = m.request := by
  obtain ⟨m₀, hm₀, rfl⟩ := Keyed.mem_modify.mp hm
  refine ⟨m₀, hm₀, ?_⟩
  split_ifs
  · exact ⟨(hf m₀).1.symm, (hf m₀).2.symm⟩
  · exact ⟨rfl, rfl⟩

/-- Nor does the recovery. -/
theorem recoverManifest_request (directory : Directory) (now : Timestamp) (m : RecordingManifest) :
    (recoverManifest sha256 directory now m).recordingId = m.recordingId ∧
      (recoverManifest sha256 directory now m).request = m.request := by
  unfold recoverManifest
  dsimp only
  split_ifs
  · split <;> exact ⟨rfl, rfl⟩
  · exact ⟨rfl, rfl⟩
  · exact ⟨rfl, rfl⟩

/-- A recording that is admitted has a new id. -/
theorem coherent_admitted {key : String} {m : RecordingManifest} {kind : JobKind}
    {scan : Except BridgeError Directory} {persist : Persist} (h : s.Coherent)
    (hadm : Admitted cfg s key m kind scan persist s') : s'.Coherent := by
  have hadmissible := admission_eq_none_iff.mp hadm.accepts
  have hnew : ∀ {state : State}, Sound s.used state → m.recordingId ∉ state.ids :=
    fun hsound hmem => hadm.fresh (hsound.issued _ hmem)
  have hused : s.used ⊆ s'.used := hadm.used ▸ List.subset_append_left _ _
  have hmem : ∀ {m'}, m' ∈ s'.state.manifests → m' ∈ s.state.manifests ∨ m' = m := by
    intro m' hm'
    rw [hadm.state] at hm'
    exact (Keyed.mem_insert.mp hm').imp And.left id
  have hconsistent : s'.state.Consistent := by
    rw [hadm.state]
    -- the key passed the guards, and the id is not used
    refine h.state.consistent.enter hadmissible.size hadmissible.unheld (hnew h.state) ?_
    exact fun t ht heq => hadm.fresh (heq ▸ h.state.buried t ht)
  have hsound : Sound s'.used s'.state := by
    refine ⟨hconsistent, ?_, ?_⟩
    · intro x hx
      obtain ⟨m', hm', rfl⟩ := List.mem_map.mp hx
      obtain hm' | rfl := hmem hm'
      · exact hused (h.state.issued _ (State.mem_ids hm'))
      · rw [hadm.used]
        exact List.mem_append_right _ (List.mem_singleton_self _)
    · rw [hadm.state]
      exact fun t ht => hused (h.state.buried t ht)
  -- the journal is as it was, or it is the new state
  refine h.of_state hused hsound hadm.journal ?_
  intro m₁ hm₁ m₂ hm₂ hid
  obtain hm₁ | rfl := hmem hm₁
  · exact h.agree m₁ hm₁ m₂ hm₂ hid
  · -- the journal does not know the new id
    exact absurd (hid ▸ State.mem_ids hm₂) (hnew h.journal)

/-- An acknowledged recording leaves its key in a tombstone. -/
theorem coherent_acknowledged {id : Uuid} {now : Timestamp} {faults : AckFaults} (h : s.Coherent)
    (hack : Acknowledged s id now faults s') : s'.Coherent := by
  cases hack with
  | refused => exact h
  | removed => exact ⟨h.state, h.journal, h.agree⟩
  -- the state is released, and the journal with it or not
  | @released m journal hget _ hjournal _ =>
    have hsub : ∀ m' ∈ (s.state.release id now).manifests, m' ∈ s.state.manifests :=
      fun m' hm' => (Keyed.mem_remove.mp hm').1
    have hsound : Sound s.used (s.state.release id now) := by
      refine ⟨h.state.consistent.release id now, ?_, ?_⟩
      · intro x hx
        obtain ⟨m', hm', rfl⟩ := List.mem_map.mp hx
        exact h.state.issued _ (State.mem_ids (hsub m' hm'))
      · intro t ht
        rw [State.release_acknowledgements] at ht
        obtain ht | rfl := State.mem_pushTombstone ht
        · exact h.state.buried t ht
        · obtain ⟨hm, rfl⟩ := State.mem_of_get hget
          exact h.state.issued _ (State.mem_ids hm)
    refine Coherent.of_state h (List.Subset.refl _) hsound hjournal ?_
    exact fun m₁ hm₁ => h.agree m₁ (hsub m₁ hm₁)

/-- Recovery changes manifests only. -/
theorem sound_recover {used : List Uuid} {state : State} (h : Sound used state)
    (directory : Directory) (now : Timestamp) :
    Sound used (recover sha256 directory now state).2 := by
  refine h.congr ?_ rfl rfl
  rw [State.ids, recover, List.map_map]
  exact List.map_congr_left fun m _ => (recoverManifest_request directory now m).1

/-- After a start the memory is what was recovered from the journal. -/
theorem coherent_restarted {now : Timestamp} (h : s.Coherent)
    (hres : Restarted sha256 s now s') : s'.Coherent := by
  set loaded := loadState s.journal with hloaded
  set recovered := (recover sha256 s.directory now loaded).2 with hrecovered
  -- a recovered manifest comes from one of the journal
  have hrequest : ∀ m ∈ recovered.manifests,
      ∃ m₀ ∈ loaded.manifests, m₀.recordingId = m.recordingId ∧ m₀.request = m.request := by
    intro m hm
    obtain ⟨m₀, hm₀, rfl⟩ := List.mem_map.mp hm
    obtain ⟨hid, hreq⟩ := @recoverManifest_request sha256 s.directory now m₀
    exact ⟨m₀, hm₀, hid.symm, hreq.symm⟩
  have hsound : Sound s'.used recovered := hres.used ▸ sound_recover h.journal s.directory now
  have hjournal : Sound s'.used (loadState s'.journal) := by
    rcases hres.journal with heq | heq
    · rw [heq, hres.used]
      exact h.journal
    · rw [heq, State.loadState_journal hsound.consistent]
      exact hsound
  -- the start has ended well, or it has failed and nothing is known
  rcases hres.state with ⟨-, hstate⟩ | ⟨-, hstate⟩
  · refine ⟨hstate ▸ hsound, hjournal, ?_⟩
    rw [hstate]
    -- the journal is the one of before, or what was recovered
    rcases hres.journal with heq | heq
    · intro m hm m' hm' hid
      obtain ⟨m₀, hm₀, hid₀, hreq₀⟩ := hrequest m hm
      rw [← hreq₀]
      rw [heq] at hm'
      exact h.journal.request_unique m₀ hm₀ m' hm' (hid₀.trans hid)
    · rw [heq, State.loadState_journal hsound.consistent]
      exact hsound.request_unique
  · refine ⟨hstate ▸ sound_empty _, hjournal, ?_⟩
    rw [hstate]
    exact fun _ hm => nomatch hm

/-- A step of a job changes the manifest of its recording. -/
theorem coherent_job {e : Event} {id : Uuid} {p q : JobPhase}
    {f : RecordingManifest → RecordingManifest} (h : s.Coherent)
    (hjob : JobStep cfg sha256 s e id p q f s') : s'.Coherent := by
  obtain ⟨kind, -, hmoves, -⟩ := hjob.moves
  have hf := request_of_moves hmoves
  refine h.of_state (hjob.used ▸ List.Subset.refl _) ?_ hjob.journal ?_
  · rw [hjob.used, hjob.state]
    exact h.state.congr (State.ids_update fun m => (hf m).1) rfl rfl
  · intro m hm m' hm' hid
    rw [hjob.state] at hm
    obtain ⟨m₀, hm₀, hid₀, hreq₀⟩ := request_update hf hm
    rw [← hreq₀]
    exact h.agree m₀ hm₀ m' hm' (hid₀.trans hid)

/-- Every step keeps memory and journal about the same recordings. -/
theorem coherent_step {e : Event} (h : s.Coherent) (hstep : s.step cfg sha256 e = some s') :
    s'.Coherent := by
  cases step_cases hstep with
  -- what changes nothing that matters
  | idle hidle =>
    refine ⟨?_, ?_, ?_⟩
    · rw [hidle.state]
      exact h.state.mono hidle.used
    · rw [hidle.journal]
      exact h.journal.mono hidle.used
    · rw [hidle.state, hidle.journal]
      exact h.agree
  | admitted _ hadm => exact coherent_admitted h hadm
  | spawn _ => exact ⟨h.state, h.journal, h.agree⟩
  | acknowledge _ hack => exact coherent_acknowledged h hack
  -- the journal outlives the crash
  | crash => exact ⟨sound_empty _, h.journal, fun _ hm => nomatch hm⟩
  | restart hres => exact coherent_restarted h hres
  | job hjob => exact coherent_job h hjob

/-- **Memory and journal are consistent in every run.** -/
theorem coherent_run {events : List Event} (h : s.Coherent)
    (hrun : EventSystem.run (step cfg sha256) s events = some s') : s'.Coherent :=
  EventSystem.run_keeps Coherent (fun _ _ _ => coherent_step) h hrun

/-! ### Writes that succeed -/

/-- Every write of the journal in an event succeeds. -/
def persists : Event → Prop
  | .start _ _ _ _ _ _ persist | .startSd _ _ _ _ persist | .begin _ persist | .record _ _ persist
  | .restart _ persist => persist = .ok
  | .acknowledge _ _ faults => faults.persist = .ok
  | _ => True

/-- The journal has the keys and the tombstones of the memory. -/
def Durable (s : Manager) : Prop :=
  s.running = true → (loadState s.journal).idempotency = s.state.idempotency ∧
    (loadState s.journal).acknowledgements = s.state.acknowledgements

/-- With a journal that is written, the keys and tombstones of the memory are in it. -/
theorem durable_step {e : Event} (h : s.Durable) (hok : persists e)
    (hstep : s.step cfg sha256 e = some s') : s'.Durable := by
  intro hrunning
  cases step_cases hstep with
  | idle hidle =>
    rw [hidle.journal, hidle.state]
    exact h (hidle.running ▸ hrunning)
  -- the admission is persisted before it is answered
  | @admitted _ _ _ _ _ persist _ hreq hadm =>
    have hpersist : persist = .ok := by
      cases hreq <;> exact hok
    rw [hadm.written hpersist]
    exact ⟨rfl, rfl⟩
  | spawn _ => exact h hrunning
  | acknowledge hwas hack =>
    cases hack with
    | refused => exact h hwas
    | removed => exact h hwas
    -- so is the release
    | released _ _ _ hjournal =>
      rw [hjournal hok]
      simp only [loadState, State.journal, and_self]
  | crash => exact nomatch hrunning
  | restart hres =>
    -- recovery changes manifests only
    rcases hres.state with ⟨-, hstate⟩ | ⟨hstopped, -⟩
    · rcases hres.journal with heq | heq <;> rw [heq, hstate] <;> exact ⟨rfl, rfl⟩
    · exact nomatch hrunning.symm.trans hstopped
  -- a job writes the journal, or changes no key
  | job hjob =>
    have hwas := h (hjob.running ▸ hrunning)
    rcases hjob.journal with heq | heq <;> rw [heq, hjob.state]
    · exact hwas
    · exact ⟨rfl, rfl⟩

/-! ### Whole runs -/

/-- A manifest that the process has in memory, or would find in its journal. -/
def Knows (s : Manager) (m : RecordingManifest) : Prop :=
  m ∈ s.state.manifests ∨ m ∈ (loadState s.journal).manifests

/-- A manifest of an earlier id with the same request. -/
def Traces (s : Manager) (m : RecordingManifest) : Prop :=
  ∃ m₀, s.Knows m₀ ∧ m₀.recordingId = m.recordingId ∧ m₀.request = m.request

/-- A recording that is known has been known before, when that holds of the memory. -/
theorem traces_of_state (hcoherent : s'.Coherent)
    (hjournal : s'.journal = s.journal ∨ s'.journal = some s'.state.journal)
    (hstate : ∀ m ∈ s'.state.manifests, m.recordingId ∈ s.used → s.Traces m)
    {m : RecordingManifest} (hm : s'.Knows m) (hused : m.recordingId ∈ s.used) : s.Traces m := by
  rcases hm with hm | hm
  · exact hstate m hm hused
  · rcases loadState_cases hcoherent.state hjournal with heq | heq <;> rw [heq] at hm
    · exact ⟨m, .inr hm, rfl, rfl⟩
    · exact hstate m hm hused

/-- No step changes what an id was asked for. -/
theorem traces_step {e : Event} {m : RecordingManifest} (h : s.Coherent)
    (hstep : s.step cfg sha256 e = some s') (hm : s'.Knows m) (hused : m.recordingId ∈ s.used) :
    s.Traces m := by
  have h' := coherent_step h hstep
  -- by the step: a manifest is there with the same request, or its id is new
  cases step_cases hstep with
  | idle hidle =>
    rw [Knows, hidle.state, hidle.journal] at hm
    exact ⟨m, hm, rfl, rfl⟩
  | admitted _ hadm =>
    refine traces_of_state h' hadm.journal ?_ hm hused
    intro m' hm' hused'
    rw [hadm.state] at hm'
    rcases Keyed.mem_insert.mp hm' with ⟨hm', -⟩ | rfl
    · exact ⟨m', .inl hm', rfl, rfl⟩
    · exact absurd hused' hadm.fresh
  | spawn _ => exact ⟨m, hm, rfl, rfl⟩
  | acknowledge _ hack =>
    cases hack with
    | refused => exact ⟨m, hm, rfl, rfl⟩
    | removed => exact ⟨m, hm, rfl, rfl⟩
    | released _ _ hjournal _ =>
      refine traces_of_state h' hjournal ?_ hm hused
      exact fun m' hm' _ => ⟨m', .inl (Keyed.mem_remove.mp hm').1, rfl, rfl⟩
  | crash => exact ⟨m, .inr (hm.resolve_left List.not_mem_nil), rfl, rfl⟩
  -- recovered manifests come from the journal
  | @restart now _ _ hres =>
    have hrecovered : ∀ m' ∈ (recover sha256 s.directory now (loadState s.journal)).2.manifests,
        s.Traces m' := by
      intro m' hm'
      obtain ⟨m₀, hm₀, rfl⟩ := List.mem_map.mp hm'
      obtain ⟨hid, hreq⟩ := @recoverManifest_request sha256 s.directory now m₀
      exact ⟨m₀, .inr hm₀, hid.symm, hreq.symm⟩
    have hstate : ∀ m' ∈ s'.state.manifests, s.Traces m' := by
      rcases hres.state with ⟨-, heq⟩ | ⟨-, heq⟩ <;> rw [heq]
      · exact hrecovered
      · exact fun _ hm => nomatch hm
    -- it is known by the memory, or by the journal
    rcases hm with hm | hm
    · exact hstate m hm
    · rcases hres.journal with heq | heq <;> rw [heq] at hm
      · exact ⟨m, .inr hm, rfl, rfl⟩
      · have hsound := @sound_recover sha256 _ _ h.journal s.directory now
        rw [State.loadState_journal hsound.consistent] at hm
        exact hrecovered m hm
  | job hjob =>
    obtain ⟨kind, -, hmoves, -⟩ := hjob.moves
    refine traces_of_state h' hjob.journal ?_ hm hused
    intro m' hm' _
    rw [hjob.state] at hm'
    obtain ⟨m₀, hm₀, hid, hreq⟩ := request_update (request_of_moves hmoves) hm'
    exact ⟨m₀, .inl hm₀, hid, hreq⟩

/-- Ids that were used stay used. -/
theorem used_step {e : Event} (hstep : s.step cfg sha256 e = some s') : s.used ⊆ s'.used := by
  cases step_cases hstep with
  | idle hidle => exact hidle.used
  | admitted _ hadm => exact hadm.used ▸ List.subset_append_left _ _
  | spawn _ => exact List.Subset.refl _
  | acknowledge _ hack => cases hack <;> exact List.Subset.refl _
  | crash => exact List.Subset.refl _
  | restart hres => exact hres.used ▸ List.Subset.refl _
  | job hjob => exact hjob.used ▸ List.Subset.refl _

/-- **In every run an id stands for one request.** -/
theorem request_run {events : List Event} {first : RecordingManifest} (h : s.Coherent)
    (hfirst : first ∈ s.state.manifests)
    (hrun : EventSystem.run (step cfg sha256) s events = some s') {m : RecordingManifest}
    (hm : m ∈ s'.state.manifests) (hid : m.recordingId = first.recordingId) :
    m.request = first.request := by
  -- three facts that a step keeps together
  have hinv : s'.Coherent ∧ first.recordingId ∈ s'.used ∧
      ∀ m, s'.Knows m → m.recordingId = first.recordingId → m.request = first.request := by
    refine EventSystem.run_keeps (fun t : Manager => t.Coherent ∧ first.recordingId ∈ t.used ∧
      ∀ m, t.Knows m → m.recordingId = first.recordingId → m.request = first.request) ?_ ?_ hrun
    -- a recording under this id goes back to one of the state before
    · rintro t e t' ⟨ht, hused, hknows⟩ hstep
      refine ⟨coherent_step ht hstep, used_step hstep hused, fun m hm hid => ?_⟩
      obtain ⟨m₀, hm₀, hid₀, hreq₀⟩ := traces_step ht hstep hm (hid ▸ hused)
      exact hreq₀ ▸ hknows m₀ hm₀ (hid₀.trans hid)
    -- at the beginning by the uniqueness of requests
    · refine ⟨h, h.state.issued _ (State.mem_ids hfirst), ?_⟩
      rintro m (hm | hm) hid
      · exact h.state.request_unique m hm first hfirst hid
      · exact (h.agree first hfirst m hm hid.symm).symm
  exact hinv.2.2 m (.inl hm) hid

/-- The reply of `enqueue` to a request under a key that is taken. -/
theorem enqueue_of_holds {state : State} {key : String}
    (hkey : state.Holds key) (m : RecordingManifest) (exclusive : Bool)
    (spool : Except BridgeError ℕ) (persist : Persist) :
    (Recordings.enqueue cfg state key m exclusive spool persist).2 = (none, state) ∧
      ∀ found, (Recordings.enqueue cfg state key m exclusive spool persist).1 ≠
        .ok (found, true) := by
  unfold Recordings.enqueue
  split
  · exact ⟨rfl, by simp⟩
  · exact ⟨rfl, by simp⟩
  · rename_i hnone
    exact absurd hkey (admission_eq_none_iff.mp hnone).unheld

/-- **A key stands for one recording, in every run.** `s` and `t` are any two states of a run, one
after the other, with crashes and restarts anywhere. Every key in the map leads to a recording, and
no two of them to the same one; tombstones are bounded in number and share no key and no recording
with the maps. If every write of the journal succeeds, a crash loses none of this. A request under a
key that is taken creates nothing: while the recording is there, the same request as before is
answered with it and another one is refused; when only the tombstone is left, every request is
refused. -/
theorem recording_keys_survive {directory : Directory} {events later : List Event} {s t : Manager}
    (hs : EventSystem.run (step cfg sha256) { directory } events = some s)
    (ht : EventSystem.run (step cfg sha256) s later = some t) :
    (∀ key id, (key, id) ∈ t.state.idempotency → (t.state.get id).isSome = true) ∧
    (∀ key key' id, (key, id) ∈ t.state.idempotency → (key', id) ∈ t.state.idempotency →
      key = key') ∧
    (∀ ack ∈ t.state.acknowledgements, t.state.get ack.recordingId = none ∧
      ∀ key id, (key, id) ∈ t.state.idempotency → ack.idempotencyKey ≠ some key) ∧
    t.state.acknowledgements.length ≤ 4096 ∧
    ((∀ e ∈ events ++ later, persists e) → t.Durable) ∧
    ∀ (key : String) (m : RecordingManifest) (exclusive : Bool) (scan : Except String ℕ)
      (persist : Persist),
      let reply := Recordings.enqueue cfg t.state key m exclusive (scan.mapError .io) persist
      reply.1 ≠ .error (.recording "recording journal is inconsistent") ∧
      (t.state.Holds key → reply.2 = (none, t.state) ∧ ∀ found, reply.1 ≠ .ok (found, true)) ∧
      (∀ ack ∈ t.state.acknowledgements, ack.idempotencyKey = some key →
        reply.1 = .error (.recording "Idempotency-Key belongs to an acknowledged recording")) ∧
      ∀ id first, (key, id) ∈ t.state.idempotency → s.state.get id = some first →
        if first.sameRequest m then ∃ found, reply.1 = .ok (found, false) ∧ found.recordingId = id
        else reply.1 =
          .error (.recording "Idempotency-Key was reused with a different request") := by
  -- both states are coherent
  have hcs : s.Coherent := coherent_run (coherent_fresh directory) hs
  have hct : t.Coherent := coherent_run hcs ht
  have hc := hct.state.consistent
  refine ⟨?_, ?_, ?_, hc.bounded, ?_, ?_⟩
  · intro key id hmem
    exact State.get_isSome.mpr (hc.known _ hmem)
  · intro key key' id hmem hmem'
    exact congrArg Prod.fst (Keyed.eq_of_mem hc.once hmem hmem' rfl)
  · intro ack hack
    refine ⟨State.get_eq_none.mpr (hc.retired ack hack), fun key id hmem => ?_⟩
    exact hc.apart ack hack _ hmem
  -- durability, if every write is done
  · intro hpersists
    have hrun : EventSystem.run (step cfg sha256) { directory } (events ++ later) = some t := by
      rw [EventSystem.run_append, hs, Option.bind_some, ht]
    have hfresh : Durable { directory } := fun hrunning => (nomatch hrunning)
    have hok : EventSystem.Steps (step cfg sha256) (fun _ e => persists e) { directory }
      (events ++ later) := .of_forall fun e he _ => hpersists e he
    exact EventSystem.run_invariant Durable (fun _ _ _ => durable_step) hfresh hok hrun
  -- what a further request under a key is answered
  intro key m exclusive scan persist
  refine ⟨?_, fun hkey => enqueue_of_holds hkey m exclusive _ persist, ?_, ?_⟩
  · intro hreply
    refine @admission_ne_inconsistent cfg t.state key m exclusive hc scan ?_
    unfold Recordings.enqueue at hreply
    split at hreply
    · rename_i error herror
      have heq : error = .recording "recording journal is inconsistent" := by simpa using hreply
      rw [herror, heq]
    · exact nomatch hreply
    · -- the journal's own error is one of input and output
      cases persist <;> simp [Persist.result, Except.map] at hreply
  · intro ack hack hkey
    unfold Recordings.enqueue
    rw [admission_of_tombstone hc hack hkey]
  -- the recording under the key has the request of the first one
  · intro id first hmem hfirst
    obtain ⟨found, hfound, hadm⟩ :=
      @admission_of_known cfg t.state key m exclusive (scan.mapError .io) hc id hmem
    obtain ⟨hfoundMem, hfoundId⟩ := State.mem_of_get hfound
    obtain ⟨hfirstMem, hfirstId⟩ := State.mem_of_get hfirst
    have hrequest : found.request = first.request :=
      request_run hcs hfirstMem ht hfoundMem (hfoundId.trans hfirstId.symm)
    have hsame : found.sameRequest m = first.sameRequest m := by
      rw [Bool.eq_iff_iff, RecordingManifest.sameRequest_iff, RecordingManifest.sameRequest_iff,
        hrequest]
    unfold Recordings.enqueue
    rw [hadm, repeated, hsame]
    split_ifs
    · exact ⟨found, rfl, hfoundId⟩
    · rfl

def sampleConfig : Config :=
  { cameras := ["front"], maxDuration := 60, maxBytes := 1024, quotaBytes := 2048 }

def sampleSha256 : Sha256 := fun bytes => BitVec.ofNat 256 bytes.length

def sampleOffline : List Event :=
  [.restart 0 .ok, .start "front" 10 "request-0001" 1 1 (.ok []) .ok, .spawn 1, .begin 1 .ok,
    .refuse 1 .cameraOffline, .record 1 2 .ok]

/-- A bridge that is started without its camera: the key still leads to its recording. -/
theorem recording_keys_survive_sample :
    ∃ s, EventSystem.run (step sampleConfig sampleSha256) {} sampleOffline = some s ∧
      ("request-0001", 1) ∈ s.state.idempotency ∧
      (Recordings.enqueue sampleConfig s.state "request-0001" (.pending 2 3 "front" 10) false
        (.ok 0) .ok).2 = (none, s.state) := by
  obtain ⟨s, hs, hkey⟩ : ∃ s ∈ EventSystem.run (step sampleConfig sampleSha256) {} sampleOffline,
      ("request-0001", 1) ∈ s.state.idempotency := by decide +kernel
  have hrest : EventSystem.run (step sampleConfig sampleSha256) s [] = some s := rfl
  have hreply := (recording_keys_survive hs hrest).2.2.2.2.2 "request-0001"
    (.pending 2 3 "front" 10) false (.ok 0) .ok
  exact ⟨s, hs, hkey, (hreply.2.1 (.inl ⟨_, hkey, rfl⟩)).1⟩

/-- Once the recording is acknowledged, the same request again is refused instead of being answered
with the recording's id. -/
theorem acknowledged_key_refused :
    ∃ s ∈ EventSystem.run (step sampleConfig sampleSha256) {}
        (sampleOffline ++ [.acknowledge 1 3 {}]),
      (∃ ack ∈ s.state.acknowledgements, ack.idempotencyKey = some "request-0001") ∧
      (Recordings.enqueue sampleConfig s.state "request-0001" (.pending 2 4 "front" 10) false
        (.ok 0) .ok).1 =
        .error (.recording "Idempotency-Key belongs to an acknowledged recording") := by
  decide +kernel

end Manager

end Recordings

end EzvizBridge
