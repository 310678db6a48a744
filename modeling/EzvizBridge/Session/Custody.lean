import EzvizBridge.Session.Model

/-!
# Custody of the refresh token

What the tasks preserve. At any time one refresh token is the live one: the one in memory, or,
between the answer of EZVIZ and the write to the slot, the one that the task with the lock is about
to write (`Store.Live`). Every other token that the store had was replaced by a rotation or by an
adoption. `Store.Doing` says for each stage what the task with the lock knows.
-/

namespace EzvizBridge

namespace Session

/-! ### The contents of the store -/

/-- The entry sends or stores the refresh token. -/
def Entry.Uses (rfSessionId : String) : Entry → Prop
  | .sent other _ _ => other = rfSessionId
  | .stored token => token.rfSessionId = rfSessionId
  | .rotated _ _ => False

/-- The later entry does not use a refresh token that was replaced by the earlier one. -/
def Entry.Respects (earlier later : Entry) : Prop :=
  ∀ old pair, earlier = .rotated old pair → ¬later.Uses old

/-- An entry of a table after one entry was set. -/
theorem of_update_eq_some {α β : Type*} [DecidableEq α] {table : α → Option β} {i j : α}
    {b found : β} (h : Function.update table i (some b) j = some found) :
    j = i ∧ b = found ∨ j ≠ i ∧ table j = some found := by
  rcases eq_or_ne j i with rfl | hne
  · rw [Function.update_self] at h
    exact .inl ⟨rfl, Option.some.inj h⟩
  · rw [Function.update_of_ne hne] at h
    exact .inr ⟨hne, h⟩

namespace Store

variable {S : Store}

/-- EZVIZ has replaced the refresh token. -/
def Spent (S : Store) (rfSessionId : String) : Prop :=
  ∃ pair, Entry.rotated rfSessionId pair ∈ S.log

/-- The pair was in memory. -/
def Installed (S : Store) (pair : String × String) : Prop :=
  ∃ token generation, (token, generation) ∈ S.installs ∧ token.ids = pair

/-- The token is the one that counts. -/
structure Live (S : Store) (token : EzvizToken) : Prop where
  issued : token.rfSessionId ∈ S.issued
  unspent : ¬S.Spent token.rfSessionId
  unstaged : ∀ name other, S.staged name = some other → other.rfSessionId ≠ token.rfSessionId
  kept : ∀ old pair, Entry.rotated old pair ∈ S.log → S.Installed pair ∨ pair = token.ids

/-- Nothing is in between. -/
structure Rest (S : Store) : Prop where
  live : S.Live S.token
  saved : S.unsaved = false → S.file = S.token
  installed : (S.token, S.generation) ∈ S.installs

/-- What holds of the contents at any time. -/
structure Sound (S : Store) : Prop where
  ordered : S.log.Pairwise Entry.Respects
  sent_current : ∀ rf seen generation, Entry.sent rf seen generation ∈ S.log → seen = generation
  installs_le : ∀ token generation, (token, generation) ∈ S.installs → generation ≤ S.generation
  installs_ids : ∀ token other generation, (token, generation) ∈ S.installs →
    (other, generation) ∈ S.installs → token.ids = other.ids
  spent_issued : ∀ rf, S.Spent rf → rf ∈ S.issued
  staged_issued : ∀ name token, S.staged name = some token → token.rfSessionId ∈ S.issued
  staged_unspent : ∀ name token, S.staged name = some token → ¬S.Spent token.rfSessionId
  staged_inj : ∀ name other token token', S.staged name = some token →
    S.staged other = some token' → token.rfSessionId = token'.rfSessionId → name = other

/-- An entry goes to the end of the log if it uses no token that was replaced. -/
theorem ordered_append (h : S.log.Pairwise Entry.Respects) {e : Entry}
    (he : ∀ rf, e.Uses rf → ¬S.Spent rf) : (S.log ++ [e]).Pairwise Entry.Respects := by
  refine List.pairwise_append.mpr ⟨h, List.pairwise_singleton _ _, ?_⟩
  intro earlier hearlier later hlater old pair hrot huses
  obtain rfl := List.mem_singleton.mp hlater
  subst hrot
  exact he old huses ⟨pair, hearlier⟩

/-! ### Changes of the contents -/

/-- The later contents have replaced no other token, and have lost nothing. -/
structure Settles (S S' : Store) : Prop where
  issued : S.issued ⊆ S'.issued
  staged : ∀ name token, S'.staged name = some token → S.staged name = some token
  rotated : ∀ old pair, Entry.rotated old pair ∈ S'.log → Entry.rotated old pair ∈ S.log
  installs : S.installs ⊆ S'.installs

theorem Live.mono {S' : Store} {token : EzvizToken} (h : S.Live token) (hs : S.Settles S') :
    S'.Live token where
  issued := hs.issued h.issued
  unspent := by
    rintro ⟨pair, hpair⟩
    exact h.unspent ⟨pair, hs.rotated _ _ hpair⟩
  unstaged := by
    intro name other hother
    exact h.unstaged name other (hs.staged name other hother)
  kept := by
    intro old pair hpair
    rcases h.kept old pair (hs.rotated _ _ hpair) with ⟨found, generation, hfound, hids⟩ | hids
    · exact .inl ⟨found, generation, hs.installs hfound, hids⟩
    · exact .inr hids

/-- What counts are the identifiers. -/
theorem Live.of_ids {token other : EzvizToken} (h : S.Live token) (hids : other.ids = token.ids) :
    S.Live other := by
  have hrf : other.rfSessionId = token.rfSessionId := congrArg Prod.snd hids
  refine ⟨hrf ▸ h.issued, hrf ▸ h.unspent, ?_, ?_⟩
  · intro name found hfound
    rw [hrf]
    exact h.unstaged name found hfound
  · intro old pair hpair
    rw [hids]
    exact h.kept old pair hpair

/-- The log gets an entry that is no rotation. -/
theorem settles_append {S' : Store} {e : Entry} (hlog : S'.log = S.log ++ [e])
    (he : ∀ old pair, e ≠ .rotated old pair) (hissued : S'.issued = S.issued)
    (hinst : S'.installs = S.installs)
    (hstaged : ∀ name token, S'.staged name = some token → S.staged name = some token) :
    S.Settles S' where
  issued := hissued.ge
  staged := hstaged
  rotated old pair h := by
    rw [hlog] at h
    rcases List.mem_append.mp h with h | h
    · exact h
    · exact absurd (List.mem_singleton.mp h).symm (he old pair)
  installs := by rw [hinst]; exact List.Subset.refl _

/-- A token is sent or stored. -/
theorem Sound.append {S' : Store} {e : Entry} (h : S.Sound) (hs : S.Settles S')
    (hgen : S'.generation = S.generation) (hinst : S'.installs = S.installs)
    (hlog : S'.log = S.log ++ [e]) (he : ∀ rf, e.Uses rf → ¬S.Spent rf)
    (hsent : ∀ rf seen generation, e = .sent rf seen generation → seen = generation) :
    S'.Sound where
  ordered := by
    rw [hlog]
    exact ordered_append h.ordered he
  sent_current := by
    intro rf seen generation hmem
    rw [hlog] at hmem
    rcases List.mem_append.mp hmem with hmem | hmem
    · exact h.sent_current rf seen generation hmem
    · exact hsent rf seen generation (List.mem_singleton.mp hmem).symm
  installs_le := by
    rw [hgen, hinst]
    exact h.installs_le
  installs_ids := by
    rw [hinst]
    exact h.installs_ids
  spent_issued := by
    rintro rf ⟨pair, hpair⟩
    exact hs.issued (h.spent_issued rf ⟨pair, hs.rotated rf pair hpair⟩)
  staged_issued := by
    intro name token htoken
    exact hs.issued (h.staged_issued name token (hs.staged name token htoken))
  staged_unspent := by
    rintro name token htoken ⟨pair, hpair⟩
    exact h.staged_unspent name token (hs.staged name token htoken) ⟨pair, hs.rotated _ _ hpair⟩
  staged_inj := by
    intro name other token token' htoken htoken'
    exact h.staged_inj name other token token' (hs.staged name token htoken)
      (hs.staged other token' htoken')

/-- EZVIZ answers with a new pair. -/
theorem Sound.rotate (h : S.Sound) (hr : S.Rest) (updated : EzvizToken) :
    Sound
      { S with
        issued := insert updated.rfSessionId S.issued
        log := S.log ++ [.rotated S.token.rfSessionId updated.ids] } where
  ordered := ordered_append h.ordered fun _ huses => huses.elim
  sent_current := by
    intro rf seen generation hmem
    rcases List.mem_append.mp hmem with hmem | hmem
    · exact h.sent_current rf seen generation hmem
    · exact nomatch List.mem_singleton.mp hmem
  installs_le := h.installs_le
  installs_ids := h.installs_ids
  spent_issued := by
    rintro rf ⟨pair, hpair⟩
    apply Finset.mem_insert_of_mem
    rcases List.mem_append.mp hpair with hpair | hpair
    · exact h.spent_issued rf ⟨pair, hpair⟩
    · obtain ⟨rfl, -⟩ := Entry.rotated.inj (List.mem_singleton.mp hpair)
      exact hr.live.issued
  staged_issued name token htoken :=
    Finset.mem_insert_of_mem (h.staged_issued name token htoken)
  staged_unspent := by
    rintro name token htoken ⟨pair, hpair⟩
    rcases List.mem_append.mp hpair with hpair | hpair
    · exact h.staged_unspent name token htoken ⟨pair, hpair⟩
    · -- the token that was replaced is the one in memory, and that one is not staged
      exact hr.live.unstaged name token htoken
        (Entry.rotated.inj (List.mem_singleton.mp hpair)).1
  staged_inj := h.staged_inj

/-- The new token is then the one that counts. -/
theorem Rest.live_rotate (hr : S.Rest) (h : S.Sound) {updated : EzvizToken}
    (hfresh : updated.rfSessionId ∉ S.issued) :
    Live
      { S with
        issued := insert updated.rfSessionId S.issued
        log := S.log ++ [.rotated S.token.rfSessionId updated.ids] } updated where
  issued := Finset.mem_insert_self _ _
  unspent := by
    rintro ⟨pair, hpair⟩
    apply hfresh
    rcases List.mem_append.mp hpair with hpair | hpair
    · exact h.spent_issued _ ⟨pair, hpair⟩
    · rw [(Entry.rotated.inj (List.mem_singleton.mp hpair)).1]
      exact hr.live.issued
  unstaged := by
    intro name other hother heq
    exact hfresh (heq ▸ h.staged_issued name other hother)
  kept := by
    intro old pair hpair
    rcases List.mem_append.mp hpair with hpair | hpair
    · left
      rcases hr.live.kept old pair hpair with hin | rfl
      · exact hin
      · exact ⟨S.token, S.generation, hr.installed, rfl⟩
    · exact .inr (Entry.rotated.inj (List.mem_singleton.mp hpair)).2

/-- The generation is counted up, or the identifiers are the ones that it has. -/
theorem Sound.install (h : S.Sound) {generation : ℕ}
    (hg : generation = S.generation + 1 ∨ generation = S.generation ∧
      ∃ token, (token, S.generation) ∈ S.installs ∧ token.ids = S.token.ids) :
    Sound { S with generation, installs := S.installs ++ [(S.token, generation)] } where
  ordered := h.ordered
  sent_current := h.sent_current
  installs_le := by
    intro token found hmem
    rcases List.mem_append.mp hmem with hmem | hmem
    · have hle := h.installs_le token found hmem
      rcases hg with rfl | ⟨rfl, -⟩
      · exact Nat.le_succ_of_le hle
      · exact hle
    · exact (Prod.mk.inj (List.mem_singleton.mp hmem)).2.le
  installs_ids := by
    -- an earlier install of this generation has the identifiers that are in memory
    have hnew : ∀ token, (token, generation) ∈ S.installs → token.ids = S.token.ids := by
      intro token hmem
      rcases hg with rfl | ⟨rfl, found, hfound, hids⟩
      · exact absurd (h.installs_le token _ hmem) (Nat.not_succ_le_self _)
      · rw [h.installs_ids token found _ hmem hfound, hids]
    intro token other found htoken hother
    rcases List.mem_append.mp htoken with hold | hlast <;>
      rcases List.mem_append.mp hother with hold' | hlast'
    · exact h.installs_ids token other found hold hold'
    · obtain ⟨rfl, rfl⟩ := Prod.mk.inj (List.mem_singleton.mp hlast')
      exact hnew token hold
    · obtain ⟨rfl, rfl⟩ := Prod.mk.inj (List.mem_singleton.mp hlast)
      exact (hnew other hold').symm
    · obtain ⟨rfl, rfl⟩ := Prod.mk.inj (List.mem_singleton.mp hlast)
      obtain ⟨rfl, -⟩ := Prod.mk.inj (List.mem_singleton.mp hlast')
      rfl
  spent_issued := h.spent_issued
  staged_issued := h.staged_issued
  staged_unspent := h.staged_unspent
  staged_inj := h.staged_inj

/-- An enrolment stages a new token. -/
theorem Sound.enrol (h : S.Sound) (name : String) {token : EzvizToken}
    (hfresh : token.rfSessionId ∉ S.issued) :
    Sound
      { S with
        staged := Function.update S.staged name (some token)
        issued := insert token.rfSessionId S.issued } where
  ordered := h.ordered
  sent_current := h.sent_current
  installs_le := h.installs_le
  installs_ids := h.installs_ids
  spent_issued rf hspent := Finset.mem_insert_of_mem (h.spent_issued rf hspent)
  staged_issued := by
    intro other found hfound
    rcases of_update_eq_some hfound with ⟨rfl, rfl⟩ | ⟨hne, hold⟩
    · exact Finset.mem_insert_self _ _
    · exact Finset.mem_insert_of_mem (h.staged_issued other found hold)
  staged_unspent := by
    intro other found hfound hspent
    rcases of_update_eq_some hfound with ⟨rfl, rfl⟩ | ⟨hne, hold⟩
    · exact hfresh (h.spent_issued _ hspent)
    · exact h.staged_unspent other found hold hspent
  staged_inj := by
    -- the new token is unlike the ones that were staged before, which have been issued
    intro first second found found' hfound hfound' heq
    rcases of_update_eq_some hfound with ⟨rfl, rfl⟩ | ⟨hne, hold⟩ <;>
      rcases of_update_eq_some hfound' with ⟨rfl, rfl⟩ | ⟨hne', hold'⟩
    · rfl
    · exact absurd (heq ▸ h.staged_issued second found' hold') hfresh
    · exact absurd (heq ▸ h.staged_issued first found hold) hfresh
    · exact h.staged_inj first second found found' hold hold' heq

theorem Live.enrol {live : EzvizToken} (h : S.Live live) (name : String) {token : EzvizToken}
    (hfresh : token.rfSessionId ∉ S.issued) :
    Live
      { S with
        staged := Function.update S.staged name (some token)
        issued := insert token.rfSessionId S.issued } live where
  issued := Finset.mem_insert_of_mem h.issued
  unspent := h.unspent
  unstaged := by
    intro other found hfound heq
    rcases of_update_eq_some hfound with ⟨rfl, rfl⟩ | ⟨hne, hold⟩
    · exact hfresh (heq ▸ h.issued)
    · exact h.unstaged other found hold heq
  kept := h.kept

end Store

end Session

end EzvizBridge
