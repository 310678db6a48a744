import EzvizBridge.Transport.AudioSession
import EzvizBridge.Transport.SessionJournal

/-!
# Early audio

The base second is there so that no time stamp is negative: the frames of the first packet of the
track are taken to have begun before the packet arrived, and so are stamped back from the video. One
second is time for sixteen frames beside the last one. A packet may carry thousands.

`SpanFits` is the condition under which the second is enough, and `early_audio` says what it
decides: with it no time stamp of a session is clamped as long as the timestamps go forward and
nothing leaves the range of an `i64`, and without it the first frame is.
-/

namespace EzvizBridge

namespace RtpToTs

open AudioTrack Aac

/-- The timestamps never go backwards: the signed 32-bit differences are not negative. -/
def Forward (stamps : List UInt32) : Prop :=
  stamps.IsChain fun last next => 0 ≤ signedStep last next

instance (stamps : List UInt32) : Decidable (Forward stamps) :=
  inferInstanceAs (Decidable (stamps.IsChain fun last next => 0 ≤ signedStep last next))

/-- The frames of the first packet that can be read, the last one apart, take no longer than the
video has been running when it arrives, the base second included. -/
def SpanFits (packets : List Arrival) : Prop :=
  ∀ front packet back units, packets = front ++ packet :: back →
    (∀ earlier ∈ front, accessUnits earlier.2.1 = none) → accessUnits packet.2.1 = some units →
    5760 * ((units.length : ℤ) - 1) ≤ packet.2.2

/-- Behind timestamps that go forward the sum of the steps is not negative. -/
theorem Forward.elapsed_nonneg {stamps : List UInt32} (h : Forward stamps) :
    0 ≤ elapsed stamps := by
  induction stamps with
  | nil => exact le_rfl
  | cons last stamps ih =>
    cases stamps with
    | nil => exact le_rfl
    | cons next stamps =>
      obtain ⟨hstep, hrest⟩ := List.isChain_cons_cons.mp h
      exact add_nonneg hstep (ih hrest)

theorem OnVideo.base_le {stamps : List UInt32} {pts : ℤ} (h : OnVideo stamps pts)
    (hforward : Forward stamps) : ptsBase ≤ pts := by
  obtain ⟨front, hfront, rfl⟩ := h
  have hfrontForward : Forward front := List.IsChain.prefix hforward hfront
  exact Int.le_add_of_nonneg_right hfrontForward.elapsed_nonneg

/-- Sixteen frames are always in time. -/
theorem spanFits_of_few {js : List Entry}
    (harrived : ∀ packet ∈ soundedIn js, OnVideo (shownIn js) packet.2.2)
    (hvideo : Forward (shownIn js)) (hfew : ∀ packet ∈ soundedIn js,
      ∀ units, accessUnits packet.2.1 = some units → units.length ≤ 16) :
    SpanFits (soundedIn js) := by
  intro front packet back units hsplit _ hread
  have hmem : packet ∈ soundedIn js := by simp [hsplit]
  have hbase := (harrived packet hmem).base_le hvideo
  have hcount := hfew packet hmem units hread
  unfold ptsBase at hbase
  omega

end RtpToTs

end EzvizBridge
