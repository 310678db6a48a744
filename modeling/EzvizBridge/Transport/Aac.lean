import EzvizBridge.Transport.RtpAudio

/-!
# AAC on the wire

Access Units arrive in AAC-hbr payloads and leave as ADTS frames, and both formats say how long a
unit is: the former in a 13-bit field beside an index of three bits, the latter in a 13-bit field
that lies across three bytes and includes the seven bytes of the header. The longest unit that a
frame can hold, 8184 bytes, is the limit of `access_units`.

`hbrPayload` is the payload of a list of units; `accessUnits_eq_some_iff` says that `access_units`
reads exactly these payloads, and which units it finds in them. `readFrames` is a reader of ADTS
that knows nothing of the writer, and `readFrames_adtsFrames` that it gets the units back.
`units_survive` is the two together.
-/

namespace EzvizBridge

namespace Aac

/-! ### AAC-hbr payloads -/

/-- The header of a unit: its size in 13 bits and any index in three. -/
def unitHeader (unit : Bytes × Fin 8) : Bytes := u16ToBe (.ofNat (unit.1.length * 8 + unit.2))

/-- The payload of a list of units: the number of header bits, the headers and the units. -/
def hbrPayload (units : List (Bytes × Fin 8)) : Bytes :=
  u16ToBe (.ofNat (units.length * 16)) ++ units.flatMap unitHeader ++ (units.map Prod.fst).flatten

/-- A unit that an ADTS frame can hold. -/
def Fits (unit : Bytes) : Prop := 1 ≤ unit.length ∧ unit.length ≤ maxFrameBytes

theorem unitHeader_eq (unit : Bytes × Fin 8) (h : Fits unit.1) :
    ∃ hi lo, unitHeader unit = [hi, lo] ∧ (u16FromBe hi lo >>> 3).toNat = unit.1.length := by
  obtain ⟨-, hle⟩ := h
  have hindex := unit.2.isLt
  have hmax : maxFrameBytes = 8184 := rfl
  refine ⟨_, _, rfl, ?_⟩
  rw [u16FromBe_toBe, UInt16.toNat_shiftRight, UInt16.toNat_ofNat',
    Nat.mod_eq_of_lt (show unit.1.length * 8 + unit.2 < 2 ^ 16 by omega)]
  change (unit.1.length * 8 + unit.2) >>> 3 = unit.1.length
  rw [Nat.shiftRight_eq_div_pow]
  omega

/-- The units are cut where they were put together. -/
theorem splitUnits_headers {units : List (Bytes × Fin 8)} (h : ∀ unit ∈ units, Fits unit.1) :
    splitUnits (units.flatMap unitHeader) (units.map Prod.fst).flatten =
      some (units.map Prod.fst) := by
  induction units with
  | nil => rfl
  | cons unit units ih =>
    have hfits := h unit List.mem_cons_self
    obtain ⟨hi, lo, hheader, hsize⟩ := unitHeader_eq unit hfits
    have hvalid : ¬ (unit.1.length = 0 ∨
        unit.1.length > (unit.1 ++ (units.map Prod.fst).flatten).length ∨
        unit.1.length > maxFrameBytes) := by
      rw [List.length_append]
      have hpos := hfits.1
      have hle := hfits.2
      omega
    rw [List.flatMap_cons, hheader, List.map_cons, List.flatten_cons]
    change splitUnits (hi :: lo :: units.flatMap unitHeader) _ = _
    rw [splitUnits, hsize, if_neg hvalid, List.drop_left, List.take_left,
      ih fun other hother => h other (List.mem_cons_of_mem _ hother), Option.map_some]

/-- Whatever is cut has such headers, one for each unit. -/
theorem splitUnits_eq_some {headers data : Bytes} {units : List Bytes} (heven : 2 ∣ headers.length)
    (h : splitUnits headers data = some units) :
    ∃ tagged : List (Bytes × Fin 8), tagged.map Prod.fst = units ∧ (∀ unit ∈ units, Fits unit) ∧
      headers = tagged.flatMap unitHeader ∧ data = units.flatten := by
  fun_induction splitUnits headers data generalizing units with
  | case1 => cases h
  | case2 hi lo headers data size hvalid =>
    rename_i ih
    have hsize : size = (u16FromBe hi lo).toNat / 8 := by
      show (u16FromBe hi lo >>> 3).toNat = _
      rw [UInt16.toNat_shiftRight]
      exact Nat.shiftRight_eq_div_pow _ 3
    clear_value size
    obtain ⟨rest, hrest, rfl⟩ := Option.map_eq_some_iff.mp h
    rw [List.length_cons, List.length_cons] at heven
    obtain ⟨tagged, htagged, hfits, hheaders, hdata⟩ := ih (by omega) hrest
    obtain ⟨hpos, hlimits⟩ := not_or.mp hvalid
    obtain ⟨hle, hmax⟩ := not_or.mp hlimits
    have hlength : (data.take size).length = size := List.length_take_of_le (Nat.le_of_not_lt hle)
    have hunit : Fits (data.take size) := by
      rw [Fits, hlength]
      exact ⟨Nat.pos_of_ne_zero hpos, Nat.le_of_not_lt hmax⟩
    -- the index is what the size leaves of the header
    have hindex : (u16FromBe hi lo).toNat % 8 < 8 := Nat.mod_lt _ (by decide)
    have hheader : unitHeader (data.take size, ⟨(u16FromBe hi lo).toNat % 8, hindex⟩) =
        [hi, lo] := by
      have hvalue : size * 8 + (u16FromBe hi lo).toNat % 8 = (u16FromBe hi lo).toNat := by omega
      rw [unitHeader, hlength]
      dsimp only
      rw [hvalue, UInt16.ofNat_toNat, u16ToBe_fromBe]
    refine ⟨(data.take size, ⟨(u16FromBe hi lo).toNat % 8, hindex⟩) :: tagged, ?_,
      List.forall_mem_cons.mpr ⟨hunit, hfits⟩, ?_, ?_⟩
    · rw [List.map_cons, htagged]
    · rw [List.flatMap_cons, hheader, ← hheaders]
      rfl
    · rw [List.flatten_cons, ← hdata, List.take_append_drop]
  | case3 headers hshort =>
    -- two bytes or more would be a header
    have hnil : headers = [] := by
      match headers, heven, hshort with
      | [], _, _ => rfl
      | [_], heven, _ => exact absurd (Nat.dvd_one.mp heven) (by decide)
      | hi :: lo :: headers, _, hshort => exact (hshort hi lo headers rfl).elim
    cases h
    subst hnil
    exact ⟨[], rfl, fun _ hnil => (nomatch hnil), rfl, rfl⟩
  | case4 => cases h

theorem length_flatMap_unitHeader (units : List (Bytes × Fin 8)) :
    (units.flatMap unitHeader).length = units.length * 2 := by
  induction units with
  | nil => rfl
  | cons unit units ih =>
    rw [List.flatMap_cons, List.length_append, ih, List.length_cons]
    change 2 + units.length * 2 = _
    omega

/-- **Exactly the payloads of a list of units are accepted**, and read as these units. -/
theorem accessUnits_eq_some_iff (payload : Bytes) (units : List Bytes) :
    accessUnits payload = some units ↔
      ∃ tagged : List (Bytes × Fin 8), payload = hbrPayload tagged ∧ tagged.map Prod.fst = units ∧
        tagged ≠ [] ∧ tagged.length ≤ 4095 ∧ ∀ unit ∈ units, Fits unit := by
  constructor
  · intro h
    match payload with
    | [] => cases h
    | [_] => cases h
    | hi :: lo :: rest =>
      rw [accessUnits] at h
      split_ifs at h with hbits hlen
      have hvalue := toNat_u16FromBe hi lo
      have hfield := (u16FromBe hi lo).toNat_lt
      have hheaders : (rest.take ((u16FromBe hi lo).toNat / 8)).length =
          (u16FromBe hi lo).toNat / 8 := List.length_take_of_le (Nat.le_of_not_lt hlen)
      obtain ⟨tagged, hunits, hfits, hfront, hdata⟩ :=
        splitUnits_eq_some (by rw [hheaders]; omega) h
      -- sixteen header bits for each unit
      have hcount : tagged.length * 16 = (u16FromBe hi lo).toNat := by
        have hlength := congrArg List.length hfront
        rw [hheaders, length_flatMap_unitHeader] at hlength
        omega
      refine ⟨tagged, ?_, hunits, ?_, by omega, hfits⟩
      · rw [hbrPayload, hcount, UInt16.ofNat_toNat, u16ToBe_fromBe, ← hfront, hunits, ← hdata,
          List.append_assoc, List.take_append_drop]
        rfl
      · rintro rfl
        rw [List.length_nil, Nat.zero_mul] at hcount
        exact hbits (Or.inl hcount.symm)
  · rintro ⟨tagged, rfl, rfl, hne, hle, hfits⟩
    have hpos := List.length_pos_iff.mpr hne
    have hcount : (UInt16.ofNat (tagged.length * 16)).toNat = tagged.length * 16 := by
      rw [UInt16.toNat_ofNat']
      exact Nat.mod_eq_of_lt (by omega)
    have hheaders : tagged.length * 16 / 8 = (tagged.flatMap unitHeader).length := by
      rw [length_flatMap_unitHeader]
      omega
    have hbody : hbrPayload tagged = (UInt16.ofNat (tagged.length * 16) >>> 8).toUInt8 ::
        (UInt16.ofNat (tagged.length * 16)).toUInt8 ::
          (tagged.flatMap unitHeader ++ (tagged.map Prod.fst).flatten) := rfl
    rw [hbody, accessUnits, u16FromBe_toBe, hcount, if_neg (by omega), hheaders,
      if_neg (by rw [List.length_append]; omega), List.take_left, List.drop_left]
    exact splitUnits_headers fun unit hunit => hfits _ (List.mem_map_of_mem hunit)

/-! ### ADTS frames -/

/-- What a reader finds in an ADTS frame. -/
structure AdtsFrame where
  profile : UInt8
  samplingIndex : UInt8
  channels : UInt8
  unit : Bytes
  deriving DecidableEq, Repr

/-- The 13-bit frame length, across three bytes of the header. -/
def frameLength (b₃ b₄ b₅ : UInt8) : ℕ :=
  (b₃ &&& 0x03).toNat * 2048 + b₄.toNat * 8 + (b₅ >>> 5).toNat

/-- A reader of ADTS, which takes the length of each frame from its header: the sync word, layer 0,
no CRC; `none` where there is no frame, or when the given number of frames does not suffice. -/
def readFrames : ℕ → Bytes → Option (List AdtsFrame)
  | _, [] => some []
  | frames + 1, b₀ :: b₁ :: b₂ :: b₃ :: b₄ :: b₅ :: _ :: rest =>
    if b₀ = 0xff ∧ b₁ &&& 0xf7 = 0xf1 then
      let length := frameLength b₃ b₄ b₅
      if length < 7 ∨ length - 7 > rest.length then none
      else
        (readFrames frames (rest.drop (length - 7))).map
          ({  profile := b₂ >>> 6
              samplingIndex := b₂ >>> 2 &&& 0x0f
              channels := (b₂ &&& (0x01 : UInt8)) <<< 2 ||| b₃ >>> 6
              unit := rest.take (length - 7) } :: ·)
    else none
  | _, _ => none

/-- The two low bits of the fourth byte are the high bits of the length, the two high ones the low
bits of the channel count. -/
theorem fourthByte_bits {channels high : UInt8} (hchannels : channels = 1 ∨ channels = 2)
    (hhigh : high < 32) :
    let byte := ((channels &&& (0x07 : UInt8)) &&& (0x03 : UInt8)) <<< 6 ||| high >>> 3
    (byte &&& 0x03).toNat = high.toNat / 8 ∧ byte >>> 6 = channels := by
  revert high
  rcases hchannels with rfl | rfl <;> decide +kernel

theorem fifthByte_bits (high low : UInt8) :
    (high <<< 5 ||| low >>> 3).toNat = high.toNat % 8 * 32 + low.toNat / 8 := by
  have hlow := low.toNat_lt
  have hshift : UInt8.toNat 5 % 8 = 5 ∧ UInt8.toNat 3 % 8 = 3 := ⟨rfl, rfl⟩
  have hhigh : (high.toNat <<< 5) % 2 ^ 8 = (high.toNat % 8) <<< 5 := by
    rw [Nat.shiftLeft_eq, Nat.shiftLeft_eq]
    omega
  have hless : low.toNat >>> 3 < 2 ^ 5 := by
    rw [Nat.shiftRight_eq_div_pow]
    omega
  rw [UInt8.toNat_or, UInt8.toNat_shiftLeft, UInt8.toNat_shiftRight, hshift.1, hshift.2, hhigh,
    ← Nat.shiftLeft_add_eq_or_of_lt hless, Nat.shiftLeft_eq, Nat.shiftRight_eq_div_pow]

theorem sixthByte_bits (low : UInt8) :
    (((low &&& (0x07 : UInt8)) <<< 5 ||| (0x1f : UInt8)) >>> 5).toNat = low.toNat % 8 := by
  revert low
  decide +kernel

/-- The third byte holds the profile, the sampling index and the high bit of the channel count. -/
theorem thirdByte_bits {channels : UInt8} (hchannels : channels = 1 ∨ channels = 2) :
    let byte := (0x40 : UInt8) ||| sampleRateIndex <<< 2 ||| (channels &&& (0x07 : UInt8)) >>> 2
    byte >>> 6 = 1 ∧ byte >>> 2 &&& 0x0f = 8 ∧ (byte &&& (0x01 : UInt8)) <<< 2 = 0 := by
  rcases hchannels with rfl | rfl <;> decide

/-- **One frame** is read back, and the reader goes on behind it. -/
theorem readFrames_adtsFrame {unit : Bytes} (hunit : Fits unit) {channels : UInt8}
    (hchannels : channels = 1 ∨ channels = 2) (frames : ℕ) (rest : Bytes) :
    readFrames (frames + 1) (adtsFrame unit channels ++ rest) =
      (readFrames frames rest).map (⟨1, 8, channels, unit⟩ :: ·) := by
  have hle : unit.length ≤ 8184 := hunit.2
  -- the length of the frame fits its field
  have hlength : ((u16TryFrom (unit.length + adtsHeader)).getD 0xffff &&& 0x1fff).toNat =
      unit.length + 7 := by
    have hfield : u16TryFrom (unit.length + adtsHeader) = some (.ofNat (unit.length + 7)) :=
      if_pos (show unit.length + 7 < 65536 by omega)
    rw [hfield, Option.getD_some, UInt16.toNat_and, UInt16.toNat_ofNat',
      Nat.mod_eq_of_lt (show unit.length + 7 < 2 ^ 16 by omega)]
    change (unit.length + 7) &&& 2 ^ 13 - 1 = _
    rw [Nat.and_two_pow_sub_one_eq_mod]
    exact Nat.mod_eq_of_lt (show unit.length + 7 < 2 ^ 13 by omega)
  have hframe : adtsFrame unit channels ++ rest =
      (let length := (u16TryFrom (unit.length + adtsHeader)).getD 0xffff &&& 0x1fff
      let high := (length >>> 8).toUInt8
      let low := length.toUInt8
      let channels := channels &&& (0x07 : UInt8)
      (0xff : UInt8) :: 0xf1 :: ((0x40 : UInt8) ||| sampleRateIndex <<< 2 ||| channels >>> 2) ::
        ((channels &&& (0x03 : UInt8)) <<< 6 ||| high >>> 3) :: (high <<< 5 ||| low >>> 3) ::
        ((low &&& (0x07 : UInt8)) <<< 5 ||| (0x1f : UInt8)) :: 0xfc :: (unit ++ rest)) := rfl
  rw [hframe]
  dsimp only
  generalize (u16TryFrom (unit.length + adtsHeader)).getD 0xffff &&& 0x1fff = length at hlength ⊢
  have hhigh : (length >>> 8).toUInt8.toNat = (unit.length + 7) / 256 := by
    simp [Nat.shiftRight_eq_div_pow, hlength]
    omega
  have hlow : length.toUInt8.toNat = (unit.length + 7) % 256 := by
    simp [hlength]
  generalize (length >>> 8).toUInt8 = high at hhigh ⊢
  generalize length.toUInt8 = low at hlow ⊢
  have hlt : high < 32 := by
    rw [UInt8.lt_iff_toNat_lt, hhigh]
    change (unit.length + 7) / 256 < 32
    omega
  obtain ⟨hfourth, hcount⟩ := fourthByte_bits hchannels hlt
  obtain ⟨hprofile, hindex, hcountHigh⟩ := thirdByte_bits hchannels
  have hvalue : frameLength
      (((channels &&& (0x07 : UInt8)) &&& (0x03 : UInt8)) <<< 6 ||| high >>> 3)
      (high <<< 5 ||| low >>> 3) ((low &&& (0x07 : UInt8)) <<< 5 ||| (0x1f : UInt8)) =
        unit.length + 7 := by
    rw [frameLength, hfourth, fifthByte_bits, sixthByte_bits, hhigh, hlow]
    omega
  rw [readFrames, if_pos ⟨rfl, by decide⟩]
  dsimp only
  rw [hvalue, Nat.add_sub_cancel, if_neg (by rw [List.length_append]; omega), List.drop_left,
    List.take_left, hprofile, hindex, hcountHigh, hcount, UInt8.zero_or]

/-- **A concatenation of frames** is split back into the units. -/
theorem readFrames_adtsFrames {units : List (Bytes × UInt8)}
    (h : ∀ unit ∈ units, Fits unit.1 ∧ (unit.2 = 1 ∨ unit.2 = 2)) {frames : ℕ}
    (hframes : units.length ≤ frames) :
    readFrames frames (units.flatMap fun unit => adtsFrame unit.1 unit.2) =
      some (units.map fun unit => ⟨1, 8, unit.2, unit.1⟩) := by
  induction units generalizing frames with
  | nil => cases frames <;> rfl
  | cons unit units ih =>
    obtain ⟨hfits, hchannels⟩ := h unit List.mem_cons_self
    rw [List.length_cons] at hframes
    obtain ⟨frames, rfl⟩ : ∃ n, frames = n + 1 := ⟨frames - 1, by omega⟩
    rw [List.flatMap_cons, readFrames_adtsFrame hfits hchannels,
      ih (fun other hother => h other (List.mem_cons_of_mem _ hother)) (by omega)]
    rfl

/-- **Access Units survive repackaging.** The payloads that `access_units` accepts are those of one
to 4095 units of one to 8184 bytes, with any index bits, and it returns the units. The ADTS frames
of such units, mono or stereo, are split back by the lengths in their headers, with the AAC-LC
profile and the sampling index 8. -/
theorem units_survive (payload : Bytes) (units : List Bytes) :
    (accessUnits payload = some units ↔
      ∃ tagged : List (Bytes × Fin 8), payload = hbrPayload tagged ∧ tagged.map Prod.fst = units ∧
        tagged ≠ [] ∧ tagged.length ≤ 4095 ∧ ∀ unit ∈ units, Fits unit) ∧
    ∀ stamped : List (Bytes × UInt8), stamped.map Prod.fst = units → (∀ unit ∈ units, Fits unit) →
      (∀ unit ∈ stamped, unit.2 = 1 ∨ unit.2 = 2) →
      ∀ frames, units.length ≤ frames →
        readFrames frames (stamped.flatMap fun unit => adtsFrame unit.1 unit.2) =
          some (stamped.map fun unit => ⟨1, 8, unit.2, unit.1⟩) := by
  refine ⟨accessUnits_eq_some_iff payload units, ?_⟩
  rintro stamped rfl hfits hchannels frames hframes
  rw [List.length_map] at hframes
  exact readFrames_adtsFrames
    (fun unit hunit => ⟨hfits _ (List.mem_map_of_mem hunit), hchannels unit hunit⟩) hframes

/-- A mono and a stereo unit. -/
theorem units_survive_sample :
    readFrames 2 (adtsFrame [0x01, 0x40, 0x20] 1 ++ adtsFrame [0x21, 0x10] 2) =
      some [⟨1, 8, 1, [0x01, 0x40, 0x20]⟩, ⟨1, 8, 2, [0x21, 0x10]⟩] := by
  have hfits : ∀ unit ∈ [[0x01, 0x40, 0x20], [0x21, 0x10]], Fits unit := by
    unfold Fits
    decide
  exact (units_survive [] [[0x01, 0x40, 0x20], [0x21, 0x10]]).2
    [([0x01, 0x40, 0x20], 1), ([0x21, 0x10], 2)] rfl hfits (by decide) 2 (by decide)

end Aac

end EzvizBridge
