import EzvizBridge.Alarms.Crypto

/-!
# What comes out of an encrypted picture

A container that has been assembled is taken apart into its blocks, each of which is decrypted, and
the picture is the one that the rule of `little_container` says (`preferred`): of the blocks with
index 1 before the others, the first that is a JPEG (`littleBlocks_assembled`).

Of any bytes at all, no range outside them is read and only a JPEG is returned
(`within_decryptChecksumPicture`, `isJpeg_decryptChecksumPicture`).
-/

namespace EzvizBridge

namespace Alarms

open Image (ascii iv jpegSlice)

variable (aes : Aes128)

/-! ### JPEGs -/

/-- The data begins and ends as a JPEG does. -/
def IsJpeg (data : Bytes) : Prop := startOfImage <+: data ∧ endOfImage <:+ data

/-- What `validated_jpeg` lets through starts and ends as a JPEG. -/
theorem isJpeg_validatedJpeg {data jpeg : Bytes} (h : validatedJpeg data = .ok jpeg) :
    IsJpeg jpeg := by
  unfold validatedJpeg at h
  split_ifs at h with hstart
  have hfirst : Markers.first startOfImage data = some 0 := by
    apply Markers.first_eq_of_at (by decide)
    · rwa [Markers.At, List.drop_zero]
    · exact fun _ hlt => absurd hlt (Nat.not_lt_zero _)
  obtain ⟨rest, rfl⟩ := hstart
  unfold jpegSlice at h
  rw [show ([0xff, 0xd8, 0xff] : Bytes) = startOfImage from rfl, hfirst] at h
  -- the slice goes from the first start marker to the last end marker
  dsimp only at h
  cases hlast : Markers.last [0xff, 0xd9] (startOfImage ++ rest) with
  | none =>
    rw [hlast] at h
    cases h
  | some stop =>
    rw [hlast] at h
    dsimp only at h
    rw [if_neg (Nat.not_lt_zero _), List.drop_zero] at h
    cases h
    obtain ⟨behind, hbehind⟩ := Markers.last_eq_some hlast
    -- the marker at the end is not among the first two bytes
    have hstop : 2 ≤ stop := by
      rcases stop with _ | _ | stop
      · exact absurd (List.cons.inj (List.cons.inj hbehind).2).1 (by decide)
      · exact absurd (List.cons.inj hbehind).1 (by decide)
      · omega
    -- the first three bytes, and the last two
    constructor
    · obtain ⟨more, rfl⟩ := Nat.exists_eq_add_of_le hstop
      rw [show 2 + more + 2 = startOfImage.length + (more + 1) by
        show _ = 3 + (more + 1)
        omega, List.take_length_add_append]
      exact List.prefix_append _ _
    · rw [List.take_add, ← hbehind]
      exact List.suffix_append _ _

/-- A block is only decrypted to a JPEG. -/
theorem isJpeg_decryptBlock {key : Block} {block jpeg : Bytes}
    (h : decryptBlock aes key block = .ok jpeg) : IsJpeg jpeg := by
  unfold decryptBlock at h
  dsimp only at h
  split_ifs at h
  split at h
  · exact nomatch h
  · exact isJpeg_validatedJpeg h

/-! ### Any bytes -/

theorem within_readU16 (data : Bytes) (offset : ℕ) : (readU16 data offset).Within data.length 1 :=
  Reading.within_bind (Reading.within_slice _ _ _ _) fun _ _ => Reading.within_pure _ _

theorem within_readU32 (data : Bytes) (offset : ℕ) : (readU32 data offset).Within data.length 1 :=
  Reading.within_bind (Reading.within_slice _ _ _ _) fun _ _ => Reading.within_pure _ _

/-- Two ranges are read, the length of the data and the data. -/
theorem within_skipDetection (raw : Bytes) (version : UInt16) (cursor : ℕ) :
    (skipDetection raw version cursor).Within raw.length 2 := by
  rw [skipDetection]
  split
  · show Reading.Within raw.length (1 + (1 + 0)) _
    refine Reading.within_bind (within_readU32 _ _) fun detection _ => ?_
    exact Reading.within_bind (Reading.within_slice _ _ _ _) fun _ _ => Reading.within_pure _ _
  · exact (Reading.within_pure _ _).mono (Nat.zero_le _)

/-- At most five ranges are read of a block. -/
theorem within_littleBlocks (key : Block) (raw : Bytes) (version : UInt16) (blocks cursor : ℕ)
    (first : Option Bytes) :
    (littleBlocks aes key raw version blocks cursor first).Within raw.length (5 * blocks) := by
  -- on the blocks
  induction blocks generalizing cursor first with
  | zero => exact Reading.within_of _ _
  | succ blocks ih =>
    rw [littleBlocks]
    split
    · exact (Reading.within_of _ _).mono (Nat.zero_le _)
    -- the index, the length, the block, the detection data, and the blocks behind
    · have hcount : 5 * (blocks + 1) = 1 + (1 + (1 + (2 + 5 * blocks))) := by omega
      rw [hcount]
      refine Reading.within_bind (within_readU16 _ _) fun index _ => ?_
      refine Reading.within_bind (within_readU32 _ _) fun length _ => ?_
      refine Reading.within_bind (Reading.within_slice _ _ _ _) fun block _ => ?_
      refine Reading.within_bind (within_skipDetection _ _ _) fun next _ => ?_
      split
      · split
        · exact (Reading.within_pure _ _).mono (Nat.zero_le _)
        · exact ih _ _
      · exact ih _ _

/-- **Nothing outside the input is read**, and there are no more than 16 blocks. -/
theorem within_decryptChecksumPicture (raw : Bytes) (checksum : String) :
    (decryptChecksumPicture aes raw checksum).Within raw.length (1 + 5 * maxContainerBlocks) := by
  rw [decryptChecksumPicture]
  -- without a key nothing is read
  cases checksumKey checksum with
  | none => exact (Reading.within_of _ _).mono (Nat.zero_le _)
  | some key =>
    dsimp only
    split_ifs
    · exact (Reading.within_of _ _).mono (Nat.zero_le _)
    · exact Reading.within_bind (within_readU16 _ _) fun version _ =>
        within_littleBlocks _ _ _ _ _ _ _
    · have hread := Reading.within_bind (within_readU32 raw 9) fun length _ =>
        Reading.within_bind (Reading.within_slice raw 13 length PictureError.invalid) fun block _ =>
          Reading.within_of raw.length (decryptBlock aes key block)
      exact hread.mono (by decide)
    · exact (Reading.within_of _ _).mono (Nat.zero_le _)

/-- The first picture was a JPEG when it was kept. -/
theorem isJpeg_elim {first : Option Bytes} {jpeg : Bytes} (hfirst : ∀ found ∈ first, IsJpeg found)
    (h : first.elim (.error .invalid) Except.ok = (.ok jpeg : Except PictureError Bytes)) :
    IsJpeg jpeg := by
  cases first with
  | none => exact nomatch h
  | some found =>
    cases h
    exact hfirst jpeg rfl

/-- Only a JPEG is taken from the blocks. -/
theorem isJpeg_littleBlocks {key : Block} {raw : Bytes} {version : UInt16} {blocks cursor : ℕ}
    {first : Option Bytes} {jpeg : Bytes} (hfirst : ∀ found ∈ first, IsJpeg found)
    (h : (littleBlocks aes key raw version blocks cursor first).result = .ok jpeg) :
    IsJpeg jpeg := by
  -- on the blocks; what is kept from before is a JPEG
  induction blocks generalizing cursor first with
  | zero => exact isJpeg_elim hfirst h
  | succ blocks ih =>
    rw [littleBlocks] at h
    split at h
    · exact isJpeg_elim hfirst h
    · obtain ⟨index, -, h⟩ := Reading.exists_of_bind h
      obtain ⟨length, -, h⟩ := Reading.exists_of_bind h
      obtain ⟨block, -, h⟩ := Reading.exists_of_bind h
      obtain ⟨next, -, h⟩ := Reading.exists_of_bind h
      split at h
      · next picture hpicture =>
        have hjpeg : IsJpeg picture := isJpeg_decryptBlock aes hpicture
        split at h
        · cases h
          exact hjpeg
        -- a picture that has another index is kept, unless there is one already
        · refine ih ?_ h
          rintro found ⟨⟩
          cases first with
          | none => exact hjpeg
          | some found => exact hfirst found rfl
      · exact ih hfirst h

/-- **Only a JPEG is returned.** -/
theorem isJpeg_decryptChecksumPicture {raw : Bytes} {checksum : String} {jpeg : Bytes}
    (h : (decryptChecksumPicture aes raw checksum).result = .ok jpeg) : IsJpeg jpeg := by
  rw [decryptChecksumPicture] at h
  -- the formats, in the order of the source
  split at h
  · exact nomatch h
  · split_ifs at h
    · exact isJpeg_validatedJpeg h
    · obtain ⟨version, -, h⟩ := Reading.exists_of_bind h
      exact isJpeg_littleBlocks aes (fun found hmem => absurd hmem (Option.not_mem_none found)) h
    · obtain ⟨length, -, h⟩ := Reading.exists_of_bind h
      obtain ⟨block, -, h⟩ := Reading.exists_of_bind h
      exact isJpeg_decryptBlock aes h
    · exact isJpeg_decryptBlock aes h

/-! ### Assembled containers -/

/-- A part of a `hiklittlepic` container: a block that holds an encrypted text, and detection
data. -/
structure PictureBlock where
  reserved : BlockOf UInt8 4
  index : UInt16
  head : BlockOf UInt8 48
  clear : Bytes
  tag : BlockOf UInt8 2
  detection : Bytes
  fits : 48 + (Cbc.pad 16 clear).length < 2 ^ 32
  detectionFits : detection.length < 2 ^ 32

/-- A length in four bytes. -/
def lengthField (length : ℕ) : Bytes := u32ToBe (UInt32.ofNat length)

/-- 48 bytes and a ciphertext. -/
def headedBlock (key : Block) (head clear : Bytes) : Bytes :=
  head ++ Cbc.encryptPadded (aes key) iv clear

/-- The picture in the block, if it is one. -/
def PictureBlock.jpeg (self : PictureBlock) : Option Bytes := (validatedJpeg self.clear).toOption

/-- The detection data, where the version has some. -/
def PictureBlock.detectionPart (version : UInt16) (self : PictureBlock) : Bytes :=
  if version = 3 then self.tag ++ (lengthField self.detection.length ++ self.detection) else []

def PictureBlock.part (key : Block) (version : UInt16) (self : PictureBlock) : Bytes :=
  let block := headedBlock aes key self.head self.clear
  self.reserved ++ (u16ToBe self.index ++ (lengthField block.length ++ (block ++
    self.detectionPart version)))

/-- The parts of a container, one behind the other. -/
def parts (key : Block) (version : UInt16) (blocks : List PictureBlock) : Bytes :=
  (blocks.map (PictureBlock.part aes key version)).flatten

def hiklittlepic (key : Block) (version : UInt16) (blocks : List PictureBlock) : Bytes :=
  ascii "hiklittlepic" ++ (u16ToBe version ++ parts aes key version blocks)

def hikpic (version : UInt16) (reserved : UInt8) (block : Bytes) : Bytes :=
  ascii "hikpic" ++ (u16ToBe version ++ (reserved :: (lengthField block.length ++ block)))

/-- The rule of the container: the blocks with index 1 before the others, or `first` before
these. -/
def preferred (first : Option Bytes) (blocks : List PictureBlock) : Except PictureError Bytes :=
  match (blocks.filter fun block => block.index = 1).findSome? PictureBlock.jpeg with
  | some picture => .ok picture
  | none => (first.or (blocks.findSome? PictureBlock.jpeg)).elim (.error .invalid) .ok

/-- A field of two bytes is read as what it was written as. -/
theorem readU16_eq {raw front rest : Bytes} {offset : ℕ} {value : UInt16}
    (h : raw = front ++ (u16ToBe value ++ rest)) (hoffset : offset = front.length) :
    (readU16 raw offset).result = .ok value := by
  have hslice : (Reading.slice raw offset 2 PictureError.invalid).result = .ok (u16ToBe value) :=
    Reading.result_slice _ h hoffset rfl
  rw [readU16, Reading.result_bind_ok hslice]
  exact congrArg Except.ok (u16FromBe_toBe value)

/-- A field of four bytes is read as what it was written as. -/
theorem readU32_eq {raw front rest : Bytes} {offset length : ℕ} (hlength : length < 2 ^ 32)
    (h : raw = front ++ (lengthField length ++ rest)) (hoffset : offset = front.length) :
    (readU32 raw offset).result = .ok length := by
  have hslice : (Reading.slice raw offset 4 PictureError.invalid).result =
      .ok (lengthField length) :=
    Reading.result_slice _ h hoffset rfl
  rw [readU32, Reading.result_bind_ok hslice]
  have hvalue : u32FromBe ((lengthField length).getD 0 0) ((lengthField length).getD 1 0)
      ((lengthField length).getD 2 0) ((lengthField length).getD 3 0) = UInt32.ofNat length :=
    u32FromBe_toBe _
  rw [Reading.result_pure, hvalue, UInt32.toNat_ofNat_of_lt' hlength]

theorem length_encryptPadded (key : Block) (clear : Bytes) :
    (Cbc.encryptPadded (aes key) iv clear).length = (Cbc.pad 16 clear).length :=
  Cbc.length_encryptPadded (by decide) _ _ _

/-- A block is decrypted to the text that it holds. -/
theorem decryptBlock_headedBlock (key : Block) (head : BlockOf UInt8 48) (clear : Bytes) :
    decryptBlock aes key (headedBlock aes key head clear) = validatedJpeg clear := by
  have hdrop : (headedBlock aes key head clear).drop blockHeader =
      Cbc.encryptPadded (aes key) iv clear :=
    List.drop_left' head.2
  have hlength : ¬(headedBlock aes key head clear).length < blockHeader := by
    rw [headedBlock, List.length_append, head.2, blockHeader]
    omega
  -- what stands behind the header is a whole number of cipher blocks, and not empty
  have hpos := Cbc.length_pad_pos (by decide : 0 < 16) clear
  rw [← length_encryptPadded aes key] at hpos
  have hwhole : ¬(Cbc.encryptPadded (aes key) iv clear = [] ∨
      (Cbc.encryptPadded (aes key) iv clear).length % 16 ≠ 0) := by
    rw [not_or, not_not]
    exact ⟨List.ne_nil_of_length_pos hpos, Cbc.length_encryptPadded_mod _ _ _⟩
  have hclear : Cbc.decryptPadded (aes key).symm iv (Cbc.encryptPadded (aes key) iv clear) =
      some clear :=
    Cbc.decryptPadded_encryptPadded (aes key).symm_apply_apply (by decide) (by decide) iv clear
  rw [decryptBlock, if_neg hlength, hdrop]
  dsimp only
  rw [if_neg hwhole, hclear]

/-- The detection data is skipped. -/
theorem skipDetection_eq {raw front rest : Bytes} {cursor : ℕ} (version : UInt16)
    (block : PictureBlock) (h : raw = front ++ (block.detectionPart version ++ rest))
    (hcursor : cursor = front.length) :
    (skipDetection raw version cursor).result =
      .ok (cursor + (block.detectionPart version).length) := by
  rw [skipDetection]
  -- only version 3 has detection data
  by_cases hversion : version = 3
  · rw [PictureBlock.detectionPart, if_pos hversion] at h
    have htag : raw = (front ++ block.tag.1) ++ (lengthField block.detection.length ++
        (block.detection ++ rest)) := by
      rw [h]
      simp only [List.append_assoc]
    have hdata : raw = (front ++ block.tag.1 ++ lengthField block.detection.length) ++
        (block.detection ++ rest) := by
      rw [h]
      simp only [List.append_assoc]
    have hfield : (lengthField block.detection.length).length = 4 := rfl
    rw [if_pos hversion, Reading.result_bind_ok (readU32_eq block.detectionFits htag _),
      Reading.result_bind_ok (Reading.result_slice _ hdata _ rfl), Reading.result_pure,
      PictureBlock.detectionPart, if_pos hversion]
    · simp only [List.length_append, block.tag.2, hfield]
      congr 1
      omega
    · simp only [List.length_append, block.tag.2, hfield]
      omega
    · simp only [List.length_append, block.tag.2]
      omega
  · rw [if_neg hversion, PictureBlock.detectionPart, if_neg hversion]
    rfl

theorem preferred_nil (first : Option Bytes) :
    preferred first [] = first.elim (.error .invalid) .ok := by
  cases first <;> rfl

/-- One block after the other: a picture of index 1 is returned, the first other one is kept. -/
theorem preferred_cons (first : Option Bytes) (block : PictureBlock) (blocks : List PictureBlock) :
    preferred first (block :: blocks) =
      match block.jpeg with
      | some picture =>
        if block.index = 1 then .ok picture else preferred (some (first.getD picture)) blocks
      | none => preferred first blocks := by
  rw [preferred]
  -- the block has the index that is preferred, or not
  by_cases hindex : block.index = 1
  · rw [List.filter_cons_of_pos (p := fun block => decide (PictureBlock.index block = 1))
      (decide_eq_true hindex), List.findSome?_cons, List.findSome?_cons]
    cases block.jpeg with
    | none => rfl
    | some picture => exact (if_pos hindex).symm
  · have hnot : ¬decide (block.index = 1) = true := by simpa using hindex
    rw [List.filter_cons_of_neg (p := fun block => decide (PictureBlock.index block = 1)) hnot,
      List.findSome?_cons]
    cases block.jpeg with
    | none => rfl
    | some picture =>
      dsimp only
      rw [if_neg hindex, preferred]
      cases first <;> rfl

theorem length_headedBlock (key : Block) (block : PictureBlock) :
    (headedBlock aes key block.head block.clear).length = 48 + (Cbc.pad 16 block.clear).length := by
  rw [headedBlock, List.length_append, block.head.2, length_encryptPadded]

/-- **A container is taken apart into its blocks.** -/
theorem littleBlocks_assembled (key : Block) (version : UInt16) {turns : ℕ} (front : Bytes)
    (first : Option Bytes) {blocks : List PictureBlock} (hturns : blocks.length ≤ turns) :
    (littleBlocks aes key (front ++ parts aes key version blocks) version turns front.length
      first).result =
      preferred first blocks := by
  -- on the blocks
  induction blocks generalizing turns front first with
  | nil =>
    rw [preferred_nil]
    -- the end of the container is reached
    cases turns with
    | zero => rfl
    | succ turns =>
      rw [littleBlocks, if_pos]
      · rfl
      · rw [parts, List.map_nil, List.flatten_nil, List.append_nil]
  | cons block blocks ih =>
    rw [List.length_cons] at hturns
    obtain ⟨turns, rfl⟩ : ∃ rest, turns = rest + 1 := ⟨turns - 1, by omega⟩
    -- where each field of the part stands
    generalize hbody : headedBlock aes key block.head block.clear = body
    have hbodyLength : body.length < 2 ^ 32 := by
      rw [← hbody, length_headedBlock]
      exact block.fits
    generalize hraw : front ++ parts aes key version (block :: blocks) = raw
    have hpart : block.part aes key version = block.reserved ++ (u16ToBe block.index ++
        (lengthField body.length ++ (body ++ block.detectionPart version))) := by
      rw [PictureBlock.part, hbody]
    have hnext : raw = (front ++ block.part aes key version) ++ parts aes key version blocks := by
      rw [← hraw, parts, List.map_cons, List.flatten_cons, List.append_assoc]
      rfl
    have hindex : raw = (front ++ block.reserved) ++ (u16ToBe block.index ++
        (lengthField body.length ++ (body ++ (block.detectionPart version ++
          parts aes key version blocks)))) := by
      rw [hnext, hpart]
      simp only [List.append_assoc]
    have hlength : raw = (front ++ block.reserved ++ u16ToBe block.index) ++
        (lengthField body.length ++ (body ++ (block.detectionPart version ++
          parts aes key version blocks))) := by
      rw [hindex]
      simp only [List.append_assoc]
    have hblock :
        raw = (front ++ block.reserved ++ u16ToBe block.index ++ lengthField body.length) ++
        (body ++ (block.detectionPart version ++ parts aes key version blocks)) := by
      rw [hindex]
      simp only [List.append_assoc]
    have hdetection : raw = (front ++ block.reserved ++ u16ToBe block.index ++
        lengthField body.length ++ body) ++ (block.detectionPart version ++
          parts aes key version blocks) := by
      rw [hindex]
      simp only [List.append_assoc]
    have hfield : (lengthField body.length).length = 4 := rfl
    have hoffsets : (front ++ block.reserved.1).length = front.length + 4 ∧
        (front ++ block.reserved ++ u16ToBe block.index).length = front.length + 6 ∧
        (front ++ block.reserved ++ u16ToBe block.index ++ lengthField body.length).length =
          front.length + 10 ∧
        (front ++ block.reserved ++ u16ToBe block.index ++ lengthField body.length ++ body).length =
          front.length + (10 + body.length) := by
      simp only [List.length_append, block.reserved.2, length_u16ToBe, hfield, true_and]
      omega
    have hinside : ¬raw.length ≤ front.length := by
      rw [hindex, List.length_append, hoffsets.1]
      omega
    -- the fields are read one after the other
    rw [littleBlocks, if_neg hinside, Reading.result_bind_ok (readU16_eq hindex hoffsets.1.symm),
      Reading.result_bind_ok (readU32_eq hbodyLength hlength hoffsets.2.1.symm),
      Reading.result_bind_ok (Reading.result_slice _ hblock hoffsets.2.2.1.symm rfl),
      Reading.result_bind_ok (skipDetection_eq version block hdetection hoffsets.2.2.2.symm),
      ← hbody, decryptBlock_headedBlock, hbody, preferred_cons]
    -- the cursor is behind the part
    have hcursor : front.length + (10 + body.length) + (block.detectionPart version).length =
        (front ++ block.part aes key version).length := by
      rw [hpart]
      simp only [List.length_append, block.reserved.2, length_u16ToBe, hfield]
      omega
    have hturns' : blocks.length ≤ turns := Nat.le_of_succ_le_succ hturns
    rw [hcursor, hnext, PictureBlock.jpeg]
    cases validatedJpeg block.clear with
    | error error => exact ih _ _ hturns'
    | ok picture =>
      show Reading.result (if block.index = 1 then _ else _) = if block.index = 1 then _ else _
      by_cases hone : block.index = 1
      · rw [if_pos hone, if_pos hone]
        rfl
      · rw [if_neg hone, if_neg hone]
        exact ih _ _ hturns'

/-! ### The three formats -/

/-- What a text begins with is decided by its first bytes. -/
theorem not_prefix_append {marker front : Bytes} (h : ¬marker <+: front)
    (hlength : marker.length ≤ front.length) (rest : Bytes) : ¬marker <+: front ++ rest :=
  fun hprefix => h (List.prefix_of_prefix_length_le hprefix (List.prefix_append _ _) hlength)

variable {checksum : String} {key : Block}

/-- A container of the first format. -/
theorem decrypt_hiklittlepic (hkey : checksumKey checksum = some key) (version : UInt16)
    {blocks : List PictureBlock} (hblocks : blocks.length ≤ maxContainerBlocks) :
    (decryptChecksumPicture aes (hiklittlepic aes key version blocks) checksum).result =
      preferred none blocks := by
  -- the magic of the container tells it from a clear JPEG
  have hjpeg : ¬startOfImage <+: hiklittlepic aes key version blocks :=
    not_prefix_append (by decide) (by decide) _
  have hlittle : ascii "hiklittlepic" <+: hiklittlepic aes key version blocks :=
    List.prefix_append _ _
  have hparts : hiklittlepic aes key version blocks =
      (ascii "hiklittlepic" ++ u16ToBe version) ++ parts aes key version blocks := by
    rw [hiklittlepic, List.append_assoc]
  have hversion : (readU16 (hiklittlepic aes key version blocks) 12).result = .ok version :=
    readU16_eq rfl rfl
  rw [decryptChecksumPicture, hkey]
  dsimp only
  rw [if_neg hjpeg, if_pos hlittle, littleContainer, Reading.result_bind_ok hversion, hparts]
  exact littleBlocks_assembled aes key version _ none hblocks

/-- A container of the second format. -/
theorem decrypt_hikpic (hkey : checksumKey checksum = some key) (version : UInt16)
    (reserved : UInt8) (head : BlockOf UInt8 48) {clear : Bytes}
    (hfits : 48 + (Cbc.pad 16 clear).length < 2 ^ 32) :
    (decryptChecksumPicture aes
      (hikpic version reserved (headedBlock aes key head clear)) checksum).result =
      validatedJpeg clear := by
  generalize hblock : headedBlock aes key head clear = block
  have hlength : block.length < 2 ^ 32 := by
    rw [← hblock, headedBlock, List.length_append, head.2, length_encryptPadded]
    exact hfits
  have hjpeg : ¬startOfImage <+: hikpic version reserved block :=
    not_prefix_append (by decide) (by decide) _
  have hlittle : ¬ascii "hiklittlepic" <+: hikpic version reserved block := by
    intro hprefix
    obtain ⟨rest, hrest⟩ := hprefix
    -- the two magics differ in the fourth letter
    have hfourth := congrArg (fun data : Bytes => data[3]?) hrest
    exact absurd (Option.some.inj hfourth) (by decide)
  have hpic : ascii "hikpic" <+: hikpic version reserved block := List.prefix_append _ _
  -- the length, and the block behind it
  have hfield : (readU32 (hikpic version reserved block) 9).result = .ok block.length := by
    have hshape : hikpic version reserved block =
        (ascii "hikpic" ++ (u16ToBe version ++ [reserved])) ++
          (lengthField block.length ++ block) := rfl
    exact readU32_eq hlength hshape rfl
  have hpart : (Reading.slice (hikpic version reserved block) 13 block.length
      PictureError.invalid).result = .ok block := by
    have hshape : hikpic version reserved block =
        (ascii "hikpic" ++ (u16ToBe version ++ (reserved :: lengthField block.length))) ++
          (block ++ []) := by
      rw [hikpic, List.append_nil]
      rfl
    exact Reading.result_slice _ hshape rfl rfl
  rw [decryptChecksumPicture, hkey]
  dsimp only
  rw [if_neg hjpeg, if_neg hlittle, if_pos hpic, Reading.result_bind_ok hfield,
    Reading.result_bind_ok hpart, Reading.result_of, ← hblock, decryptBlock_headedBlock]

/-- A block without a container. -/
theorem decrypt_headedBlock (hkey : checksumKey checksum = some key) {head : BlockOf UInt8 48}
    (clear : Bytes) (hjpeg : ¬startOfImage <+: head.1) (hlittle : ¬ascii "hiklittlepic" <+: head.1)
    (hpic : ¬ascii "hikpic" <+: head.1) :
    (decryptChecksumPicture aes (headedBlock aes key head clear) checksum).result =
      validatedJpeg clear := by
  -- the magics are shorter than the header
  have hfront : ∀ marker : Bytes, marker.length ≤ 48 → ¬marker <+: head.1 →
      ¬marker <+: headedBlock aes key head clear := by
    intro marker hlength h
    exact not_prefix_append h (by rwa [head.2]) _
  rw [decryptChecksumPicture, hkey]
  dsimp only
  rw [if_neg (hfront _ (by decide) hjpeg), if_neg (hfront _ (by decide) hlittle),
    if_neg (hfront _ (by decide) hpic), Reading.result_of, decryptBlock_headedBlock]

/-- **Encrypted alarm pictures.** What has been assembled comes out as the formats say, and of any
bytes at all only a JPEG comes out. -/
theorem checksum_pictures (hkey : checksumKey checksum = some key) :
    (∀ (version : UInt16) (blocks : List PictureBlock), blocks.length ≤ maxContainerBlocks →
      (decryptChecksumPicture aes (hiklittlepic aes key version blocks) checksum).result =
        preferred none blocks) ∧
    (∀ (version : UInt16) (reserved : UInt8) (head : BlockOf UInt8 48) (clear : Bytes),
      48 + (Cbc.pad 16 clear).length < 2 ^ 32 →
        (decryptChecksumPicture aes (hikpic version reserved (headedBlock aes key head clear))
          checksum).result = validatedJpeg clear) ∧
    (∀ (head : BlockOf UInt8 48) (clear : Bytes), ¬startOfImage <+: head.1 →
      ¬ascii "hiklittlepic" <+: head.1 → ¬ascii "hikpic" <+: head.1 →
        (decryptChecksumPicture aes (headedBlock aes key head clear) checksum).result =
          validatedJpeg clear) ∧
    ∀ (raw : Bytes) (checksum : String),
      (decryptChecksumPicture aes raw checksum).Within raw.length (1 + 5 * maxContainerBlocks) ∧
      ∀ jpeg, (decryptChecksumPicture aes raw checksum).result = .ok jpeg → IsJpeg jpeg := by
  -- the three formats, and any bytes at all
  refine ⟨?_, ?_, ?_, ?_⟩
  · intro version blocks hblocks
    exact decrypt_hiklittlepic aes hkey version hblocks
  · intro version reserved head clear hfits
    exact decrypt_hikpic aes hkey version reserved head hfits
  · intro head clear hjpeg hlittle hpic
    exact decrypt_headedBlock aes hkey clear hjpeg hlittle hpic
  · intro raw checksum
    exact ⟨within_decryptChecksumPicture aes raw checksum,
      fun _ h => isJpeg_decryptChecksumPicture aes h⟩

/-- A part with the picture `ff d8 ff picture ff d9`. -/
def sampleBlock (index : UInt16) (picture : UInt8) : PictureBlock where
  reserved := ⟨[0, 0, 0, 0], rfl⟩
  index := index
  head := ⟨List.replicate 48 0, rfl⟩
  clear := [0xff, 0xd8, 0xff, picture, 0xff, 0xd9]
  tag := ⟨[0, 1], rfl⟩
  detection := [0, 0, 0, 0]
  fits := by
    rw [Cbc.length_pad]
    simp only [List.length_cons, List.length_nil]
    decide
  detectionFits := by decide

/-- The picture with index 1 comes out of the container, although another one is in front of it. -/
theorem checksum_pictures_sample :
    checksumKey "000102030405060708090a0b0c0d0e0f" =
      some ⟨[0, 1, 2, 3, 4, 5, 6, 7, 8, 9, 10, 11, 12, 13, 14, 15], rfl⟩ ∧
    (decryptChecksumPicture (fun _ => Equiv.refl _)
      (hiklittlepic (fun _ => Equiv.refl _)
        ⟨[0, 1, 2, 3, 4, 5, 6, 7, 8, 9, 10, 11, 12, 13, 14, 15], rfl⟩ 3
        [sampleBlock 0 7, sampleBlock 1 8]) "000102030405060708090a0b0c0d0e0f").result =
      .ok [0xff, 0xd8, 0xff, 8, 0xff, 0xd9] := by
  have hkey : checksumKey "000102030405060708090a0b0c0d0e0f" =
      some ⟨[0, 1, 2, 3, 4, 5, 6, 7, 8, 9, 10, 11, 12, 13, 14, 15], rfl⟩ := by decide +kernel
  refine ⟨hkey, ?_⟩
  rw [(checksum_pictures (fun _ => Equiv.refl _) hkey).1 3 _ (by decide)]
  decide

end Alarms

end EzvizBridge
