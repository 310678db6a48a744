import EzvizBridge.Transport.Image

/-!
# Encrypted pictures and back

A picture that has been put together from texts (`picture`) is decrypted to these texts, as long as
the marker is nowhere but at its parts (`Alone`): each part ends where the next one begins
(`blockEnd_part`), so that the loop decrypts one part after the other (`decryptBlocks_parts`). Under
another password the first part is refused.

Of any input at all, the loop visits a marker at most once (`visits_decryptBlocks`).
-/

namespace EzvizBridge

namespace Image

/-- A text in a picture, and the bytes behind its ciphertext that do not make a block. -/
structure Part where
  clear : Bytes
  trailing : Bytes
  short : trailing.length ≤ 15

section

variable (md5 : Bytes → BitVec 128) (aes : Aes128) (password : Bytes)

/-- A part as it is sent. -/
def Part.encode (self : Part) : Bytes :=
  header ++ (expected md5 password ++
    (Cbc.encryptPadded (aes (keyOf password)) iv self.clear ++ self.trailing))

/-- The parts of a picture, one behind the other. -/
def picture (parts : List Part) : Bytes := (parts.map (Part.encode md5 aes password)).flatten

/-- Where the parts begin. -/
def starts : ℕ → List Part → List ℕ
  | _, [] => []
  | start, part :: parts => start :: starts (start + (part.encode md5 aes password).length) parts

/-- The marker is nowhere but at the parts, from this place on. -/
def Alone (data : Bytes) (start : ℕ) (parts : List Part) : Prop :=
  ∀ place, start ≤ place → Markers.At header data place →
    place ∈ starts md5 aes password start parts

variable {md5 aes password}

theorem length_expected : (expected md5 password).length = hashBytes := by
  rw [expected, hexEncode, List.length_map, List.length_range]

theorem length_encode (part : Part) :
    48 + (Cbc.pad 16 part.clear).length ≤ (part.encode md5 aes password).length := by
  have hheader : header.length = 16 := rfl
  have hhash : hashBytes = 32 := rfl
  simp only [Part.encode, List.length_append, length_expected, hheader, hhash,
    Cbc.length_encryptPadded (by decide : 0 < 16)]
  omega

theorem le_of_mem_starts {start place : ℕ} {parts : List Part}
    (h : place ∈ starts md5 aes password start parts) : start ≤ place := by
  induction parts generalizing start with
  | nil => exact nomatch h
  | cons part parts ih =>
    rw [starts, List.mem_cons] at h
    obtain rfl | h := h
    · exact le_refl _
    · exact (Nat.le_add_right _ _).trans (ih h)

theorem mem_starts_add (skipped : ℕ) {start place : ℕ} {parts : List Part} :
    skipped + place ∈ starts md5 aes password (skipped + start) parts ↔
      place ∈ starts md5 aes password start parts := by
  induction parts generalizing start with
  | nil => rw [starts, starts, List.mem_nil_iff, List.mem_nil_iff]
  | cons part parts ih =>
    rw [starts, starts, List.mem_cons, List.mem_cons, Nat.add_assoc, ih, Nat.add_left_cancel_iff]

theorem at_encode (before : Bytes) (part : Part) (rest : Bytes) :
    Markers.At header (before ++ (part.encode md5 aes password ++ rest)) before.length := by
  rw [Markers.At, List.drop_left, Part.encode, List.append_assoc]
  exact List.prefix_append _ _

/-- Behind the first part, the marker is at the others. -/
theorem Alone.tail {data : Bytes} {start : ℕ} {part : Part} {parts : List Part}
    (h : Alone md5 aes password data start (part :: parts)) :
    Alone md5 aes password data (start + (part.encode md5 aes password).length) parts := by
  have hpos := @length_encode md5 aes password part
  intro place hle hat
  have hmem := h place (by omega) hat
  rw [starts, List.mem_cons] at hmem
  exact hmem.resolve_left (by omega)

/-- **A part ends where the next one begins**, or with the data. -/
theorem blockEnd_part {before : Bytes} {part : Part} {parts : List Part}
    (h : Alone md5 aes password (before ++ picture md5 aes password (part :: parts)) before.length
      (part :: parts)) :
    blockEnd (before ++ picture md5 aes password (part :: parts)) before.length =
      before.length + (part.encode md5 aes password).length := by
  have hheader : header.length = 16 := rfl
  have hlong := @length_encode md5 aes password part
  have htail := h.tail
  generalize hdata : before ++ picture md5 aes password (part :: parts) = data at h htail ⊢
  have hlength : data.length = before.length + ((part.encode md5 aes password).length +
      (picture md5 aes password parts).length) := by
    rw [← hdata, List.length_append, picture, List.map_cons, List.flatten_cons, List.length_append,
      picture]
  -- behind the marker of the part itself
  have hbehind : ∀ place, Markers.At header (data.drop (before.length + header.length)) place →
      before.length + header.length + place ∈
        starts md5 aes password (before.length + (part.encode md5 aes password).length) parts := by
    intro place hat
    rw [Markers.at_drop] at hat
    have hmem := h _ (by omega) hat
    rw [starts, List.mem_cons] at hmem
    exact hmem.resolve_left (by omega)
  rw [blockEnd]
  cases parts with
  | nil =>
    rw [Markers.first_eq_none fun place hat => nomatch hbehind place hat]
    dsimp only
    rw [hlength]
    rfl
  | cons next rest =>
    have hfirst : Markers.first header (data.drop (before.length + header.length)) =
        some ((part.encode md5 aes password).length - header.length) := by
      apply Markers.first_eq_of_at (by decide)
      · rw [Markers.at_drop]
        have hplace : before.length + header.length + ((part.encode md5 aes password).length -
            header.length) = (before ++ part.encode md5 aes password).length := by
          rw [List.length_append]
          omega
        have hshape : data = (before ++ part.encode md5 aes password) ++
            (next.encode md5 aes password ++ picture md5 aes password rest) := by
          rw [← hdata, List.append_assoc]
          rfl
        rw [hplace, hshape]
        exact at_encode _ _ _
      · intro place hlt hat
        have := le_of_mem_starts (hbehind place hat)
        omega
    rw [hfirst]
    dsimp only
    omega

/-- The bytes of the first part. -/
theorem slice_part (before : Bytes) (part : Part) (parts : List Part) :
    ((before ++ picture md5 aes password (part :: parts)).take
      (before.length + (part.encode md5 aes password).length)).drop before.length =
        part.encode md5 aes password := by
  have hshape : before ++ picture md5 aes password (part :: parts) =
      before ++ (part.encode md5 aes password ++ picture md5 aes password parts) := rfl
  rw [hshape, List.take_length_add_append, List.take_left, List.drop_left]

/-- The hash of a part. -/
theorem hash_encode (part : Part) :
    ((part.encode md5 aes password).take (header.length + hashBytes)).drop header.length =
      expected md5 password := by
  have hfront : (header ++ expected md5 password).length = header.length + hashBytes := by
    rw [List.length_append, length_expected]
  rw [Part.encode, ← List.append_assoc, List.take_left' hfront, List.drop_left]

theorem not_truncated (part : Part) :
    ¬(part.encode md5 aes password).length ≤ header.length + hashBytes := by
  have hheader : header.length = 16 := rfl
  have hhash : hashBytes = 32 := rfl
  have hlong := @length_encode md5 aes password part
  have hpos := Cbc.length_pad_pos (by decide : 0 < 16) part.clear
  omega

/-- **A part is decrypted to its text**: what is left behind the ciphertext is not a block. -/
theorem decryptBlock_encode (part : Part) :
    decryptBlock md5 aes (part.encode md5 aes password) password = .ok part.clear := by
  have hfront : (header ++ expected md5 password).length = header.length + hashBytes := by
    rw [List.length_append, length_expected]
  have hdrop : (part.encode md5 aes password).drop (header.length + hashBytes) =
      Cbc.encryptPadded (aes (keyOf password)) iv part.clear ++ part.trailing := by
    rw [Part.encode, ← List.append_assoc, List.drop_left' hfront]
  have haligned : ((part.encode md5 aes password).length - (header.length + hashBytes)) / 16 * 16 =
      (Cbc.encryptPadded (aes (keyOf password)) iv part.clear).length := by
    have hmod := Cbc.length_encryptPadded_mod (aes (keyOf password)) iv part.clear
    have hshort := part.short
    rw [← List.length_drop, hdrop, List.length_append]
    omega
  rw [decryptBlock]
  dsimp only
  rw [if_neg (not_truncated part), if_neg (not_not.mpr (hash_encode part)), haligned, hdrop,
    List.take_left, Cbc.decryptPadded_encryptPadded (aes (keyOf password)).symm_apply_apply
      (by decide) (by decide)]

/-- Under another password a part is refused. -/
theorem decryptBlock_other {other : Bytes} (h : expected md5 other ≠ expected md5 password)
    (part : Part) :
    decryptBlock md5 aes (part.encode md5 aes password) other =
      .error (.upstream "camera image key was rejected") := by
  have hrejected : ((part.encode md5 aes password).take (header.length + hashBytes)).drop
      header.length ≠
      expected md5 other := by
    rw [hash_encode]
    exact h.symm
  rw [decryptBlock]
  dsimp only
  rw [if_neg (not_truncated part), if_pos hrejected]

/-- **One part after the other.** -/
theorem decryptBlocks_parts (before output : Bytes) {parts : List Part}
    (h : Alone md5 aes password (before ++ picture md5 aes password parts) before.length parts) :
    (decryptBlocks md5 aes (before ++ picture md5 aes password parts) password before.length
      output).1 =
      .ok (output ++ (parts.map Part.clear).flatten) := by
  induction parts generalizing before output with
  | nil =>
    rw [decryptBlocks, picture, List.map_nil, List.flatten_nil, List.append_nil,
      if_neg (lt_irrefl _), List.map_nil, List.flatten_nil, List.append_nil]
  | cons part parts ih =>
    have hat : Markers.At header
        (before ++ picture md5 aes password (part :: parts)) before.length :=
      at_encode _ _ _
    have hinside := hat.lt_length (by decide)
    have hshape : before ++ picture md5 aes password (part :: parts) =
        (before ++ part.encode md5 aes password) ++ picture md5 aes password parts := by
      rw [List.append_assoc]
      rfl
    have htail := h.tail
    rw [hshape, ← List.length_append] at htail
    rw [decryptBlocks, if_pos hinside, if_neg (not_not.mpr hat), blockEnd_part h]
    dsimp only
    rw [slice_part, decryptBlock_encode]
    dsimp only
    rw [hshape, ← List.length_append, ih _ _ htail, List.map_cons, List.flatten_cons,
      List.append_assoc]

/-- The loop stops at a part that is refused. -/
theorem decryptBlocks_other {other : Bytes} (h : expected md5 other ≠ expected md5 password)
    {part : Part} {parts : List Part}
    (halone : Alone md5 aes password (picture md5 aes password (part :: parts)) 0 (part :: parts)) :
    (decryptBlocks md5 aes (picture md5 aes password (part :: parts)) other 0 []).1 =
      .error (.upstream "camera image key was rejected") := by
  have hat : Markers.At header (picture md5 aes password (part :: parts)) 0 :=
    at_encode [] part (picture md5 aes password parts)
  have hstop := @blockEnd_part md5 aes password [] part parts halone
  have hslice := @slice_part md5 aes password [] part parts
  rw [List.nil_append, List.length_nil, Nat.zero_add] at hstop hslice
  rw [decryptBlocks, if_pos (hat.lt_length (by decide)), if_neg (not_not.mpr hat), hstop]
  dsimp only
  rw [hslice, decryptBlock_other h]

end

/-! ### Any input -/

/-- The places that the loop visits, behind each other: each has the marker. -/
structure Visits (data : Bytes) (cursor : ℕ) (visited : List ℕ) : Prop where
  ascending : visited.Pairwise (· < ·)
  behind : ∀ place ∈ visited, cursor ≤ place
  marked : ∀ place ∈ visited, Markers.At header data place
  few : cursor + header.length * visited.length ≤ max cursor data.length

/-- A block has its marker, and ends within the data. -/
theorem blockEnd_bounds {data : Bytes} {cursor : ℕ} (h : Markers.At header data cursor) :
    cursor + header.length ≤ blockEnd data cursor ∧ blockEnd data cursor ≤ data.length := by
  have hfits : cursor + header.length ≤ data.length := h.length_le.resolve_right (by decide)
  rw [blockEnd]
  cases hfirst : Markers.first header (data.drop (cursor + header.length)) with
  | none => exact ⟨hfits, le_refl _⟩
  | some position =>
    obtain ⟨-, hlt, -⟩ := Markers.first_eq_some hfirst
    rw [List.length_drop] at hlt
    dsimp only
    omega

theorem visits_nil (data : Bytes) (cursor : ℕ) : Visits data cursor [] where
  ascending := List.Pairwise.nil
  behind := List.forall_mem_nil _
  marked := List.forall_mem_nil _
  few := le_max_left _ _

/-- The block at `cursor`, and those behind its end. -/
theorem Visits.cons {data : Bytes} {cursor : ℕ} {visited : List ℕ}
    (hat : Markers.At header data cursor) (h : Visits data (blockEnd data cursor) visited) :
    Visits data cursor (cursor :: visited) := by
  obtain ⟨hmarker, hend⟩ := blockEnd_bounds hat
  have hheader : header.length = 16 := rfl
  refine ⟨?_, ?_, ?_, ?_⟩
  · rw [List.pairwise_cons]
    refine ⟨fun place hplace => ?_, h.ascending⟩
    have := h.behind place hplace
    omega
  · rw [List.forall_mem_cons]
    refine ⟨le_refl _, fun place hplace => ?_⟩
    have := h.behind place hplace
    omega
  · rw [List.forall_mem_cons]
    exact ⟨hat, h.marked⟩
  · have hfew := h.few
    rw [max_eq_right hend] at hfew
    rw [List.length_cons, Nat.mul_succ]
    exact le_max_of_le_right (by omega)

/-- **No marker is visited twice.** -/
theorem visits_decryptBlocks (md5 : Bytes → BitVec 128) (aes : Aes128) (data password : Bytes)
    (cursor : ℕ) (output : Bytes) :
    Visits data cursor (decryptBlocks md5 aes data password cursor output).2 := by
  induction cursor, output using decryptBlocks.induct md5 aes data password with
  | case1 cursor output hinside hnot =>
    rw [decryptBlocks, if_pos hinside, if_pos hnot]
    exact visits_nil data cursor
  | case2 cursor output hinside hat stop error herror =>
    -- the block is refused, and the loop ends
    rw [decryptBlocks, if_pos hinside, if_neg hat]
    dsimp only
    rw [herror]
    exact (visits_nil data _).cons (not_not.mp hat)
  | case3 cursor output hinside hat stop clear hclear result visited hrest ih =>
    rw [decryptBlocks, if_pos hinside, if_neg hat]
    dsimp only
    rw [hclear]
    exact ih.cons (not_not.mp hat)
  | case4 cursor output houtside =>
    rw [decryptBlocks, if_neg houtside]
    exact visits_nil data cursor

/-- The places in the input that `decryptImage` visits. -/
def visited (md5 : Bytes → BitVec 128) (aes : Aes128) (input password : Bytes) : List ℕ :=
  match Markers.first header input with
  | none => []
  | some start => (decryptBlocks md5 aes (input.drop start) password 0 []).2.map (start + ·)

theorem visits_visited (md5 : Bytes → BitVec 128) (aes : Aes128) (input password : Bytes) :
    Visits input 0 (visited md5 aes input password) := by
  rw [visited]
  cases hfirst : Markers.first header input with
  | none => exact visits_nil input 0
  | some start =>
    obtain ⟨-, hlt, -⟩ := Markers.first_eq_some hfirst
    have h := visits_decryptBlocks md5 aes (input.drop start) password 0 []
    refine ⟨?_, fun _ _ => Nat.zero_le _, ?_, ?_⟩
    · rw [List.pairwise_map]
      exact h.ascending.imp fun hplaces => Nat.add_lt_add_left hplaces start
    · rw [List.forall_mem_map]
      intro place hplace
      exact (Markers.at_drop start place).mp (h.marked place hplace)
    · have hfew := h.few
      rw [List.length_drop] at hfew
      rw [List.length_map]
      omega

/-- **Encrypted pictures.** The texts of a picture come back under its password and under no other,
and of any input no marker is visited twice. -/
theorem image_round_trip (md5 : Bytes → BitVec 128) (aes : Aes128) :
    (∀ (password front : Bytes) (parts : List Part),
      (∀ place, Markers.At header (front ++ picture md5 aes password parts) place →
        place ∈ starts md5 aes password front.length parts) →
      (∃ part ∈ parts, part.clear ≠ []) →
        decryptImage md5 aes (front ++ picture md5 aes password parts) password =
          .ok (parts.map Part.clear).flatten ∧
        ∀ other, expected md5 other ≠ expected md5 password →
          ∃ error, decryptImage md5 aes (front ++ picture md5 aes password parts) other =
            .error error) ∧
    ∀ input password, Visits input 0 (visited md5 aes input password) := by
  refine ⟨?_, fun input password => visits_visited md5 aes input password⟩
  intro password front parts hplaces hsome
  obtain ⟨part, rest, rfl⟩ : ∃ part rest, parts = part :: rest := by
    obtain ⟨part, hpart, -⟩ := hsome
    exact List.exists_cons_of_ne_nil (List.ne_nil_of_mem hpart)
  have hfirst : Markers.first header (front ++ picture md5 aes password (part :: rest)) =
      some front.length := by
    apply Markers.first_eq_of_at (by decide) (at_encode _ _ _)
    intro place hlt hat
    have := le_of_mem_starts (hplaces place hat)
    omega
  have halone : Alone md5 aes password (picture md5 aes password (part :: rest)) 0
      (part :: rest) := by
    intro place _ hat
    rw [← mem_starts_add front.length, Nat.add_zero]
    exact hplaces _ ((Markers.at_append front place).mpr hat)
  constructor
  · have hblocks := @decryptBlocks_parts md5 aes password [] [] (part :: rest) halone
    have hne : ((part :: rest).map Part.clear).flatten ≠ [] := by
      rw [Ne, List.flatten_eq_nil_iff]
      obtain ⟨nonempty, hmem, hclear⟩ := hsome
      exact fun hnil => hclear (hnil _ (List.mem_map_of_mem hmem))
    rw [List.nil_append, List.nil_append, List.length_nil] at hblocks
    rw [decryptImage, hfirst]
    dsimp only
    rw [List.drop_left, hblocks]
    exact if_neg hne
  · intro other hother
    refine ⟨.upstream "camera image key was rejected", ?_⟩
    rw [decryptImage, hfirst]
    dsimp only
    rw [List.drop_left, decryptBlocks_other hother halone]

/-- MD5, as far as the password `ABCDEF` needs it. -/
def sampleMd5 (data : Bytes) : BitVec 128 :=
  if data = ascii "ABCDEF" then 0x8827a41122a5028b9808c7bf84b9fcf6
  else if data = ascii "8827a41122a5028b9808c7bf84b9fcf6" then 0xaa37ad52a5a65df39791a95818fb3298
  else 0

/-- A text between two other bytes. -/
def samplePart : Part where
  clear := [0xff, 0xd8, 0xff, 0xd9]
  trailing := [1, 2, 3]
  short := by decide

/-- The text comes back under its password, and not under another one. -/
theorem image_round_trip_sample :
    let input := [7, 7] ++ picture sampleMd5 (fun _ => Equiv.refl _) (ascii "ABCDEF") [samplePart]
    decryptImage sampleMd5 (fun _ => Equiv.refl _) input (ascii "ABCDEF") =
      .ok [0xff, 0xd8, 0xff, 0xd9] ∧
      ∃ error, decryptImage sampleMd5 (fun _ => Equiv.refl _) input (ascii "WRONG1") =
        .error error := by
  intro input
  have hlength : input.length = 69 := by decide +kernel
  have hplaces : ∀ place, Markers.At header input place →
      place ∈ starts sampleMd5 (fun _ => Equiv.refl _) (ascii "ABCDEF") 2 [samplePart] := by
    intro place hat
    have hlt := hat.lt_length (by decide)
    rw [hlength] at hlt
    have hfew : ∀ place < 69, Markers.At header input place → place ∈ [2] := by decide +kernel
    exact hfew place hlt hat
  obtain ⟨hright, hwrong⟩ :=
    (image_round_trip sampleMd5 fun _ => Equiv.refl _).1 (ascii "ABCDEF") [7, 7]
    [samplePart] hplaces ⟨samplePart, List.mem_singleton_self _, by decide⟩
  exact ⟨hright, hwrong (ascii "WRONG1") (by decide +kernel)⟩

end Image

end EzvizBridge
