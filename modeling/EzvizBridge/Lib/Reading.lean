import EzvizBridge.Lib.Bytes

/-!
# Reading ranges of a byte string

A computation that reads parts of a byte string, and may fail. It records the ranges that it has
read, so that a bound on them can be stated (`Reading.Within`): one rule for each way to make a
reading.
-/

/-- What a reading ends with, and the ranges that it has read: where each begins, and its length. -/
structure Reading (ε α : Type) where
  result : Except ε α
  ranges : List (ℕ × ℕ)

namespace Reading

variable {ε α β : Type}

/-- One reading after the other, until one fails. -/
def andThen (self : Reading ε α) (next : α → Reading ε β) : Reading ε β :=
  match self.result with
  | .ok value => ⟨(next value).result, self.ranges ++ (next value).ranges⟩
  | .error error => ⟨.error error, self.ranges⟩

instance : Monad (Reading ε) where
  pure value := ⟨.ok value, []⟩
  bind := andThen

/-- A result that takes no reading. -/
def of (result : Except ε α) : Reading ε α := ⟨result, []⟩

/-- `length` bytes from `offset`, if they are there. -/
def slice (data : Bytes) (offset length : ℕ) (error : ε) : Reading ε Bytes :=
  if offset + length ≤ data.length then ⟨.ok ((data.drop offset).take length), [(offset, length)]⟩
  else ⟨.error error, []⟩

@[simp] theorem result_pure (value : α) : (pure value : Reading ε α).result = .ok value := rfl

@[simp] theorem result_of (result : Except ε α) : (of result).result = result := rfl

theorem result_bind_ok {self : Reading ε α} {next : α → Reading ε β} {value : α}
    (h : self.result = .ok value) : (self >>= next).result = (next value).result := by
  show (andThen self next).result = _
  rw [andThen, h]

theorem result_bind_error {self : Reading ε α} {next : α → Reading ε β} {error : ε}
    (h : self.result = .error error) : (self >>= next).result = .error error := by
  show (andThen self next).result = _
  rw [andThen, h]

/-- Both readings of a sequence that has a result have one. -/
theorem exists_of_bind {self : Reading ε α} {next : α → Reading ε β} {value : β}
    (h : (self >>= next).result = .ok value) :
    ∃ first, self.result = .ok first ∧ (next first).result = .ok value := by
  cases hfirst : self.result with
  | error error =>
    rw [result_bind_error hfirst] at h
    exact nomatch h
  | ok first =>
    rw [result_bind_ok hfirst] at h
    exact ⟨first, rfl, h⟩

/-- The bytes of a part that is there. -/
theorem result_slice {data front part rest : Bytes} {offset length : ℕ} (error : ε)
    (h : data = front ++ (part ++ rest)) (hoffset : offset = front.length)
    (hlength : length = part.length) : (slice data offset length error).result = .ok part := by
  subst h hoffset hlength
  have hle : front.length + part.length ≤ (front ++ (part ++ rest)).length := by
    rw [List.length_append, List.length_append]
    omega
  rw [slice, if_pos hle, List.drop_left, List.take_left]

/-- At most `count` ranges have been read, and all of them lie within the first `limit` bytes. -/
structure Within (limit count : ℕ) (reading : Reading ε α) : Prop where
  inside : ∀ range ∈ reading.ranges, range.1 + range.2 ≤ limit
  few : reading.ranges.length ≤ count

variable {limit count count' : ℕ}

theorem Within.mono {self : Reading ε α} (h : self.Within limit count) (hle : count ≤ count') :
    self.Within limit count' :=
  ⟨h.inside, h.few.trans hle⟩

theorem within_of (limit : ℕ) (result : Except ε α) : (of result).Within limit 0 :=
  ⟨List.forall_mem_nil _, le_refl _⟩

theorem within_pure (limit : ℕ) (value : α) : (pure value : Reading ε α).Within limit 0 :=
  ⟨List.forall_mem_nil _, le_refl _⟩

theorem within_slice (data : Bytes) (offset length : ℕ) (error : ε) :
    (slice data offset length error).Within data.length 1 := by
  rw [slice]
  split
  · refine ⟨fun range h => ?_, le_refl _⟩
    rwa [List.mem_singleton.mp h]
  · exact ⟨List.forall_mem_nil _, Nat.zero_le _⟩

theorem within_bind {self : Reading ε α} {next : α → Reading ε β} (h : self.Within limit count)
    (hnext : ∀ value, self.result = .ok value → (next value).Within limit count') :
    (self >>= next).Within limit (count + count') := by
  show (andThen self next).Within limit (count + count')
  rw [andThen]
  cases hresult : self.result with
  | error error => exact ⟨h.inside, h.few.trans (Nat.le_add_right _ _)⟩
  | ok value =>
    have hrest := hnext value hresult
    refine ⟨fun range hrange => ?_, ?_⟩
    · obtain hrange | hrange := List.mem_append.mp hrange
      · exact h.inside range hrange
      · exact hrest.inside range hrange
    · rw [List.length_append]
      exact Nat.add_le_add h.few hrest.few

end Reading
