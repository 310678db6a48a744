import EzvizBridge.Lib.Bytes
import EzvizBridge.Lib.Chunks
import EzvizBridge.Lib.Ecb

/-!
# Cipher block chaining with PKCS#7

A text of any length is padded to whole blocks, and each block is mixed with the cipher block in
front of it. Where the block cipher can be undone, so can the whole (`decryptPadded_encryptPadded`):
chaining undoes block by block (`cbcDecrypt_cbcEncrypt`), and the last byte says how much is padding
(`unpad_pad`).
-/

namespace Cbc

variable {n : ℕ}

/-! ### Padding -/

/-- A text, padded to whole blocks. -/
def pad (n : ℕ) (text : Bytes) : Bytes :=
  let missing := n - text.length % n
  text ++ List.replicate missing (UInt8.ofNat missing)

/-- The text in front of the padding, if there is one. -/
def unpad (n : ℕ) (padded : Bytes) : Option Bytes := do
  let last ← padded.getLast?
  let length := padded.length - last.toNat
  if last = 0 ∨ n < last.toNat ∨ ¬(padded.drop length).all fun byte => byte = last then none
  else some (padded.take length)

theorem length_pad (n : ℕ) (text : Bytes) :
    (pad n text).length = text.length + (n - text.length % n) := by
  rw [pad, List.length_append, List.length_replicate]

theorem length_pad_mod (hn : 0 < n) (text : Bytes) : (pad n text).length % n = 0 := by
  have hlt := Nat.mod_lt text.length hn
  have hdiv := Nat.div_add_mod text.length n
  have hlength : (pad n text).length = n * (text.length / n + 1) := by
    rw [length_pad, Nat.mul_succ]
    omega
  rw [hlength, Nat.mul_mod_right]

theorem length_pad_pos (hn : 0 < n) (text : Bytes) : 0 < (pad n text).length := by
  have hlt := Nat.mod_lt text.length hn
  rw [length_pad]
  omega

/-- **What has been padded is found again.** -/
theorem unpad_pad (hn : 0 < n) (hn' : n < 256) (text : Bytes) :
    unpad n (pad n text) = some text := by
  have hlt := Nat.mod_lt text.length hn
  obtain ⟨missing, hmissing⟩ : ∃ missing, n - text.length % n = missing + 1 :=
    ⟨n - text.length % n - 1, by omega⟩
  have hvalue : (UInt8.ofNat (missing + 1)).toNat = missing + 1 := by
    rw [UInt8.toNat_ofNat']
    omega
  have hlength : (text ++ List.replicate (missing + 1) (UInt8.ofNat (missing + 1))).length -
      (missing + 1) = text.length := by
    rw [List.length_append, List.length_replicate, Nat.add_sub_cancel]
  have hlast : (text ++ List.replicate (missing + 1) (UInt8.ofNat (missing + 1))).getLast? =
      some (UInt8.ofNat (missing + 1)) := by
    rw [List.getLast?_append, List.getLast?_replicate, if_neg (Nat.succ_ne_zero _), Option.some_or]
  simp only [unpad, pad, hmissing, hlast, Option.bind_eq_bind, Option.bind_some, hvalue, hlength,
    List.drop_left, List.take_left]
  apply if_neg
  rintro (hzero | hlarge | hother)
  · rw [hzero] at hvalue
    exact nomatch hvalue
  · omega
  · apply hother
    rw [List.all_eq_true]
    intro byte hbyte
    exact decide_eq_true (List.eq_of_mem_replicate hbyte)

/-! ### Blocks -/

/-- The whole blocks of a text. -/
def toBlocks (n : ℕ) (text : Bytes) : List (BlockOf UInt8 n) :=
  (chunks n text).filterMap fun piece => if h : piece.length = n then some ⟨piece, h⟩ else none

/-- The bytes of some blocks. -/
def ofBlocks (blocks : List (BlockOf UInt8 n)) : Bytes := (blocks.map Subtype.val).flatten

theorem length_ofBlocks (blocks : List (BlockOf UInt8 n)) :
    (ofBlocks blocks).length = n * blocks.length := by
  induction blocks with
  | nil => rfl
  | cons block blocks ih =>
    show (block.1 ++ ofBlocks blocks).length = _
    rw [List.length_append, ih, block.2, List.length_cons, Nat.mul_succ, Nat.add_comm]

theorem toBlocks_ofBlocks (hn : 0 < n) (blocks : List (BlockOf UInt8 n)) :
    toBlocks n (ofBlocks blocks) = blocks := by
  have hpieces : ∀ piece ∈ blocks.map Subtype.val, piece.length = n := by
    intro piece hpiece
    obtain ⟨block, -, rfl⟩ := List.mem_map.mp hpiece
    exact block.2
  rw [toBlocks, ofBlocks, chunks_flatten hn hpieces, List.filterMap_map]
  induction blocks with
  | nil => rfl
  | cons block blocks ih =>
    have hrest : ∀ piece ∈ blocks.map Subtype.val, piece.length = n :=
      fun piece h => hpieces piece (List.mem_cons_of_mem _ h)
    rw [List.filterMap_cons_some, ih hrest]
    rw [Function.comp_apply, dif_pos block.2]

theorem toBlocks_append {piece : Bytes} (hn : 0 < n) (h : piece.length = n) (text : Bytes) :
    toBlocks n (piece ++ text) = ⟨piece, h⟩ :: toBlocks n text := by
  rw [toBlocks, chunks_append hn h, List.filterMap_cons_some (dif_pos h), toBlocks]

theorem ofBlocks_toBlocks (hn : 0 < n) {text : Bytes} (h : text.length % n = 0) :
    ofBlocks (toBlocks n text) = text := by
  obtain ⟨count, hcount⟩ := Nat.dvd_of_mod_eq_zero h
  induction count generalizing text with
  | zero =>
    rw [List.eq_nil_of_length_eq_zero hcount]
    rfl
  | succ count ih =>
    rw [Nat.mul_succ] at hcount
    have hpiece : (text.take n).length = n := List.length_take_of_le (by omega)
    have hrest : (text.drop n).length = n * count := by
      rw [List.length_drop]
      omega
    have hmod : (text.drop n).length % n = 0 := by rw [hrest, Nat.mul_mod_right]
    conv_lhs => rw [← List.take_append_drop n text, toBlocks_append hn hpiece]
    show text.take n ++ ofBlocks (toBlocks n (text.drop n)) = text
    rw [ih hmod hrest, List.take_append_drop]

/-! ### Chaining -/

/-- The bytes of two blocks, mixed. -/
def mix (a b : BlockOf UInt8 n) : BlockOf UInt8 n :=
  ⟨a.1.zipWith (· ^^^ ·) b.1, by rw [List.length_zipWith, a.2, b.2, Nat.min_self]⟩

theorem mix_mix (a b : BlockOf UInt8 n) : mix a (mix a b) = b := by
  apply Subtype.ext
  apply List.ext_getElem
  · rw [(mix a (mix a b)).2, b.2]
  · intro i hi hi'
    simp only [mix, List.getElem_zipWith]
    rw [← UInt8.xor_assoc, UInt8.xor_self, UInt8.zero_xor]

/-- Each block is mixed with the cipher block in front of it. -/
def cbcEncrypt (encrypt : BlockOf UInt8 n → BlockOf UInt8 n) :
    BlockOf UInt8 n → List (BlockOf UInt8 n) → List (BlockOf UInt8 n)
  | _, [] => []
  | before, block :: blocks =>
    let cipher := encrypt (mix before block)
    cipher :: cbcEncrypt encrypt cipher blocks

def cbcDecrypt (decrypt : BlockOf UInt8 n → BlockOf UInt8 n) :
    BlockOf UInt8 n → List (BlockOf UInt8 n) → List (BlockOf UInt8 n)
  | _, [] => []
  | before, cipher :: ciphers => mix before (decrypt cipher) :: cbcDecrypt decrypt cipher ciphers

theorem cbcDecrypt_cbcEncrypt {encrypt decrypt : BlockOf UInt8 n → BlockOf UInt8 n}
    (h : Function.LeftInverse decrypt encrypt) (iv : BlockOf UInt8 n)
    (blocks : List (BlockOf UInt8 n)) :
    cbcDecrypt decrypt iv (cbcEncrypt encrypt iv blocks) = blocks := by
  induction blocks generalizing iv with
  | nil => rfl
  | cons block blocks ih => rw [cbcEncrypt, cbcDecrypt, h, mix_mix, ih]

theorem length_cbcEncrypt (encrypt : BlockOf UInt8 n → BlockOf UInt8 n) (iv : BlockOf UInt8 n)
    (blocks : List (BlockOf UInt8 n)) : (cbcEncrypt encrypt iv blocks).length = blocks.length := by
  induction blocks generalizing iv with
  | nil => rfl
  | cons block blocks ih => rw [cbcEncrypt, List.length_cons, ih, List.length_cons]

/-! ### Both -/

def encryptPadded (encrypt : BlockOf UInt8 n → BlockOf UInt8 n) (iv : BlockOf UInt8 n)
    (text : Bytes) :
    Bytes :=
  ofBlocks (cbcEncrypt encrypt iv (toBlocks n (pad n text)))

/-- Only whole blocks are decrypted, and at least one. -/
def decryptPadded (decrypt : BlockOf UInt8 n → BlockOf UInt8 n) (iv : BlockOf UInt8 n)
    (cipher : Bytes) :
    Option Bytes :=
  if cipher.length % n = 0 then
    unpad n (ofBlocks (cbcDecrypt decrypt iv (toBlocks n cipher))) else none

theorem length_encryptPadded_mod (encrypt : BlockOf UInt8 n → BlockOf UInt8 n)
    (iv : BlockOf UInt8 n) (text : Bytes) : (encryptPadded encrypt iv text).length % n = 0 := by
  rw [encryptPadded, length_ofBlocks, Nat.mul_mod_right]

theorem length_encryptPadded (hn : 0 < n) (encrypt : BlockOf UInt8 n → BlockOf UInt8 n)
    (iv : BlockOf UInt8 n) (text : Bytes) :
    (encryptPadded encrypt iv text).length = (pad n text).length := by
  conv_rhs => rw [← ofBlocks_toBlocks hn (length_pad_mod hn text)]
  rw [encryptPadded, length_ofBlocks, length_cbcEncrypt, length_ofBlocks]

/-- **The text comes back.** -/
theorem decryptPadded_encryptPadded {encrypt decrypt : BlockOf UInt8 n → BlockOf UInt8 n}
    (h : Function.LeftInverse decrypt encrypt) (hn : 0 < n) (hn' : n < 256) (iv : BlockOf UInt8 n)
    (text : Bytes) : decryptPadded decrypt iv (encryptPadded encrypt iv text) = some text := by
  rw [decryptPadded, if_pos (length_encryptPadded_mod encrypt iv text), encryptPadded,
    toBlocks_ofBlocks hn, cbcDecrypt_cbcEncrypt h, ofBlocks_toBlocks hn (length_pad_mod hn text),
    unpad_pad hn hn']

end Cbc
