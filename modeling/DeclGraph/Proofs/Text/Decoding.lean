import DeclGraph.FilePath

/-!
# The bytes of texts

The bytes that encode a text are decoded as that text: no character is broken
off, and none is lost. So a path that is written as a text is shown by that text.
-/

namespace DeclGraph.Text

section Continuing

variable {value bits lowest highest : Nat} (small : bits < 64)
  (above : lowest ≤ bits + 0x80) (below : bits + 0x80 ≤ highest)

include small

/-- The number read from a byte that carries six bits of a character. -/
theorem toNat_continuation : (UInt8.ofNat (bits + 0x80)).toNat = bits + 0x80 := by
  rw [UInt8.toNat_ofNat']
  omega

include above below

/-- The last missing byte completes a character by its low six bits. -/
theorem Begun.continueWith_last :
    (⟨value, 0, lowest, highest⟩ : Begun).continueWith (.ofNat (bits + 0x80)) =
      ([Char.ofNat (value * 64 + bits)], none) := by
  simp only [continueWith, toNat_continuation small, above, below, and_self, ↓reduceIte,
    Nat.add_sub_cancel]

/-- A missing byte that is not the last one adds its low six bits. -/
theorem Begun.continueWith_further {further : Nat} :
    (⟨value, further + 1, lowest, highest⟩ : Begun).continueWith (.ofNat (bits + 0x80)) =
      ([], some { value := value * 64 + bits, further }) := by
  simp only [continueWith, toNat_continuation small, above, below, and_self, ↓reduceIte,
    Nat.add_sub_cancel]

end Continuing

/-- The lead byte of a character of two bytes. -/
theorem beginWith_two (value : Nat) (above : 0x80 ≤ value) (below : value < 0x800) :
    beginWith (.ofNat (value / 64 % 32 + 192)) =
      ([], some { value := value / 64, further := 0 }) := by
  have read : (UInt8.ofNat (value / 64 % 32 + 192)).toNat = value / 64 + 192 := by
    rw [UInt8.toNat_ofNat']
    omega
  simp only [beginWith, read]
  rw [if_neg (by omega), if_neg (by omega), if_pos (by omega), Nat.add_sub_cancel]

/-- The lead byte of a character of three bytes. -/
theorem beginWith_three (value : Nat) (above : 0x800 ≤ value) (below : value < 0x10000) :
    beginWith (.ofNat (value / 4096 % 16 + 224)) =
      ([], some {
        value := value / 4096
        further := 1
        lowest := if value < 0x1000 then 0xA0 else 0x80
        highest := if 0xD000 ≤ value ∧ value < 0xE000 then 0x9F else 0xBF }) := by
  have read : (UInt8.ofNat (value / 4096 % 16 + 224)).toNat = value / 4096 + 224 := by
    rw [UInt8.toNat_ofNat']
    omega
  have first : value / 4096 + 224 = 0xE0 ↔ value < 0x1000 := by omega
  have surrogate : value / 4096 + 224 = 0xED ↔ 0xD000 ≤ value ∧ value < 0xE000 := by omega
  simp only [beginWith, read, first, surrogate]
  rw [if_neg (by omega), if_neg (by omega), if_neg (by omega), if_pos (by omega),
    Nat.add_sub_cancel]

/-- The lead byte of a character of four bytes. -/
theorem beginWith_four (value : Nat) (above : 0x10000 ≤ value) (below : value < 0x110000) :
    beginWith (.ofNat (value / 262144 % 8 + 240)) =
      ([], some {
        value := value / 262144
        further := 2
        lowest := if value < 0x40000 then 0x90 else 0x80
        highest := if 0x100000 ≤ value then 0x8F else 0xBF }) := by
  have read : (UInt8.ofNat (value / 262144 % 8 + 240)).toNat = value / 262144 + 240 := by
    rw [UInt8.toNat_ofNat']
    omega
  have first : value / 262144 + 240 = 0xF0 ↔ value < 0x40000 := by omega
  have last : value / 262144 + 240 = 0xF4 ↔ 0x100000 ≤ value := by omega
  simp only [beginWith, read, first, last]
  rw [if_neg (by omega), if_neg (by omega), if_neg (by omega), if_neg (by omega),
    if_pos (by omega), Nat.add_sub_cancel]

/-- The bytes of a character are decoded as that character, whatever follows. -/
theorem decodeFrom_encodeChar (c : Char) (rest : List UInt8) :
    decodeFrom none (String.utf8EncodeChar c ++ rest) = c :: decodeFrom none rest := by
  have same : Char.ofNat c.val.toNat = c := Char.ofNat_toNat c
  have valid : c.val.toNat < 0xD800 ∨ 0xDFFF < c.val.toNat ∧ c.val.toNat < 0x110000 := c.valid
  simp only [String.utf8EncodeChar]
  generalize c.val.toNat = value at same valid ⊢
  split
  case isTrue one =>
    have read : (UInt8.ofNat value).toNat = value := by
      rw [UInt8.toNat_ofNat']
      omega
    have ascii : beginWith (.ofNat value) = ([c], none) := by
      simp only [beginWith, read, same]
      rw [if_pos (by omega)]
    simp only [List.cons_append, List.nil_append, decodeFrom, ascii]
  split
  case isTrue two =>
    have whole : value / 64 * 64 + value % 64 = value := by omega
    simp only [List.cons_append, List.nil_append, decodeFrom,
      beginWith_two value (by omega) (by omega)]
    rw [Begun.continueWith_last (by omega) (by omega) (by omega)]
    simp only [whole, same, List.cons_append, List.nil_append]
  split
  case isTrue three =>
    have whole : (value / 4096 * 64 + value / 64 % 64) * 64 + value % 64 = value := by omega
    simp only [List.cons_append, List.nil_append, decodeFrom,
      beginWith_three value (by omega) (by omega)]
    rw [Begun.continueWith_further (by omega) (by split <;> omega) (by split <;> omega)]
    simp only [List.nil_append, decodeFrom]
    rw [Begun.continueWith_last (by omega) (by omega) (by omega)]
    simp only [whole, same, List.cons_append, List.nil_append]
  case isFalse four =>
    have whole : ((value / 262144 * 64 + value / 4096 % 64) * 64 + value / 64 % 64) * 64
        + value % 64 = value := by omega
    simp only [List.cons_append, List.nil_append, decodeFrom,
      beginWith_four value (by omega) (by omega)]
    rw [Begun.continueWith_further (by omega) (by split <;> omega) (by split <;> omega)]
    simp only [List.nil_append, decodeFrom]
    rw [Begun.continueWith_further (by omega) (by omega) (by omega)]
    simp only [List.nil_append, decodeFrom]
    rw [Begun.continueWith_last (by omega) (by omega) (by omega)]
    simp only [whole, same, List.cons_append, List.nil_append]

/-- The bytes of a text are shown as that text. -/
theorem decode_encode (text : List Char) : decode (encode text) = text := by
  unfold decode encode
  induction text with
  | nil => rfl
  | cons c rest shown => rw [List.flatMap_cons, decodeFrom_encodeChar, shown]

end DeclGraph.Text

namespace DeclGraph.FilePath

/-- A path that is written as a text is shown by that text. -/
@[simp] theorem display_ofText (text : String) : (ofText text).display = text := by
  rw [display, ofText, Text.decode_encode, String.ofList_toList]

end DeclGraph.FilePath
