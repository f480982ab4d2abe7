import Cookbook.Text.Utf8

/-!
# Texts in UTF-8

The reader takes each character off the octets that encode it, whatever octets
follow: the leading octet tells how many there are, and none of them is refused,
because an encoded character has its shortest form and is no surrogate.  So the
reader finds every text in the octets that encode it.
-/

namespace Cookbook.Text.Utf8

variable
    {position value high second third low : Nat}
    {limit : UInt8}
    {rest : List UInt8}

/-! ## Octets as numbers -/

theorem toNat_ofNat
    (octet : value < 0x100) :
    (UInt8.ofNat value).toNat = value :=
  UInt8.toNat_ofNat_of_lt' octet

theorem ofNat_lt_iff
    (octet : value < 0x100) :
    UInt8.ofNat value < limit ↔ value < limit.toNat := by
  rw [UInt8.lt_iff_toNat_lt, toNat_ofNat octet]

theorem ofNat_le_iff
    (octet : value < 0x100) :
    UInt8.ofNat value ≤ limit ↔ value ≤ limit.toNat := by
  rw [UInt8.le_iff_toNat_le, toNat_ofNat octet]

theorem le_ofNat_iff
    (octet : value < 0x100) :
    limit ≤ UInt8.ofNat value ↔ limit.toNat ≤ value := by
  rw [UInt8.le_iff_toNat_le, toNat_ofNat octet]

theorem ofNat_eq_iff
    (octet : value < 0x100) :
    UInt8.ofNat value = limit ↔ value = limit.toNat := by
  rw [← UInt8.toNat_inj, toNat_ofNat octet]

/-! ## Octets that continue a character -/

/-- The octet that adds six bits to a character. -/
def continuation (bits : Nat) : UInt8 :=
  UInt8.ofNat (bits + 0x80)

theorem isContinuation_continuation
    (small : low < 0x40) :
    isContinuation (continuation low) = true := by
  have octet : low + 0x80 < 0x100 := by omega
  have range : 0x80 ≤ low + 0x80 ∧ low + 0x80 ≤ 0xBF := by omega
  simpa only [isContinuation, continuation, Bool.and_eq_true, decide_eq_true_eq,
    le_ofNat_iff octet, ofNat_le_iff octet, UInt8.reduceToNat] using range

theorem payload_continuation
    (small : low < 0x40) :
    payload (continuation low) = low := by
  have octet : low + 0x80 < 0x100 := by omega
  have whole : (continuation low).toNat = low + 0x80 := toNat_ofNat octet
  show (continuation low).toNat - 0x80 = low
  omega

/-- The second octet of three starts no overlong form and no surrogate. -/
theorem isSecondOfThree_continuation
    (most : high < 0x10)
    (small : second < 0x40)
    (shortest : high = 0 → 0x20 ≤ second)
    (noSurrogate : high = 0xD → second < 0x20) :
    isSecondOfThree (UInt8.ofNat (high + 0xE0)) (continuation second) = true := by
  have octet : high + 0xE0 < 0x100 := by omega
  have other : second + 0x80 < 0x100 := by omega
  have accepted : (high + 0xE0 = 0xE0 → ¬second + 0x80 < 0xA0) ∧
      (high + 0xE0 = 0xED → ¬0xA0 ≤ second + 0x80) := by
    omega
  rw [isSecondOfThree, isContinuation_continuation small]
  simpa only [continuation, Bool.true_and, Bool.and_eq_true, Bool.not_eq_true',
    Bool.and_eq_false_imp, beq_iff_eq, decide_eq_true_eq, decide_eq_false_iff_not,
    ofNat_eq_iff octet, ofNat_lt_iff other, le_ofNat_iff other, UInt8.reduceToNat]
    using accepted

/-- The second octet of four starts no overlong form and nothing beyond the last code point. -/
theorem isSecondOfFour_continuation
    (most : high < 5)
    (small : second < 0x40)
    (shortest : high = 0 → 0x10 ≤ second)
    (within : high = 4 → second < 0x10) :
    isSecondOfFour (UInt8.ofNat (high + 0xF0)) (continuation second) = true := by
  have octet : high + 0xF0 < 0x100 := by omega
  have other : second + 0x80 < 0x100 := by omega
  have accepted : (high + 0xF0 = 0xF0 → ¬second + 0x80 < 0x90) ∧
      (high + 0xF0 = 0xF4 → ¬0x90 ≤ second + 0x80) := by
    omega
  rw [isSecondOfFour, isContinuation_continuation small]
  simpa only [continuation, Bool.true_and, Bool.and_eq_true, Bool.not_eq_true',
    Bool.and_eq_false_imp, beq_iff_eq, decide_eq_true_eq, decide_eq_false_iff_not,
    ofNat_eq_iff octet, ofNat_lt_iff other, le_ofNat_iff other, UInt8.reduceToNat]
    using accepted

/-! ## Characters by the number of their octets -/

theorem decodeFrom_one
    (small : value < 0x80) :
    decodeFrom position (UInt8.ofNat value :: rest) =
      (Char.ofNat value :: ·) <$> decodeFrom (position + 1) rest := by
  have octet : value < 0x100 := by omega
  rw [decodeFrom.eq_def]
  simp only [ofNat_lt_iff octet, UInt8.reduceToNat, toNat_ofNat octet]
  rw [if_pos small]

theorem decodeFrom_two
    (least : 2 ≤ high)
    (most : high < 0x20)
    (small : low < 0x40) :
    decodeFrom position (UInt8.ofNat (high + 0xC0) :: continuation low :: rest) =
      (Char.ofNat (high * 0x40 + low) :: ·) <$> decodeFrom (position + 2) rest := by
  have octet : high + 0xC0 < 0x100 := by omega
  rw [decodeFrom.eq_def]
  simp only [ofNat_lt_iff octet, UInt8.reduceToNat, toNat_ofNat octet, Nat.add_sub_cancel,
    isContinuation_continuation small, payload_continuation small, if_true]
  rw [if_neg (show ¬high + 0xC0 < 0x80 by omega), if_neg (show ¬high + 0xC0 < 0xC2 by omega),
    if_pos (show high + 0xC0 < 0xE0 by omega)]

theorem decodeFrom_three
    (most : high < 0x10)
    (small : second < 0x40)
    (shortest : high = 0 → 0x20 ≤ second)
    (noSurrogate : high = 0xD → second < 0x20)
    (smallLow : low < 0x40) :
    decodeFrom position
        (UInt8.ofNat (high + 0xE0) :: continuation second :: continuation low :: rest) =
      (Char.ofNat ((high * 0x40 + second) * 0x40 + low) :: ·) <$>
        decodeFrom (position + 3) rest := by
  have octet : high + 0xE0 < 0x100 := by omega
  rw [decodeFrom.eq_def]
  simp only [isSecondOfThree_continuation most small shortest noSurrogate, ofNat_lt_iff octet,
    UInt8.reduceToNat, toNat_ofNat octet, Nat.add_sub_cancel,
    isContinuation_continuation smallLow, payload_continuation small,
    payload_continuation smallLow, if_true]
  rw [if_neg (show ¬high + 0xE0 < 0x80 by omega), if_neg (show ¬high + 0xE0 < 0xC2 by omega),
    if_neg (show ¬high + 0xE0 < 0xE0 by omega), if_pos (show high + 0xE0 < 0xF0 by omega)]

theorem decodeFrom_four
    (most : high < 5)
    (small : second < 0x40)
    (shortest : high = 0 → 0x10 ≤ second)
    (within : high = 4 → second < 0x10)
    (smallThird : third < 0x40)
    (smallLow : low < 0x40) :
    decodeFrom position
        (UInt8.ofNat (high + 0xF0) :: continuation second :: continuation third ::
          continuation low :: rest) =
      (Char.ofNat (((high * 0x40 + second) * 0x40 + third) * 0x40 + low) :: ·) <$>
        decodeFrom (position + 4) rest := by
  have octet : high + 0xF0 < 0x100 := by omega
  rw [decodeFrom.eq_def]
  simp only [isSecondOfFour_continuation most small shortest within, ofNat_lt_iff octet,
    UInt8.reduceToNat, toNat_ofNat octet, Nat.add_sub_cancel,
    isContinuation_continuation smallThird, isContinuation_continuation smallLow,
    payload_continuation small, payload_continuation smallThird, payload_continuation smallLow,
    if_true]
  rw [if_neg (show ¬high + 0xF0 < 0x80 by omega), if_neg (show ¬high + 0xF0 < 0xC2 by omega),
    if_neg (show ¬high + 0xF0 < 0xE0 by omega), if_neg (show ¬high + 0xF0 < 0xF0 by omega),
    if_pos (show high + 0xF0 < 0xF5 by omega)]

/-! ## Encoded texts -/

/-- The octets of a character, by its code point. -/
theorem utf8EncodeChar_eq
    (letter : Char) :
    String.utf8EncodeChar letter =
      if letter.toNat ≤ 0x7F then [UInt8.ofNat letter.toNat]
      else if letter.toNat ≤ 0x7FF then
        [UInt8.ofNat (letter.toNat / 0x40 % 0x20 + 0xC0), continuation (letter.toNat % 0x40)]
      else if letter.toNat ≤ 0xFFFF then
        [UInt8.ofNat (letter.toNat / 0x1000 % 0x10 + 0xE0),
          continuation (letter.toNat / 0x40 % 0x40), continuation (letter.toNat % 0x40)]
      else
        [UInt8.ofNat (letter.toNat / 0x40000 % 8 + 0xF0),
          continuation (letter.toNat / 0x1000 % 0x40), continuation (letter.toNat / 0x40 % 0x40),
          continuation (letter.toNat % 0x40)] :=
  rfl

/-- The reader takes a character off the octets that encode it. -/
theorem decodeFrom_encoded
    (position : Nat)
    (letter : Char)
    (rest : List UInt8) :
    ∃ later, decodeFrom position (String.utf8EncodeChar letter ++ rest) =
      (letter :: ·) <$> decodeFrom later rest := by
  have valid : letter.toNat < 0xD800 ∨ (0xDFFF < letter.toNat ∧ letter.toNat < 0x110000) :=
    letter.valid
  have same : Char.ofNat letter.toNat = letter := Char.ofNat_toNat letter
  rw [utf8EncodeChar_eq]
  generalize letter.toNat = code at valid same
  subst same
  split
  · exact ⟨_, decodeFrom_one (by omega)⟩
  · split
    · have whole : code = code / 0x40 % 0x20 * 0x40 + code % 0x40 := by omega
      have read := @decodeFrom_two position (code / 0x40 % 0x20) (code % 0x40) rest (by omega)
        (by omega) (by omega)
      rw [← whole] at read
      exact ⟨_, read⟩
    · split
      · have whole : code =
            (code / 0x1000 % 0x10 * 0x40 + code / 0x40 % 0x40) * 0x40 + code % 0x40 := by
          omega
        have read := @decodeFrom_three position (code / 0x1000 % 0x10) (code / 0x40 % 0x40)
          (code % 0x40) rest (by omega) (by omega) (by omega) (by omega) (by omega)
        rw [← whole] at read
        exact ⟨_, read⟩
      · have whole : code =
            ((code / 0x40000 % 8 * 0x40 + code / 0x1000 % 0x40) * 0x40 +
              code / 0x40 % 0x40) * 0x40 + code % 0x40 := by
          omega
        have read := @decodeFrom_four position (code / 0x40000 % 8) (code / 0x1000 % 0x40)
          (code / 0x40 % 0x40) (code % 0x40) rest (by omega) (by omega) (by omega) (by omega)
          (by omega) (by omega)
        rw [← whole] at read
        exact ⟨_, read⟩

/-- Decoding undoes encoding. -/
theorem decode_encoded
    (text : List Char) :
    decode (text.flatMap String.utf8EncodeChar) = .ok text := by
  suffices read : ∀ position,
      decodeFrom position (text.flatMap String.utf8EncodeChar) = .ok text from read 0
  induction text with
  | nil =>
    intro position
    rfl
  | cons letter text ih =>
    intro position
    rcases decodeFrom_encoded position letter (text.flatMap String.utf8EncodeChar) with
      ⟨later, read⟩
    rw [List.flatMap_cons, read, ih later]
    rfl

/-- The octets of a string encode its characters one by one. -/
theorem toList_toUTF8
    (text : String) :
    text.toUTF8.data.toList = text.toList.flatMap String.utf8EncodeChar := by
  have whole : text.toUTF8 = text.toList.utf8Encode := by
    rw [← String.toByteArray_ofList, String.ofList_toList, String.toUTF8_eq_toByteArray]
  rw [whole]
  exact List.toList_data_toByteArray

end Cookbook.Text.Utf8
