import ElementWrapper.Text.Utf8
import Mathlib.Data.List.DropRight

/-!
Reading back what was encoded. The bytes of a character are read as the character, whatever follows
them (`exists_readChar`): there is one case for each number of bytes, and in each the first byte
tells how many follow. No byte of a character beyond ASCII is that of a line feed, so that the lines
of a text are the same in its bytes (`count_feed_encode`, `rtakeWhile_encode`).
-/

namespace ElementWrapper.Utf8

theorem encode_append (first second : List Char) :
    encode (first ++ second) = encode first ++ encode second := List.flatMap_append

theorem encode_cons (c : Char) (chars : List Char) :
    encode (c :: chars) = String.utf8EncodeChar c ++ encode chars := rfl

theorem encode_concat (chars : List Char) (c : Char) :
    encode (chars ++ [c]) = encode chars ++ String.utf8EncodeChar c := by
  rw [encode_append, encode_cons]
  exact congrArg _ (List.append_nil _)

theorem isContinuation_iff {b : UInt8} :
    isContinuation b = true ↔ 0x80 ≤ b.toNat ∧ b.toNat < 0xC0 := by
  simp [isContinuation, UInt8.le_iff_toNat_le, UInt8.lt_iff_toNat_lt]

theorem isSecond_iff {first second : UInt8} :
    isSecond first second = true ↔ isContinuation second = true ∧
      (first.toNat = 0xE0 → 0xA0 ≤ second.toNat) ∧ (first.toNat = 0xED → second.toNat < 0xA0) ∧
      (first.toNat = 0xF0 → 0x90 ≤ second.toNat) ∧ (first.toNat = 0xF4 → second.toNat < 0x90) := by
  simp only [isSecond, bne, Bool.and_eq_true, Bool.or_eq_true, Bool.not_eq_true',
    beq_eq_false_iff_ne, decide_eq_true_eq, UInt8.le_iff_toNat_le, UInt8.lt_iff_toNat_lt, ne_eq,
    ← UInt8.toNat_inj, UInt8.reduceToNat, and_assoc, Decidable.imp_iff_not_or]

variable {first b c d : UInt8} (rest : List UInt8)

theorem readChar_one (h : first.toNat < 0x80) :
    readChar first rest = .ok (Char.ofNat first.toNat, 0) := by
  rw [readChar.eq_def, if_pos (UInt8.lt_iff_toNat_lt.2 h)]

theorem not_lt (bound : UInt8) (h : bound.toNat ≤ first.toNat) : ¬ first < bound :=
  fun less => Nat.not_lt.2 h (UInt8.lt_iff_toNat_lt.1 less)

theorem readChar_two (least : 0xC2 ≤ first.toNat) (most : first.toNat < 0xE0)
    (hb : isContinuation b) :
    readChar first (b :: rest) = .ok (Char.ofNat ((first.toNat - 0xC0) * 64 + low b), 1) := by
  have ascii : ¬ first < 0x80 := not_lt 0x80 (Nat.le_trans (by decide) least)
  rw [readChar.eq_def, if_neg ascii, if_neg (not_lt 0xC2 least),
    if_pos (UInt8.lt_iff_toNat_lt.2 most)]
  simp only [hb, if_true]

theorem readChar_three (least : 0xE0 ≤ first.toNat) (most : first.toNat < 0xF0)
    (hb : isSecond first b) (hc : isContinuation c) :
    readChar first (b :: c :: rest) =
      .ok (Char.ofNat (((first.toNat - 0xE0) * 64 + low b) * 64 + low c), 2) := by
  have ascii : ¬ first < 0x80 := not_lt 0x80 (Nat.le_trans (by decide) least)
  have start : ¬ first < 0xC2 := not_lt 0xC2 (Nat.le_trans (by decide) least)
  rw [readChar.eq_def, if_neg ascii, if_neg start, if_neg (not_lt 0xE0 least),
    if_pos (UInt8.lt_iff_toNat_lt.2 most)]
  simp [hb, hc]

theorem readChar_four (least : 0xF0 ≤ first.toNat) (most : first.toNat < 0xF5)
    (hb : isSecond first b) (hc : isContinuation c) (hd : isContinuation d) :
    readChar first (b :: c :: d :: rest) = .ok (Char.ofNat
      ((((first.toNat - 0xF0) * 64 + low b) * 64 + low c) * 64 + low d), 3) := by
  have ascii : ¬ first < 0x80 := not_lt 0x80 (Nat.le_trans (by decide) least)
  have start : ¬ first < 0xC2 := not_lt 0xC2 (Nat.le_trans (by decide) least)
  have two : ¬ first < 0xE0 := not_lt 0xE0 (Nat.le_trans (by decide) least)
  rw [readChar.eq_def, if_neg ascii, if_neg start, if_neg two, if_neg (not_lt 0xF0 least),
    if_pos (UInt8.lt_iff_toNat_lt.2 most)]
  simp [hb, hc, hd]

theorem toNat_ofNat {n : Nat} (h : n < 256) : (UInt8.ofNat n).toNat = n := by
  rw [UInt8.toNat_ofNat']
  omega

/-- The bytes of a character, by the size of its number. -/
theorem utf8EncodeChar_eq (c : Char) : String.utf8EncodeChar c =
    if c.toNat ≤ 0x7F then [.ofNat c.toNat]
    else if c.toNat ≤ 0x7FF then
      [.ofNat (c.toNat / 64 % 32 + 192), .ofNat (c.toNat % 64 + 128)]
    else if c.toNat ≤ 0xFFFF then
      [.ofNat (c.toNat / 4096 % 16 + 224), .ofNat (c.toNat / 64 % 64 + 128),
        .ofNat (c.toNat % 64 + 128)]
    else
      [.ofNat (c.toNat / 262144 % 8 + 240), .ofNat (c.toNat / 4096 % 64 + 128),
        .ofNat (c.toNat / 64 % 64 + 128), .ofNat (c.toNat % 64 + 128)] := by
  simp only [String.utf8EncodeChar, Char.toNat]

/-- The bytes of a character are read as the character. -/
theorem exists_readChar (c : Char) :
    ∃ first more, String.utf8EncodeChar c = first :: more ∧
      readChar first (more ++ rest) = .ok (c, more.length) := by
  have valid : c.toNat < 0xD800 ∨ 0xDFFF < c.toNat ∧ c.toNat < 0x110000 := c.valid
  have same : Char.ofNat c.toNat = c := Char.ofNat_toNat c
  have digit (n : Nat) : (UInt8.ofNat (n % 64 + 128)).toNat = n % 64 + 128 :=
    toNat_ofNat (by omega)
  have continues (n : Nat) : isContinuation (UInt8.ofNat (n % 64 + 128)) :=
    isContinuation_iff.2 (by rw [digit]; omega)
  have more (n : Nat) : low (UInt8.ofNat (n % 64 + 128)) = n % 64 :=
    (congrArg (· - 128) (digit n)).trans (Nat.add_sub_cancel ..)
  rw [utf8EncodeChar_eq]
  split
  · next few =>
    have first : (UInt8.ofNat c.toNat).toNat = c.toNat := toNat_ofNat (by omega)
    refine ⟨_, [], rfl, ?_⟩
    rw [List.nil_append, readChar_one _ (by omega), first, same]
    rfl
  split
  · have first : (UInt8.ofNat (c.toNat / 64 % 32 + 192)).toNat = c.toNat / 64 % 32 + 192 :=
      toNat_ofNat (by omega)
    refine ⟨_, _, rfl, ?_⟩
    have value : (c.toNat / 64 % 32 + 192 - 0xC0) * 64 + c.toNat % 64 = c.toNat := by omega
    rw [List.cons_append, readChar_two _ (by omega) (by omega) (continues _), first, more, value,
      same]
    rfl
  split
  · have first : (UInt8.ofNat (c.toNat / 4096 % 16 + 224)).toNat = c.toNat / 4096 % 16 + 224 :=
      toNat_ofNat (by omega)
    have second :
        isSecond (.ofNat (c.toNat / 4096 % 16 + 224)) (.ofNat (c.toNat / 64 % 64 + 128)) :=
      isSecond_iff.2 ⟨continues _, by rw [first, digit]; omega⟩
    refine ⟨_, _, rfl, ?_⟩
    have value : ((c.toNat / 4096 % 16 + 224 - 0xE0) * 64 + c.toNat / 64 % 64) * 64 +
        c.toNat % 64 = c.toNat := by omega
    rw [List.cons_append, List.cons_append,
      readChar_three _ (by omega) (by omega) second (continues _), first, more, more, value, same]
    rfl
  · have first : (UInt8.ofNat (c.toNat / 262144 % 8 + 240)).toNat = c.toNat / 262144 % 8 + 240 :=
      toNat_ofNat (by omega)
    have second : isSecond (.ofNat (c.toNat / 262144 % 8 + 240))
        (.ofNat (c.toNat / 4096 % 64 + 128)) :=
      isSecond_iff.2 ⟨continues _, by rw [first, digit]; omega⟩
    refine ⟨_, _, rfl, ?_⟩
    have value : (((c.toNat / 262144 % 8 + 240 - 0xF0) * 64 + c.toNat / 4096 % 64) * 64 +
        c.toNat / 64 % 64) * 64 + c.toNat % 64 = c.toNat := by omega
    rw [List.cons_append, List.cons_append, List.cons_append,
      readChar_four _ (by omega) (by omega) second (continues _) (continues _), first, more, more,
      more, value, same]
    rfl

/-- The bytes of some characters are decoded to these characters, whatever bytes come next. -/
theorem decodeLossy_append (chars : List Char) :
    decodeLossy (encode chars ++ rest) = chars ++ decodeLossy rest := by
  induction chars with
  | nil => rfl
  | cons c chars ih =>
    obtain ⟨first, more, bytes, read⟩ := exists_readChar (encode chars ++ rest) c
    have split : encode (c :: chars) ++ rest = first :: (more ++ (encode chars ++ rest)) := by
      rw [encode_cons, bytes, List.append_assoc]
      rfl
    rw [split, decodeLossy, read]
    simp only [List.drop_left]
    rw [ih]
    rfl

theorem decodeLossy_encode (chars : List Char) : decodeLossy (encode chars) = chars := by
  have whole := decodeLossy_append [] chars
  rwa [decodeLossy, List.append_nil, List.append_nil] at whole

/-! ## Line feeds -/

/-- The byte of a line feed. -/
def feed : UInt8 := 0x0A

variable {byte : UInt8} {char : Char}

/-- A byte of a character is its number, or it belongs to no character of ASCII. -/
theorem toNat_of_mem_utf8EncodeChar (mem : byte ∈ String.utf8EncodeChar char) :
    byte.toNat = char.toNat ∨ 0x80 ≤ byte.toNat := by
  have high {n : Nat} (most : n < 256) (least : 0x80 ≤ n) : 0x80 ≤ (UInt8.ofNat n).toNat :=
    (toNat_ofNat most).symm ▸ least
  rw [utf8EncodeChar_eq] at mem
  split at mem
  · obtain rfl := List.mem_singleton.1 mem
    exact .inl (toNat_ofNat (by omega))
  right
  split at mem
  · simp only [List.mem_cons, List.not_mem_nil, or_false] at mem
    obtain rfl | rfl := mem <;> exact high (by omega) (by omega)
  split at mem
  · simp only [List.mem_cons, List.not_mem_nil, or_false] at mem
    obtain rfl | rfl | rfl := mem <;> exact high (by omega) (by omega)
  · simp only [List.mem_cons, List.not_mem_nil, or_false] at mem
    obtain rfl | rfl | rfl | rfl := mem <;> exact high (by omega) (by omega)

theorem feed_notMem_utf8EncodeChar (ne : char ≠ '\n') : feed ∉ String.utf8EncodeChar char :=
  fun mem => by
    obtain number | high := toNat_of_mem_utf8EncodeChar mem
    · exact ne (Char.toNat_inj.1 number.symm)
    · exact absurd high (by decide)

theorem count_feed_encode (chars : List Char) : (encode chars).count feed = chars.count '\n' := by
  induction chars with
  | nil => rfl
  | cons c chars ih =>
    rw [encode_cons, List.count_append, ih, List.count_cons, Nat.add_comm]
    by_cases line : c = '\n'
    · rw [line]
      rfl
    · rw [List.count_eq_zero_of_not_mem (feed_notMem_utf8EncodeChar line),
        if_neg (by simpa using line)]

/-- The bytes behind the last line feed are those of the characters behind it. -/
theorem rtakeWhile_encode (chars : List Char) :
    (encode chars).rtakeWhile (· != feed) = encode (chars.rtakeWhile (· != '\n')) := by
  induction chars using List.reverseRecOn with
  | nil => rfl
  | append_singleton chars c ih =>
    rw [encode_concat]
    by_cases line : c = '\n'
    · subst line
      rw [List.rtakeWhile_concat_neg _ _ _ (by decide)]
      exact List.rtakeWhile_concat_neg _ _ _ (by decide)
    · have others : ∀ b ∈ (String.utf8EncodeChar c).reverse, (b != feed) = true := fun b mem =>
        bne_iff_ne.2 fun eq => feed_notMem_utf8EncodeChar line (eq ▸ List.mem_reverse.1 mem)
      rw [List.rtakeWhile_concat_pos (· != '\n') _ _ (bne_iff_ne.2 line), encode_concat, ← ih,
        List.rtakeWhile, List.reverse_append, List.takeWhile_append_of_pos others,
        List.reverse_append, List.reverse_reverse, List.rtakeWhile]

end ElementWrapper.Utf8
