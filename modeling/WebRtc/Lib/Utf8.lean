import Mathlib.Data.List.Basic

/-!
# Characters as bytes

`encode` is UTF-8 and `decodeLatin1` reads every byte as the character of that
number. Read back as Latin-1, an encoded text is itself exactly when all its
characters are ASCII.
-/

namespace Utf8

def encode (cs : List Char) : List UInt8 := cs.flatMap String.utf8EncodeChar

def decodeLatin1 (bytes : List UInt8) : List Char := bytes.map fun b => Char.ofNat b.toNat

def IsAscii (c : Char) : Prop := c.toNat < 128

instance (c : Char) : Decidable (IsAscii c) := inferInstanceAs (Decidable (_ < _))

@[simp] theorem encode_nil : encode [] = [] := rfl

@[simp] theorem encode_cons (c : Char) (cs : List Char) :
    encode (c :: cs) = String.utf8EncodeChar c ++ encode cs := rfl

theorem encode_toList (s : String) : encode s.toList = s.toByteArray.data.toList := by
  rw [← String.utf8Encode_toList, List.utf8Encode, List.toList_data_toByteArray]
  rfl

theorem decode_encode (s : String) : String.fromUTF8? ⟨(encode s.toList).toArray⟩ = some s := by
  have hbytes : (⟨(encode s.toList).toArray⟩ : ByteArray) = s.toByteArray := by
    rw [encode_toList]
  rw [hbytes, String.fromUTF8?, dif_pos s.isValidUTF8]
  rfl

-- ---------------------------------------------------------------------------
-- ASCII
-- ---------------------------------------------------------------------------

theorem utf8Size_eq_one_iff {c : Char} : c.utf8Size = 1 ↔ IsAscii c := by
  rw [Char.utf8Size_eq_one_iff, UInt32.le_iff_toNat_le]
  exact Nat.lt_succ_iff.symm

theorem utf8EncodeChar_ascii {c : Char} (h : IsAscii c) :
    String.utf8EncodeChar c = [UInt8.ofNat c.toNat] := by
  have hle : c.val.toNat ≤ 127 := Nat.lt_succ_iff.mp h
  rw [String.utf8EncodeChar]
  exact if_pos hle

theorem length_le_length_encode (cs : List Char) : cs.length ≤ (encode cs).length := by
  induction cs with
  | nil => exact Nat.le_refl 0
  | cons c cs ih =>
    have hpos : 0 < (String.utf8EncodeChar c).length :=
      List.length_pos_iff.mpr String.utf8EncodeChar_ne_nil
    simp only [encode_cons, List.length_append, List.length_cons]
    omega

/-- Only ASCII characters take one byte. -/
theorem length_encode_eq_iff {cs : List Char} :
    (encode cs).length = cs.length ↔ ∀ c ∈ cs, IsAscii c := by
  induction cs with
  | nil => simp
  | cons c cs ih =>
    have hle := length_le_length_encode cs
    have hpos : 0 < (String.utf8EncodeChar c).length :=
      List.length_pos_iff.mpr String.utf8EncodeChar_ne_nil
    have hone : (String.utf8EncodeChar c).length = 1 ↔ IsAscii c := by
      rw [String.length_utf8EncodeChar, utf8Size_eq_one_iff]
    rw [List.forall_mem_cons, ← ih, ← hone, encode_cons, List.length_append, List.length_cons]
    omega

theorem decodeLatin1_ascii {cs : List Char} (h : ∀ c ∈ cs, IsAscii c) :
    decodeLatin1 (encode cs) = cs := by
  induction cs with
  | nil => rfl
  | cons c cs ih =>
    obtain ⟨hc, hcs⟩ := List.forall_mem_cons.mp h
    have hbyte : (UInt8.ofNat c.toNat).toNat = c.toNat :=
      UInt8.toNat_ofNat_of_lt' (Nat.lt_trans hc (by decide))
    rw [encode_cons, utf8EncodeChar_ascii hc, decodeLatin1, List.singleton_append, List.map_cons,
      hbyte, Char.ofNat_toNat]
    exact congrArg (c :: ·) (ih hcs)

theorem decodeLatin1_encode_iff {cs : List Char} :
    decodeLatin1 (encode cs) = cs ↔ ∀ c ∈ cs, IsAscii c := by
  refine ⟨fun h => length_encode_eq_iff.mp ?_, decodeLatin1_ascii⟩
  simpa only [decodeLatin1, List.length_map] using congrArg List.length h

theorem toNat_ofNat_toNat (b : UInt8) : (Char.ofNat b.toNat).toNat = b.toNat := by
  have hlt := b.toNat_lt
  have hvalid : b.toNat.isValidChar := .inl (by omega)
  rw [Char.ofNat, dif_pos hvalid]
  rfl

theorem encode_decodeLatin1_ascii {bytes : List UInt8} (h : ∀ b ∈ bytes, b.toNat < 128) :
    encode (decodeLatin1 bytes) = bytes := by
  induction bytes with
  | nil => rfl
  | cons b bytes ih =>
    obtain ⟨hb, hbytes⟩ := List.forall_mem_cons.mp h
    have hchar : (Char.ofNat b.toNat).toNat = b.toNat := toNat_ofNat_toNat b
    have hascii : IsAscii (Char.ofNat b.toNat) := by rw [IsAscii, hchar]; exact hb
    rw [decodeLatin1, List.map_cons, encode_cons, utf8EncodeChar_ascii hascii, hchar,
      UInt8.ofNat_toNat]
    exact congrArg (b :: ·) (ih hbytes)

/-- The other way round: bytes read as Latin-1 and encoded. -/
theorem encode_decodeLatin1_iff {bytes : List UInt8} :
    encode (decodeLatin1 bytes) = bytes ↔ ∀ b ∈ bytes, b.toNat < 128 := by
  refine ⟨fun h b hb => ?_, encode_decodeLatin1_ascii⟩
  have hlength : (encode (decodeLatin1 bytes)).length = (decodeLatin1 bytes).length := by
    rw [h, decodeLatin1, List.length_map]
  have hascii := length_encode_eq_iff.mp hlength (Char.ofNat b.toNat) (List.mem_map_of_mem hb)
  rwa [IsAscii, toNat_ofNat_toNat] at hascii

-- ---------------------------------------------------------------------------
-- NUL
-- ---------------------------------------------------------------------------

/-- No byte of a longer encoding is NUL. -/
theorem zero_mem_utf8EncodeChar {c : Char} : 0 ∈ String.utf8EncodeChar c ↔ c.toNat = 0 := by
  have hval : c.val.toNat = c.toNat := rfl
  fun_cases String.utf8EncodeChar c with
  | case1 v h =>
    simp only [List.mem_singleton, ← UInt8.toNat_inj]
    rw [UInt8.toNat_ofNat_of_lt' (Nat.lt_of_le_of_lt h (by decide))]
    simp [v, eq_comm]
  | case2 | case3 | case4 =>
    simp only [List.mem_cons, List.not_mem_nil, or_false, ← UInt8.toNat_inj]
    simp
    omega

theorem zero_mem_encode {cs : List Char} : 0 ∈ encode cs ↔ '\x00' ∈ cs := by
  simp only [encode, List.mem_flatMap, zero_mem_utf8EncodeChar]
  constructor
  · rintro ⟨c, hc, hzero⟩
    have : c = '\x00' := Char.ext (UInt32.toNat_inj.mp hzero)
    exact this ▸ hc
  · exact fun h => ⟨_, h, rfl⟩

end Utf8
