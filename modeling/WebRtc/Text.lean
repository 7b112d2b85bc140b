import WebRtc.Engine
import WebRtc.Lib.Utf8
import Mathlib.Data.List.TakeWhile

/-!
# Text on its way to the library and back

The plugin hands a `String` over as `utf8().get_data()` and reads one back with
`String(const char *)`.
-/

namespace WebRtc

theorem utf8_eq (s : String) : utf8 s = Utf8.encode s.toList := (Utf8.encode_toList s).symm

theorem cString_of_not_mem (h : 0 ∉ bytes) : cString bytes = bytes := by
  rw [cString, List.takeWhile_eq_self_iff]
  intro b hb
  simpa using ne_of_mem_of_not_mem hb h

theorem not_mem_cString (bytes : Bytes) : 0 ∉ cString bytes := by
  intro h
  simpa using List.mem_takeWhile_imp h

theorem cString_cString (bytes : Bytes) : cString (cString bytes) = cString bytes :=
  cString_of_not_mem (not_mem_cString bytes)

theorem zero_mem_utf8 {s : String} : 0 ∈ utf8 s ↔ '\x00' ∈ s.toList := by
  rw [utf8_eq, Utf8.zero_mem_encode]

theorem cString_utf8 {s : String} (h : '\x00' ∉ s.toList) : cString (utf8 s) = utf8 s :=
  cString_of_not_mem (zero_mem_utf8.not.mpr h)

/-- A text comes back as it was, in the GDNative bindings always and in
godot-cpp exactly when it is ASCII. -/
theorem stringOfCString_utf8_iff {s : String} (h : '\x00' ∉ s.toList) :
    stringOfCString build (cString (utf8 s)) = s ↔
      build = .gdnative ∨ ∀ c ∈ s.toList, Utf8.IsAscii c := by
  cases build with
  | gdextension =>
    rw [stringOfCString, cString_cString, cString_utf8 h, utf8_eq, ← Utf8.decodeLatin1_encode_iff,
      ← String.toList_inj, String.toList_ofList]
    simp [Utf8.decodeLatin1]
  | gdnative =>
    rw [stringOfCString, cString_cString, cString_utf8 h, utf8_eq, Utf8.decode_encode]
    simp

-- ---------------------------------------------------------------------------
-- Bytes of the library
-- ---------------------------------------------------------------------------

/-- Bytes that are themselves again once they have been a `String`. -/
def Transparent : Build → Bytes → Prop
  | .gdextension, bytes => ∀ b ∈ bytes, b ≠ 0 ∧ b.toNat < 128
  | .gdnative, bytes => 0 ∉ bytes ∧ ∃ s, utf8 s = bytes

theorem utf8_of_fromUTF8? (h : String.fromUTF8? ⟨bytes.toArray⟩ = some s) : utf8 s = bytes := by
  rw [String.fromUTF8?] at h
  split at h
  · cases h
    rfl
  · cases h

/-- ASCII texts without a NUL pass in both builds. -/
theorem Transparent.of_ascii (h : ∀ b ∈ bytes, b ≠ 0 ∧ b.toNat < 128) (build : Build) :
    Transparent build bytes := by
  cases build with
  | gdextension => exact h
  | gdnative =>
    refine ⟨fun hzero => (h 0 hzero).1 rfl, String.ofList (Utf8.decodeLatin1 bytes), ?_⟩
    rw [utf8_eq, String.toList_ofList, Utf8.encode_decodeLatin1_ascii fun b hb => (h b hb).2]

theorem utf8_stringOfCString_gdextension (h : 0 ∉ bytes) :
    utf8 (stringOfCString .gdextension bytes) = Utf8.encode (Utf8.decodeLatin1 bytes) := by
  rw [stringOfCString, cString_of_not_mem h, utf8_eq, String.toList_ofList]
  rfl

theorem fromUTF8?_utf8 (s : String) : String.fromUTF8? ⟨(utf8 s).toArray⟩ = some s := by
  rw [utf8_eq]
  exact Utf8.decode_encode s

theorem cString_utf8_stringOfCString_iff :
    cString (utf8 (stringOfCString build bytes)) = bytes ↔ Transparent build bytes := by
  by_cases hzero : 0 ∈ bytes
  · refine iff_of_false (fun h => not_mem_cString _ (h ▸ hzero)) ?_
    cases build with
    | gdextension => exact fun h => (h 0 hzero).1 rfl
    | gdnative => exact fun h => h.1 hzero
  · cases build with
    | gdextension =>
      have hne : ∀ b ∈ bytes, b ≠ 0 := fun b hb => ne_of_mem_of_not_mem hb hzero
      have hnul : 0 ∉ Utf8.encode (Utf8.decodeLatin1 bytes) := by
        rw [Utf8.zero_mem_encode]
        intro hmem
        obtain ⟨b, hb, hchar⟩ := List.mem_map.mp hmem
        have hnat := congrArg Char.toNat hchar
        rw [Utf8.toNat_ofNat_toNat] at hnat
        exact hne b hb (UInt8.toNat_inj.mp hnat)
      rw [utf8_stringOfCString_gdextension hzero, cString_of_not_mem hnul,
        Utf8.encode_decodeLatin1_iff]
      exact forall₂_congr fun b hb => (and_iff_right (hne b hb)).symm
    | gdnative =>
      rw [stringOfCString, cString_of_not_mem hzero, Transparent, and_iff_right hzero]
      cases hs : String.fromUTF8? ⟨bytes.toArray⟩ with
      | some s =>
        have hbytes : utf8 s = bytes := utf8_of_fromUTF8? hs
        rw [Option.getD_some, hbytes, cString_of_not_mem hzero]
        exact iff_of_true rfl ⟨s, hbytes⟩
      | none =>
        refine ⟨fun h => ⟨"", h⟩, ?_⟩
        rintro ⟨s, rfl⟩
        rw [fromUTF8?_utf8] at hs
        cases hs

end WebRtc
