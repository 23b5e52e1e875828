/-!
# The bytes of a string

The UTF-8 bytes of a string as a list, character by character, and what
occurs in the decimal text of a number.
-/

namespace Utf8

/-- `ByteArray.toList` reads from the front. -/
theorem toList_loop (b : ByteArray) (i : Nat) (acc : List UInt8) :
    ByteArray.toList.loop b i acc = acc.reverse ++ b.data.toList.drop i := by
  induction hn : b.size - i generalizing i acc with
  | zero =>
      have hi : ¬ i < b.size := by omega
      have hlen : b.data.toList.length ≤ i := by
        simpa using Nat.le_of_not_lt hi
      unfold ByteArray.toList.loop
      rw [if_neg hi, List.drop_of_length_le hlen, List.append_nil]
  | succ n ih =>
      have hi : i < b.size := by omega
      have hlen : i < b.data.toList.length := by simpa using hi
      unfold ByteArray.toList.loop
      rw [if_pos hi, ih _ _ (by omega), List.drop_eq_getElem_cons hlen,
        List.reverse_cons, List.append_assoc]
      simp [ByteArray.get!, hi]

theorem toList_toUTF8 (s : String) :
    s.toUTF8.toList = s.toList.flatMap String.utf8EncodeChar := by
  have htoList : s.toByteArray.toList = s.toByteArray.data.toList := by
    rw [ByteArray.toList, toList_loop]
    exact List.nil_append _
  rw [String.toUTF8_eq_toByteArray, htoList, ← String.utf8Encode_toList,
    List.utf8Encode, List.toList_data_toByteArray]

/-- A byte of an ASCII character is its code. -/
theorem mem_toUTF8 {s : String} {b : UInt8}
    (hascii : ∀ c ∈ s.toList, c.utf8Size = 1) (h : b ∈ s.toUTF8.toList) :
    ∃ c ∈ s.toList, b = c.val.toUInt8 := by
  rw [toList_toUTF8, List.mem_flatMap] at h
  obtain ⟨c, hc, hb⟩ := h
  rw [String.utf8EncodeChar_eq_singleton (hascii c hc)] at hb
  exact ⟨c, hc, List.mem_singleton.mp hb⟩

/-- The characters of a decimal number. -/
theorem mem_toString_int {n : Int} {c : Char} (h : c ∈ (toString n).toList) :
    c.isDigit = true ∨ c = '-' := by
  have hdigits : ∀ m : Nat, c ∈ m.repr.toList → c.isDigit = true := by
    intro m hm
    rw [Nat.toList_repr] at hm
    exact Nat.isDigit_of_mem_toDigits (by decide) (by decide) hm
  cases n with
  | ofNat m => exact Or.inl (hdigits m h)
  | negSucc m =>
      have h' : c ∈ ("-" ++ (m + 1).repr).toList := h
      rw [String.toList_append, List.mem_append] at h'
      rcases h' with h' | h'
      · exact Or.inr (by simpa using h')
      · exact Or.inl (hdigits (m + 1) h')

/-- The bytes of a decimal number are those of digits and the minus sign. -/
theorem mem_toUTF8_int {n : Int} {b : UInt8}
    (h : b ∈ (toString n).toUTF8.toList) :
    b = 45 ∨ 48 ≤ b ∧ b ≤ 57 := by
  have hdigit : ∀ c : Char, c.isDigit = true →
      48 ≤ c.val ∧ c.val ≤ 57 := by
    intro c hc
    simpa [Char.isDigit] using hc
  have hascii : ∀ c ∈ (toString n).toList, c.utf8Size = 1 := by
    intro c hc
    rcases mem_toString_int hc with hc | rfl
    · have hle : c.val ≤ 127 := UInt32.le_trans (hdigit c hc).2 (by decide)
      simp [Char.utf8Size, hle]
    · rfl
  obtain ⟨c, hc, rfl⟩ := mem_toUTF8 hascii h
  rcases mem_toString_int hc with hc | rfl
  · obtain ⟨hlow, hhigh⟩ := hdigit c hc
    refine Or.inr ⟨?_, ?_⟩
    · rw [UInt32.le_iff_toNat_le] at hlow hhigh
      rw [UInt8.le_iff_toNat_le, UInt32.toNat_toUInt8]
      simp at hlow hhigh ⊢
      omega
    · rw [UInt32.le_iff_toNat_le] at hlow hhigh
      rw [UInt8.le_iff_toNat_le, UInt32.toNat_toUInt8]
      simp at hlow hhigh ⊢
      omega
  · exact Or.inl rfl

end Utf8
