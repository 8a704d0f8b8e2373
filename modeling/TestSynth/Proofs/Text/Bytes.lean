import Mathlib
import TestSynth.Text.Classes
import TestSynth.Text.Utf8
/-!
The bytes of a text in UTF-8. An ASCII character is one byte of its own value and no byte of any
other character has such a value, so what is looked for in ASCII is found alike in characters and
in bytes. Texts in ASCII are read back from their bytes.
-/
namespace TestSynth.Text

open String (utf8EncodeChar)

variable {c : Char} {sep b : UInt8} {cs : List Char}

theorem toList_byteArray (bytes : ByteArray) : bytes.toList = bytes.data.toList := by
  have hloop : ∀ (i : Nat) (read : List UInt8),
      ByteArray.toList.loop bytes i read = read.reverse ++ bytes.data.toList.drop i := by
    intro i read
    fun_induction ByteArray.toList.loop bytes i read with
    | case1 i read hi ih =>
      have hlength : i < bytes.data.toList.length := by simpa using hi
      have hget : bytes.get! i = bytes.data.toList[i] := by
        rw [ByteArray.get!, getElem!_pos bytes.data i hi, Array.getElem_toList]
      rw [ih, hget, List.drop_eq_getElem_cons hlength]
      simp
    | case2 i read hi =>
      have hlength : bytes.data.toList.length ≤ i := by simpa using hi
      rw [List.drop_of_length_le hlength, List.append_nil]
  rw [ByteArray.toList, hloop]
  simp

theorem encode_eq (s : String) : encode s = s.toList.flatMap utf8EncodeChar := by
  rw [encode, toList_byteArray, String.toUTF8_eq_toByteArray, ← String.utf8Encode_toList,
    List.utf8Encode]
  simp

@[simp]
theorem encode_empty : encode "" = [] := by
  simp [encode_eq]

@[simp]
theorem encode_cons (c : Char) (cs : List Char) :
    encode (String.ofList (c :: cs)) = utf8EncodeChar c ++ encode (String.ofList cs) := by
  rw [encode_eq, encode_eq]
  simp

@[simp]
theorem encode_append (a b : List Char) :
    encode (String.ofList (a ++ b)) = encode (String.ofList a) ++ encode (String.ofList b) := by
  rw [encode_eq, encode_eq, encode_eq]
  simp

theorem length_encode (cs : List Char) : (encode (String.ofList cs)).length = byteLength cs := by
  have hsum : ∀ n, cs.foldl (fun n c => n + c.utf8Size) n =
      n + (encode (String.ofList cs)).length := by
    induction cs with
    | nil => simp
    | cons c cs ih =>
      intro n
      rw [List.foldl_cons, ih, encode_cons, List.length_append, String.length_utf8EncodeChar,
        Nat.add_assoc]
  rw [byteLength, hsum, Nat.zero_add]

/-- A character of ASCII. -/
def IsAscii (c : Char) : Prop := c.toNat < 0x80

theorem utf8EncodeChar_of_isAscii (h : IsAscii c) : utf8EncodeChar c = [UInt8.ofNat c.toNat] := by
  rw [utf8EncodeChar]
  exact if_pos (Nat.le_of_lt_succ h)

/-- The bytes of other characters have the highest bit. -/
theorem le_of_mem_utf8EncodeChar (h : ¬ IsAscii c) (hb : b ∈ utf8EncodeChar c) :
    0x80 ≤ b.toNat := by
  have hlow : ¬ c.val.toNat ≤ 0x7f := fun hle => h (Nat.lt_succ_of_le hle)
  rw [utf8EncodeChar] at hb
  simp only [hlow, if_false] at hb
  split at hb
  · simp only [List.mem_cons, List.not_mem_nil, or_false] at hb
    rcases hb with rfl | rfl <;> rw [UInt8.toNat_ofNat'] <;> omega
  · split at hb
    · simp only [List.mem_cons, List.not_mem_nil, or_false] at hb
      rcases hb with rfl | rfl | rfl <;> rw [UInt8.toNat_ofNat'] <;> omega
    · simp only [List.mem_cons, List.not_mem_nil, or_false] at hb
      rcases hb with rfl | rfl | rfl | rfl <;> rw [UInt8.toNat_ofNat'] <;> omega

theorem toNat_ofNat (h : sep < 0x80) : (Char.ofNat sep.toNat).toNat = sep.toNat := by
  have hsep : sep.toNat < 0x80 := h
  have hvalid : sep.toNat.isValidChar := .inl (by omega)
  rw [Char.ofNat, dif_pos hvalid]
  rfl

/-- An ASCII byte stands at the front of its own character alone. -/
theorem head?_utf8EncodeChar (h : sep < 0x80) :
    (utf8EncodeChar c).head? = some sep ↔ c = Char.ofNat sep.toNat := by
  have hsep : sep.toNat < 0x80 := h
  constructor
  · intro hhead
    by_cases hc : IsAscii c
    · rw [utf8EncodeChar_of_isAscii hc, List.head?_cons, Option.some.injEq] at hhead
      have hlow : c.toNat < 0x80 := hc
      rw [← hhead, UInt8.toNat_ofNat', Nat.mod_eq_of_lt (by omega), Char.ofNat_toNat]
    · have hhigh := le_of_mem_utf8EncodeChar hc (List.mem_of_mem_head? hhead)
      omega
  · rintro rfl
    have hascii : IsAscii (Char.ofNat sep.toNat) := by
      rw [IsAscii, toNat_ofNat h]
      exact hsep
    rw [utf8EncodeChar_of_isAscii hascii, toNat_ofNat h, List.head?_cons, UInt8.ofNat_toNat]

/-- An ASCII byte stands in its own character alone. -/
theorem ne_of_mem_utf8EncodeChar (h : sep < 0x80) (hc : c ≠ Char.ofNat sep.toNat)
    (hb : b ∈ utf8EncodeChar c) : b ≠ sep := by
  rintro rfl
  have hlow : b.toNat < 0x80 := h
  by_cases hascii : IsAscii c
  · rw [utf8EncodeChar_of_isAscii hascii] at hb
    apply hc
    rw [← head?_utf8EncodeChar h, utf8EncodeChar_of_isAscii hascii, List.mem_singleton.1 hb]
    rfl
  · have hhigh := le_of_mem_utf8EncodeChar hascii hb
    omega

/-- Where an ASCII byte stands, its character starts. -/
theorem exists_of_getElem?_encode {i : Nat} (h : sep < 0x80)
    (hbyte : (encode (String.ofList cs))[i]? = some sep) :
    ∃ k, i = byteLength (cs.take k) ∧ cs[k]? = some (Char.ofNat sep.toNat) := by
  simp only [← length_encode]
  induction cs generalizing i with
  | nil => simp at hbyte
  | cons c cs ih =>
    rw [encode_cons] at hbyte
    by_cases hi : i < (utf8EncodeChar c).length
    · rw [List.getElem?_append_left hi] at hbyte
      have hascii : IsAscii c := by
        by_contra hc
        have hhigh := le_of_mem_utf8EncodeChar hc (List.mem_of_getElem? hbyte)
        have hlow : sep.toNat < 0x80 := h
        omega
      have hsingle := utf8EncodeChar_of_isAscii hascii
      rw [hsingle, List.length_singleton, Nat.lt_one_iff] at hi
      subst hi
      refine ⟨0, by simp, ?_⟩
      have hhead : (utf8EncodeChar c).head? = some sep := by
        rw [List.head?_eq_getElem?, hbyte]
      rw [List.getElem?_cons_zero, (head?_utf8EncodeChar h).1 hhead]
    · have hlength := Nat.le_of_not_lt hi
      rw [List.getElem?_append_right hlength] at hbyte
      obtain ⟨k, hk, hchar⟩ := ih hbyte
      refine ⟨k + 1, ?_, by rwa [List.getElem?_cons_succ]⟩
      rw [List.take_succ_cons, encode_cons, List.length_append]
      omega

theorem encode_of_isAscii (h : ∀ c ∈ cs, IsAscii c) :
    encode (String.ofList cs) = cs.map fun c => UInt8.ofNat c.toNat := by
  induction cs with
  | nil => simp
  | cons c cs ih =>
    rw [List.forall_mem_cons] at h
    rw [encode_cons, List.map_cons, ih h.2, utf8EncodeChar_of_isAscii h.1]
    rfl

/-- The bytes of an ASCII text are read as that text. -/
theorem decodeStrict?_of_isAscii (h : ∀ c ∈ cs, IsAscii c) :
    decodeStrict? (encode (String.ofList cs)) = some (String.ofList cs) := by
  have hdecode : decode (encode (String.ofList cs)) = String.ofList cs := by
    rw [encode_of_isAscii h, decode]
    congr 1
    induction cs with
    | nil => rfl
    | cons c cs ih =>
      rw [List.forall_mem_cons] at h
      have hc : c.toNat < 0x80 := h.1
      have hbyte : (UInt8.ofNat c.toNat).toNat = c.toNat := by
        rw [UInt8.toNat_ofNat']
        omega
      have hlead : leadByte (UInt8.ofNat c.toNat) = .inl c := by
        rw [leadByte, if_pos (UInt8.lt_iff_toNat_lt.2 (hbyte.symm ▸ hc)), hbyte, Char.ofNat_toNat]
      rw [List.map_cons, decodeFrom, hlead, ih h.2]
  rw [decodeStrict?, hdecode]
  simp

end TestSynth.Text
