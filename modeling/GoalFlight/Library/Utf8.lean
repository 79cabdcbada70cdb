import Mathlib.Data.List.Basic
import Mathlib.Tactic.Common

/-!
# UTF-8

Texts as bytes.  Encoding and decoding are the ones of the language; what is added is how
an encoded text can be cut at an ASCII byte (`decode_append_ascii`), and that an ASCII byte
stands for itself only.
-/

namespace Utf8

variable {b : UInt8} {text : List Char}

/-- A sequence of bytes. -/
abbrev Bytes := List UInt8

variable {rest : Bytes}

/-- `str.encode("utf-8")`. -/
def encode (text : List Char) : Bytes := text.flatMap String.utf8EncodeChar

/-- `bytes.decode("utf-8")`. -/
def decode (bytes : Bytes) : Option (List Char) :=
  bytes.toByteArray.utf8Decode?.map Array.toList

@[simp] theorem encode_nil : encode [] = [] := rfl

theorem encode_cons (c : Char) (text : List Char) :
    encode (c :: text) = String.utf8EncodeChar c ++ encode text := rfl

theorem encode_append (text rest : List Char) :
    encode (text ++ rest) = encode text ++ encode rest :=
  List.flatMap_append

theorem toByteArray_encode (text : List Char) : (encode text).toByteArray = text.utf8Encode := rfl

@[simp] theorem decode_encode (text : List Char) : decode (encode text) = some text := by
  unfold decode
  rw [toByteArray_encode, List.utf8Decode?_utf8Encode]
  rfl

theorem encode_of_decode {bytes : Bytes} (h : decode bytes = some text) :
    bytes = encode text := by
  unfold decode at h
  obtain ⟨chars, hchars, rfl⟩ := Option.map_eq_some_iff.mp h
  obtain ⟨text, htext⟩ := ByteArray.isSome_utf8Decode?_iff.mp (Option.isSome_of_eq_some hchars)
  have hsame : bytes = encode text := by
    have hdata := congrArg (fun b : ByteArray => b.data.toList) htext
    rw [← toByteArray_encode] at hdata
    simpa using hdata
  rw [hsame, toByteArray_encode, List.utf8Decode?_utf8Encode] at hchars
  rw [hsame, ← Option.some.inj hchars]

/-! ### ASCII -/

theorem utf8EncodeChar_ascii {c : Char} (h : c.toNat < 128) :
    String.utf8EncodeChar c = [UInt8.ofNat c.toNat] := by
  have hle : c.val.toNat ≤ 127 := by
    have hval : c.val.toNat = c.toNat := rfl
    omega
  unfold String.utf8EncodeChar
  rw [if_pos hle]
  rfl

theorem le_of_mem_utf8EncodeChar {c : Char} (h : 128 ≤ c.toNat)
    (hb : b ∈ String.utf8EncodeChar c) : 128 ≤ b.toNat := by
  have hgt : ¬ c.val.toNat ≤ 127 := by
    have hval : c.val.toNat = c.toNat := rfl
    omega
  have hbound : ∀ n, 128 ≤ n → n < 256 → 128 ≤ (UInt8.ofNat n).toNat := by
    intro n hlow hhigh
    rw [UInt8.toNat_ofNat_of_lt' hhigh]
    exact hlow
  unfold String.utf8EncodeChar at hb
  simp only at hb
  rw [if_neg hgt] at hb
  split at hb
  · rcases List.mem_cons.mp hb with rfl | hb
    · exact hbound _ (by omega) (by omega)
    rw [List.mem_singleton.mp hb]
    exact hbound _ (by omega) (by omega)
  split at hb
  · rcases List.mem_cons.mp hb with rfl | hb
    · exact hbound _ (by omega) (by omega)
    rcases List.mem_cons.mp hb with rfl | hb
    · exact hbound _ (by omega) (by omega)
    rw [List.mem_singleton.mp hb]
    exact hbound _ (by omega) (by omega)
  · rcases List.mem_cons.mp hb with rfl | hb
    · exact hbound _ (by omega) (by omega)
    rcases List.mem_cons.mp hb with rfl | hb
    · exact hbound _ (by omega) (by omega)
    rcases List.mem_cons.mp hb with rfl | hb
    · exact hbound _ (by omega) (by omega)
    rw [List.mem_singleton.mp hb]
    exact hbound _ (by omega) (by omega)

theorem mem_of_ascii_mem_encode (hb : b ∈ encode text) (hascii : b.toNat < 128) :
    ∃ c ∈ text, c.toNat = b.toNat := by
  obtain ⟨c, hc, hbyte⟩ := List.mem_flatMap.mp hb
  by_cases hwide : 128 ≤ c.toNat
  · exact absurd hascii (Nat.not_lt.mpr (le_of_mem_utf8EncodeChar hwide hbyte))
  · refine ⟨c, hc, ?_⟩
    rw [utf8EncodeChar_ascii (Nat.not_le.mp hwide), List.mem_singleton] at hbyte
    have hsize : c.toNat < UInt8.size := Nat.lt_trans (Nat.not_le.mp hwide) (by decide)
    rw [hbyte, UInt8.toNat_ofNat_of_lt' hsize]

theorem isUTF8FirstByte_of_ascii (hascii : b.toNat < 128) : b.IsUTF8FirstByte := by
  have hall : ∀ n < 128, UInt8.ofNat n &&& 0x80 = 0 := by decide
  have hb := hall b.toNat hascii
  rw [UInt8.ofNat_toNat] at hb
  exact .inl hb

/-- **Cut at a first byte.**  When bytes that start as a character does stand after others and all
of them are an encoded text, both parts are. -/
theorem exists_of_encode_eq_append {a : Bytes} (hfirst : b.IsUTF8FirstByte)
    (h : encode text = a ++ b :: rest) :
    ∃ before after, text = before ++ after ∧ a = encode before ∧ b :: rest = encode after := by
  induction text generalizing a with
  | nil => simp at h
  | cons c text ih =>
    rw [encode_cons] at h
    rcases List.append_eq_append_iff.mp h with ⟨a', rfl, hrest⟩ | ⟨c', hc, hrest⟩
    · -- The cut is behind the first character.
      obtain ⟨before, after, rfl, rfl, hafter⟩ := ih hrest
      exact ⟨c :: before, after, rfl, rfl, hafter⟩
    · cases c' with
      | nil =>
        rw [List.append_nil] at hc
        rw [List.nil_append] at hrest
        refine ⟨[c], text, rfl, ?_, hrest⟩
        rw [← hc, encode_cons, encode_nil, List.append_nil]
      | cons d c' =>
        -- The cut is inside the first character or before it.
        rw [List.cons_append, List.cons.injEq] at hrest
        obtain ⟨rfl, -⟩ := hrest
        have hlt : a.length < (String.utf8EncodeChar c).length := by simp [hc]
        have hget : (String.utf8EncodeChar c)[a.length] = b := by simp [hc]
        have hzero := UInt8.isUTF8FirstByte_getElem_utf8EncodeChar.mp (hget.symm ▸ hfirst)
        obtain rfl := List.length_eq_zero_iff.mp hzero
        exact ⟨[], c :: text, rfl, rfl, h.symm⟩

theorem decode_append_ascii {a : Bytes} (hascii : b.toNat < 128)
    (h : decode (a ++ b :: rest) = some text) :
    ∃ before after, text = before ++ after ∧ a = encode before ∧ b :: rest = encode after :=
  exists_of_encode_eq_append (isUTF8FirstByte_of_ascii hascii) (encode_of_decode h).symm

theorem encode_inj {text' : List Char} (h : encode text = encode text') : text = text' := by
  have hdecode := congrArg decode h
  rw [decode_encode, decode_encode] at hdecode
  exact Option.some.inj hdecode

theorem exists_of_encode_append {before : List Char}
    (h : encode before ++ rest = encode text) : ∃ after, text = before ++ after := by
  have hbytes : before.utf8Encode ++ rest.toByteArray = text.utf8Encode := by
    rw [← toByteArray_encode, ← toByteArray_encode, ← h]
    simp
  obtain ⟨after, hafter⟩ := List.isPrefix_of_utf8Encode_append_eq_utf8Encode _ hbytes
  exact ⟨after, hafter.symm⟩

/-- **An encoded text inside another** is a part of it. -/
theorem exists_of_encode_infix {a : Bytes} {part : List Char} (hne : part ≠ [])
    (h : encode text = a ++ (encode part ++ rest)) :
    ∃ before after, text = before ++ (part ++ after) ∧ a = encode before ∧ rest = encode after := by
  obtain ⟨c, part, rfl⟩ := List.exists_cons_of_ne_nil hne
  obtain ⟨b, bytes, hbytes⟩ := List.exists_cons_of_ne_nil (String.utf8EncodeChar_ne_nil (c := c))
  have hfirst : b.IsUTF8FirstByte := by
    have hpos : 0 < (String.utf8EncodeChar c).length := by simp [hbytes]
    have hget : (String.utf8EncodeChar c)[0] = b := by simp [hbytes]
    exact hget ▸ UInt8.isUTF8FirstByte_getElem_utf8EncodeChar.mpr rfl
  have hcut := h
  rw [encode_cons, hbytes, List.cons_append, List.cons_append] at hcut
  obtain ⟨before, behind, rfl, rfl, hbehind⟩ := exists_of_encode_eq_append hfirst hcut
  rw [encode_append, List.append_cancel_left_eq] at h
  obtain ⟨after, rfl⟩ := exists_of_encode_append h.symm
  rw [encode_append, List.append_cancel_left_eq] at h
  exact ⟨before, after, rfl, rfl, h.symm⟩

end Utf8
