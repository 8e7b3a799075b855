import Zeroconf.Text.Ascii

/-!
This module contains the proof that a text spelled by ASCII bytes has just these bytes.
-/

namespace Zeroconf.Ascii

theorem forall_byte {p : UInt8 → Prop} (h : ∀ n < 256, p (UInt8.ofNat n)) (b : UInt8) : p b := by
  have := h b.toNat b.toNat_lt
  rwa [UInt8.ofNat_toNat] at this

theorem toList_loop (array : ByteArray) (place : Nat) (front : List UInt8) :
    ByteArray.toList.loop array place front
      =
    front.reverse ++ array.data.toList.drop place := by
  fun_induction ByteArray.toList.loop array place front with
  | case1 place front h ih =>
    have hplace : place < array.data.toList.length := by simpa using h
    rw [ih, List.drop_eq_getElem_cons hplace]
    simp [ByteArray.get!, h]
  | case2 place front h =>
    have hplace : array.data.toList.length ≤ place := by simpa using h
    rw [List.drop_eq_nil_of_le hplace]
    simp

theorem toList_toByteArray (bytes : List UInt8) : bytes.toByteArray.toList = bytes := by
  unfold ByteArray.toList
  rw [toList_loop]
  simp

theorem bytes_ofList (chars : List Char) :
    bytes (String.ofList chars) = chars.flatMap String.utf8EncodeChar := by
  unfold bytes
  rw [String.toUTF8_eq_toByteArray, String.toByteArray_ofList]
  apply toList_toByteArray

theorem bytes_inj {a b : String} : bytes a = bytes b ↔ a = b := by
  constructor
  . intro h
    unfold bytes ByteArray.toList at h
    rw [toList_loop, toList_loop] at h
    rw [← String.toByteArray_inj, ← String.toUTF8_eq_toByteArray, ← String.toUTF8_eq_toByteArray]
    apply ByteArray.ext
    apply Array.toList_inj.mp
    simpa using h
  . intro h
    rw [h]

theorem toNat_ofNat_toNat (b : UInt8) : (Char.ofNat b.toNat).toNat = b.toNat := by
  have hb := b.toNat_lt
  have hvalid : b.toNat.isValidChar := .inl (by omega)
  unfold Char.ofNat
  rw [dif_pos hvalid]
  rfl

theorem utf8EncodeChar_ofNat {b : UInt8} (h : b < 0x80) :
    String.utf8EncodeChar (Char.ofNat b.toNat) = [b] := by
  have hcode : (Char.ofNat b.toNat).val.toNat = b.toNat := toNat_ofNat_toNat b
  have hb : b.toNat ≤ 127 := by
    have : b.toNat < 128 := h
    omega
  unfold String.utf8EncodeChar
  simp [hcode, hb]

@[simp]
theorem toList_text (bytes : List UInt8) :
    (text bytes).toList = bytes.map fun b => Char.ofNat b.toNat := by
  simp [text]

theorem text_append (front behind : List UInt8) :
    text (front ++ behind) = text front ++ text behind := by
  simp [text]

theorem bytes_text {bytes : List UInt8} (h : ∀ b ∈ bytes, b < 0x80) :
    Ascii.bytes (text bytes) = bytes := by
  unfold text
  rw [bytes_ofList]
  induction bytes with
  | nil => rfl
  | cons b bytes ih =>
    have hb := h b (by simp)
    have hbytes := ih fun c hc => h c (by simp [hc])
    rw [List.map_cons, List.flatMap_cons, utf8EncodeChar_ofNat hb, hbytes]
    rfl

end Zeroconf.Ascii
