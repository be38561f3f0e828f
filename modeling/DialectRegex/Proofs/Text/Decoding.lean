import DialectRegex.Proofs.Text.Characters
import DialectRegex.Text.Utf8

namespace DialectRegex.Text

theorem decode_append (p : Option Partial) (as bs : List UInt8) :
    decode p (as ++ bs) =
      ((decode p as).1 ++ (decode (decode p as).2 bs).1, (decode (decode p as).2 bs).2) := by
  induction as generalizing p with
  | nil => rfl
  | cons a as ih => simp [decode, ih]

theorem leadByte_one : ∀ k < 128, leadByte (UInt8.ofNat k) = ([Char.ofNat k], none) := by decide

theorem leadByte_two : ∀ k < 32, 2 ≤ k → leadByte (UInt8.ofNat (k + 192)) = ([], some ⟨1, 0x80, 0xbf, k⟩) := by
  decide

theorem leadByte_three : ∀ k < 16, leadByte (UInt8.ofNat (k + 224)) =
    ([], some ⟨2, if k = 0 then 0xa0 else 0x80, if k = 13 then 0x9f else 0xbf, k⟩) := by
  decide

theorem leadByte_four : ∀ k < 5, leadByte (UInt8.ofNat (k + 240)) =
    ([], some ⟨3, if k = 0 then 0x90 else 0x80, if k = 4 then 0x8f else 0xbf, k⟩) := by
  decide

theorem decodeByte_last {low high : UInt8} {x : Nat} (hx : x < 64) (hl : low.toNat ≤ x + 128)
    (hh : x + 128 ≤ high.toNat) (v : Nat) :
    decodeByte (some ⟨1, low, high, v⟩) (UInt8.ofNat (x + 128)) = ([Char.ofNat (v * 64 + x)], none) := by
  have hb : (UInt8.ofNat (x + 128)).toNat = x + 128 := by
    rw [UInt8.toNat_ofNat']
    omega
  rw [decodeByte, if_pos, hb, Nat.add_sub_cancel, if_pos (Nat.le_refl 1)]
  rw [UInt8.le_iff_toNat_le, UInt8.le_iff_toNat_le, hb]
  exact ⟨hl, hh⟩

theorem decodeByte_more {low high : UInt8} {x : Nat} (hx : x < 64) (hl : low.toNat ≤ x + 128)
    (hh : x + 128 ≤ high.toNat) (n v : Nat) :
    decodeByte (some ⟨n + 2, low, high, v⟩) (UInt8.ofNat (x + 128)) =
      ([], some ⟨n + 1, 0x80, 0xbf, v * 64 + x⟩) := by
  have hb : (UInt8.ofNat (x + 128)).toNat = x + 128 := by
    rw [UInt8.toNat_ofNat']
    omega
  rw [decodeByte, if_pos, hb, Nat.add_sub_cancel, if_neg (by simp)]
  · rfl
  rw [UInt8.le_iff_toNat_le, UInt8.le_iff_toNat_le, hb]
  exact ⟨hl, hh⟩

@[simp] theorem decodeByte_none (b : UInt8) : decodeByte none b = leadByte b := rfl

theorem decode_utf8EncodeChar (c : Char) : decode none (String.utf8EncodeChar c) = ([c], none) := by
  have hc : Char.ofNat c.val.toNat = c := Char.ofNat_toNat c
  have hvalid := c.valid
  rw [UInt32.isValidChar, Nat.isValidChar] at hvalid
  rw [String.utf8EncodeChar]
  generalize c.val.toNat = v at hc hvalid ⊢
  have hmod (k : Nat) : k % 64 < 64 := Nat.mod_lt k (by decide)
  have hlow (k : Nat) : (0x80 : UInt8).toNat ≤ k % 64 + 128 := Nat.le_add_left 128 (k % 64)
  have hhigh (k : Nat) : k % 64 + 128 ≤ (0xbf : UInt8).toNat := Nat.add_le_add_right (Nat.le_of_lt_succ (hmod k)) 128
  split
  · simp [decode, leadByte_one v (by omega), hc]
  split
  · have hv : v / 64 % 32 * 64 + v % 64 = v := by omega
    have hlead := leadByte_two (v / 64 % 32) (by omega) (by omega)
    simp only [decode, decodeByte_none, hlead, decodeByte_last (hmod v) (hlow v) (hhigh v), hv, hc, List.nil_append,
      List.append_nil]
  split
  · have hv : (v / 4096 % 16 * 64 + v / 64 % 64) * 64 + v % 64 = v := by omega
    have hlead := leadByte_three (v / 4096 % 16) (by omega)
    -- The byte after the first one tells overlong forms and surrogates from characters.
    have hfrom : (if v / 4096 % 16 = 0 then 0xa0 else 0x80 : UInt8).toNat ≤ v / 64 % 64 + 128 := by
      split <;> simp
      omega
    have hto : v / 64 % 64 + 128 ≤ (if v / 4096 % 16 = 13 then 0x9f else 0xbf : UInt8).toNat := by
      split <;> simp <;> omega
    have hsecond := decodeByte_more (hmod (v / 64)) hfrom hto 0
    simp only [decode, decodeByte_none, hlead, hsecond, decodeByte_last (hmod v) (hlow v) (hhigh v), hv, hc,
      List.nil_append, List.append_nil]
  · have hv : ((v / 262144 % 8 * 64 + v / 4096 % 64) * 64 + v / 64 % 64) * 64 + v % 64 = v := by omega
    have hlead := leadByte_four (v / 262144 % 8) (by omega)
    have hfrom : (if v / 262144 % 8 = 0 then 0x90 else 0x80 : UInt8).toNat ≤ v / 4096 % 64 + 128 := by
      split <;> simp
      omega
    have hto : v / 4096 % 64 + 128 ≤ (if v / 262144 % 8 = 4 then 0x8f else 0xbf : UInt8).toNat := by
      split <;> simp <;> omega
    have hsecond := decodeByte_more (hmod (v / 4096)) hfrom hto 1
    have hthird := decodeByte_more (hmod (v / 64)) (hlow (v / 64)) (hhigh (v / 64)) 0
    simp only [decode, decodeByte_none, hlead, hsecond, hthird, decodeByte_last (hmod v) (hlow v) (hhigh v), hv, hc,
      List.nil_append, List.append_nil]

theorem decode_flatMap (cs : List Char) : decode none (cs.flatMap String.utf8EncodeChar) = (cs, none) := by
  induction cs with
  | nil => rfl
  | cons c cs ih => rw [List.flatMap_cons, decode_append, decode_utf8EncodeChar, ih, List.singleton_append]

theorem decode_toUTF8 (s : String) : decode none s.toUTF8.toList = (s.toList, none) := by
  rw [toList_toUTF8, decode_flatMap]

theorem length_utf8EncodeChar_pos (c : Char) : 0 < (String.utf8EncodeChar c).length := by
  rw [String.utf8EncodeChar]
  split
  · exact Nat.one_pos
  split
  · exact Nat.two_pos
  split <;> simp

end DialectRegex.Text
