import DialectRegex.Haystack
import Mathlib.Data.List.Basic

namespace DialectRegex

namespace Text

theorem toList_loop (bs : ByteArray) (i : Nat) (r : List UInt8) :
    ByteArray.toList.loop bs i r = r.reverse ++ bs.data.toList.drop i := by
  fun_induction ByteArray.toList.loop bs i r with
  | case1 i r hi ih =>
    have hi' : i < bs.data.toList.length := hi
    have hget : bs.get! i = bs.data.toList[i] := by
      change bs.data[i]! = _
      rw [getElem!_pos bs.data i hi']
      rfl
    rw [ih, hget, List.drop_eq_getElem_cons hi', List.reverse_cons, List.append_assoc]
    rfl
  | case2 i r hi =>
    have hi' : bs.data.toList.length ≤ i := Nat.not_lt.mp hi
    rw [List.drop_eq_nil_of_le hi', List.append_nil]

theorem data_toByteArray (s : String) : s.toByteArray.data.toList = s.toList.flatMap String.utf8EncodeChar := by
  rw [← String.utf8Encode_toList]
  exact List.toList_data_toByteArray

theorem toList_toUTF8 (s : String) : s.toUTF8.toList = s.toList.flatMap String.utf8EncodeChar := by
  rw [← data_toByteArray]
  exact toList_loop s.toByteArray 0 []

theorem utf8EncodeChar_of_lt {c : Char} (h : c.toNat < 0x80) : String.utf8EncodeChar c = [UInt8.ofNat c.toNat] := by
  have hle : c.val.toNat ≤ 0x7f := Nat.le_of_lt_succ h
  rw [String.utf8EncodeChar]
  exact if_pos hle

theorem exists_utf8EncodeChar {c : Char} (h : 0x80 ≤ c.toNat) : ∃ b ∈ String.utf8EncodeChar c, 0x80 ≤ b := by
  have hgt : ¬ c.val.toNat ≤ 0x7f := Nat.not_le.mpr h
  rw [String.utf8EncodeChar, if_neg hgt]
  split
  · refine ⟨_, List.mem_cons_self, ?_⟩
    rw [UInt8.le_iff_toNat_le, UInt8.toNat_ofNat']
    simp
    omega
  · split
    · refine ⟨_, List.mem_cons_self, ?_⟩
      rw [UInt8.le_iff_toNat_le, UInt8.toNat_ofNat']
      simp
      omega
    · refine ⟨_, List.mem_cons_self, ?_⟩
      rw [UInt8.le_iff_toNat_le, UInt8.toNat_ofNat']
      simp
      omega

theorem AsciiScan.find_eq (scan : AsciiScan) (bs : List UInt8) : scan.find bs = firstNonAscii? bs :=
  Option.ext fun _ => scan.find_eq_some.trans plain.find_eq_some.symm

theorem isAscii_eq (scan : AsciiScan) (s : String) : isAscii scan s = isAscii .plain s := by
  rw [isAscii, scan.find_eq]
  rfl

theorem isAscii_iff (s : String) : isAscii .plain s = true ↔ ∀ c ∈ s.toList, c.toNat < 0x80 := by
  rw [isAscii, AsciiScan.find_eq, firstNonAscii?, Option.isNone_iff_eq_none, List.findIdx?_eq_none_iff, toList_toUTF8]
  constructor
  · intro h c hc
    by_contra hge
    obtain ⟨b, hb, hle⟩ := exists_utf8EncodeChar (Nat.not_lt.mp hge)
    have hn := h b (List.mem_flatMap.mpr ⟨c, hc, hb⟩)
    exact absurd hle (of_decide_eq_false hn)
  · intro h b hb
    obtain ⟨c, hc, hb⟩ := List.mem_flatMap.mp hb
    have hlt := h c hc
    rw [utf8EncodeChar_of_lt hlt] at hb
    rw [List.mem_singleton.mp hb, decide_eq_false_iff_not, UInt8.le_iff_toNat_le, UInt8.toNat_ofNat']
    simp
    omega

theorem bytes_of_ascii {s : String} (h : isAscii .plain s = true) :
    s.toByteArray.data.toList = s.toList.map fun c => UInt8.ofNat c.toNat := by
  rw [data_toByteArray, List.map_eq_flatMap]
  apply List.flatMap_congr
  intro c hc
  exact utf8EncodeChar_of_lt ((isAscii_iff s).mp h c hc)

end Text

namespace Haystack

theorem index_toList (t : Array (Nat × Char)) (i : Nat) (cs : List Char) :
    (index t i cs).toList.map (·.2) = t.toList.map (·.2) ++ cs := by
  induction cs generalizing t i with
  | nil => exact (List.append_nil _).symm
  | cons c cs ih => rw [index, ih, Array.toList_push, List.map_append, List.append_assoc]; rfl

theorem byteAt?_eq (s : String) (i : Nat) : byteAt? s i = s.toByteArray.data.toList[i]? := by
  rw [byteAt?]
  split
  · next h =>
    have hi : i < s.toByteArray.data.toList.length := h
    rw [List.getElem?_eq_getElem hi]
    rfl
  · next h =>
    have hi : s.toByteArray.data.toList.length ≤ i := Nat.not_lt.mp h
    rw [List.getElem?_eq_none hi]

inductive Form (s : String) : Haystack → Prop where
  | bytes (hs : Text.isAscii .plain s = true) : Form s ⟨s, none⟩
  | table : Form s ⟨s, some (index #[] 0 s.toList)⟩

theorem ofStringBy_eq (scan : Text.AsciiScan) (s : String) : ofStringBy scan s = ofString s := by
  rw [ofString, ofStringBy, ofStringBy, Text.isAscii_eq]

theorem form_ofString (s : String) : Form s (ofString s) := by
  rw [ofString, ofStringBy]
  split
  · next hs => exact .bytes hs
  · exact .table

namespace Form

variable {s : String} {h : Haystack}

theorem charAt (hf : Form s h) (i : Nat) : h.charAt i = s.toList[i]? := by
  cases hf with
  | bytes hs =>
    rw [Haystack.charAt]
    dsimp only
    rw [byteAt?_eq, Text.bytes_of_ascii hs, List.getElem?_map, Option.map_map]
    cases hc : s.toList[i]? with
    | none => rfl
    | some c =>
      have hlt := (Text.isAscii_iff s).mp hs c (List.mem_of_getElem? hc)
      have hb : (UInt8.ofNat c.toNat).toNat = c.toNat := by
        rw [UInt8.toNat_ofNat']
        omega
      rw [Option.map_some, Function.comp_apply, hb, Char.ofNat_toNat]
  | table =>
    have hl := index_toList #[] 0 s.toList
    rw [Haystack.charAt]
    dsimp only
    rw [← Array.getElem?_toList, ← List.getElem?_map, hl]
    rfl

theorem length (hf : Form s h) : h.length = s.toList.length := by
  cases hf with
  | bytes hs =>
    have hl := congrArg List.length (Text.bytes_of_ascii hs)
    rwa [List.length_map] at hl
  | table =>
    have hl := congrArg List.length (index_toList #[] 0 s.toList)
    rwa [List.length_map] at hl

end Form

theorem charAt_ofString (s : String) (i : Nat) : (ofString s).charAt i = s.toList[i]? := (form_ofString s).charAt i

theorem length_ofString (s : String) : (ofString s).length = s.toList.length := (form_ofString s).length

end Haystack

end DialectRegex
