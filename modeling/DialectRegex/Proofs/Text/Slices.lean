import DialectRegex.Proofs.Text.Characters
import Mathlib.Data.String.Basic

namespace DialectRegex.Haystack

def slice? (h : Haystack) (start stop : Nat) : Option String :=
  if h.byteOffset start ≤ h.byteOffset stop ∧ String.Pos.Raw.IsValid h.text ⟨h.byteOffset start⟩ ∧
      String.Pos.Raw.IsValid h.text ⟨h.byteOffset stop⟩ then
    some (h.slice start stop)
  else none

theorem utf8Len_of_ascii {cs : List Char} (h : ∀ c ∈ cs, c.toNat < 0x80) : String.utf8Len cs = cs.length := by
  induction cs with
  | nil => rfl
  | cons c cs ih =>
    have hsize : c.utf8Size = 1 := by
      rw [← String.length_utf8EncodeChar, Text.utf8EncodeChar_of_lt (h c List.mem_cons_self), List.length_singleton]
    rw [String.utf8Len_cons, ih fun c hc => h c (List.mem_cons_of_mem _ hc), hsize, List.length_cons]

theorem toList_index (t : Array (Nat × Char)) (i : Nat) (cs : List Char) :
    (index t i cs).toList = t.toList ++ cs.mapIdx fun k c => (i + String.utf8Len (cs.take k), c) := by
  induction cs generalizing t i with
  | nil => exact (List.append_nil _).symm
  | cons c cs ih =>
    have hoffset (k : Nat) :
        i + c.utf8Size + String.utf8Len (cs.take k) = i + String.utf8Len ((c :: cs).take (k + 1)) := by
      rw [List.take_succ_cons, String.utf8Len_cons]
      omega
    rw [index, ih, Array.toList_push, List.mapIdx_cons, List.append_assoc]
    simp only [hoffset]
    rfl

namespace Form

variable {s : String} {h : Haystack}

theorem text_eq (hf : Form s h) : h.text = s := by
  cases hf <;> rfl

theorem byteOffset (hf : Form s h) (i : Nat) : h.byteOffset i = String.utf8Len (s.toList.take i) := by
  cases hf with
  | bytes hs =>
    have hascii := (Text.isAscii_iff s).mp hs
    rw [Haystack.byteOffset, utf8Len_of_ascii fun c hc => hascii c (List.mem_of_mem_take hc), List.length_take,
      ← String.utf8Len_toList, utf8Len_of_ascii hascii]
  | table =>
    rw [Haystack.byteOffset]
    dsimp only
    rw [← Array.getElem?_toList, toList_index, List.nil_append, List.getElem?_mapIdx]
    cases hc : s.toList[i]? with
    | none =>
      rw [List.take_of_length_le (List.getElem?_eq_none_iff.mp hc), String.utf8Len_toList]
      rfl
    | some c => exact Nat.zero_add _

theorem byteOffset_mono (hf : Form s h) {i j : Nat} (hij : i ≤ j) : h.byteOffset i ≤ h.byteOffset j := by
  rw [hf.byteOffset, hf.byteOffset]
  exact String.utf8Len_le_of_prefix (List.take_prefix_take_left hij)

theorem byteOffset_size (hf : Form s h) (i : Nat) : h.byteOffset i = (String.ofList (s.toList.take i)).utf8ByteSize :=
  (hf.byteOffset i).trans (String.utf8ByteSize_ofList _).symm

theorem byteOffset_valid (hf : Form s h) (i : Nat) : String.Pos.Raw.IsValid s ⟨h.byteOffset i⟩ :=
  String.Pos.Raw.isValid_iff_exists_take_toList.mpr ⟨i, hf.byteOffset_size i⟩

theorem slice (hf : Form s h) {i j : Nat} (hij : i ≤ j) : h.slice i j = .ofList (s.toList.extract i j) := by
  have hbefore : s.toList.take j = s.toList.take i ++ s.toList.extract i j := by
    rw [List.extract_eq_take_drop, ← List.take_add, Nat.add_sub_cancel' hij]
  have htext : s = .ofList (s.toList.take i ++ s.toList.extract i j ++ s.toList.drop j) := by
    rw [← hbefore, List.take_append_drop, String.ofList_toList]
  have hextract := String.extract_of_valid (s.toList.take i) (s.toList.extract i j) (s.toList.drop j)
  rw [Haystack.slice, hf.text_eq]
  rwa [← htext, ← String.utf8Len_append, ← hbefore, ← hf.byteOffset, ← hf.byteOffset] at hextract

theorem slice? (hf : Form s h) {i j : Nat} (hij : i ≤ j) : h.slice? i j = some (.ofList (s.toList.extract i j)) := by
  rw [Haystack.slice?, hf.text_eq, if_pos ⟨hf.byteOffset_mono hij, hf.byteOffset_valid i, hf.byteOffset_valid j⟩,
    hf.slice hij]

end Form

theorem slice_ofString (s : String) {i j : Nat} (h : i ≤ j) :
    (ofString s).slice i j = .ofList (s.toList.extract i j) :=
  (form_ofString s).slice h

theorem slice?_ofString (s : String) {i j : Nat} (h : i ≤ j) :
    (ofString s).slice? i j = some (.ofList (s.toList.extract i j)) :=
  (form_ofString s).slice? h

theorem extract_append_extract {α : Type} (l : List α) {i j k : Nat} (hij : i ≤ j) (hjk : j ≤ k) :
    l.extract i j ++ l.extract j k = l.extract i k := by
  have hdrop : l.drop j = (l.drop i).drop (j - i) := by rw [List.drop_drop, Nat.add_sub_cancel' hij]
  have hsum : k - i = (j - i) + (k - j) := by omega
  rw [List.extract_eq_take_drop, List.extract_eq_take_drop, List.extract_eq_take_drop, hdrop, hsum, List.take_add]

theorem extract_min {α : Type} (l : List α) (i j : Nat) : l.extract i (min j l.length) = l.extract i j := by
  rw [List.extract_eq_take_drop, List.extract_eq_take_drop, List.take_eq_take_iff, List.length_drop]
  omega

/-- An ASCII text can be held either way, any other text by a table only, and both ways give the characters, the byte
offsets and the slices of the text. -/
theorem forms_give_text (s : String) :
    (∀ scan, ofStringBy scan s = ofString s ∧ (scan.find s.toUTF8.toList = none ↔ ∀ c ∈ s.toList, c.toNat < 0x80)) ∧
      ((ofString s).table = none ↔ ∀ c ∈ s.toList, c.toNat < 0x80) ∧ Form s (ofString s) ∧
      ∀ h, Form s h → h.length = s.toList.length ∧ (∀ i, h.charAt i = s.toList[i]?) ∧
        (∀ i, h.byteOffset i = (String.ofList (s.toList.take (min i s.toList.length))).utf8ByteSize ∧
          String.Pos.Raw.IsValid s ⟨h.byteOffset i⟩) ∧
        (∀ i j, i ≤ j → h.byteOffset i ≤ h.byteOffset j ∧
          h.slice? i j = some (.ofList (s.toList.extract i (min j s.toList.length)))) ∧
        ∀ i j k, i ≤ j → j ≤ k →
          ∃ a b, h.slice? i j = some a ∧ h.slice? j k = some b ∧ h.slice? i k = some (a ++ b) := by
  refine ⟨fun scan => ⟨ofStringBy_eq scan s, ?_⟩, ?_, form_ofString s, ?_⟩
  · rw [← Text.isAscii_iff, ← Text.isAscii_eq scan, Text.isAscii, Option.isNone_iff_eq_none]
  · rw [← Text.isAscii_iff, ofString, ofStringBy]
    split
    · next hs => exact iff_of_true rfl hs
    · next hs => exact iff_of_false (fun h => by cases h) hs
  intro h hf
  refine ⟨hf.length, hf.charAt, ?_, ?_, ?_⟩
  · intro i
    rw [← List.take_eq_take_min]
    exact ⟨hf.byteOffset_size i, hf.byteOffset_valid i⟩
  · intro i j hij
    refine ⟨hf.byteOffset_mono hij, ?_⟩
    rw [extract_min]
    exact hf.slice? hij
  · intro i j k hij hjk
    refine ⟨_, _, hf.slice? hij, hf.slice? hjk, ?_⟩
    rw [hf.slice? (hij.trans hjk), ← String.ofList_append, extract_append_extract _ hij hjk]

theorem forms_give_text_mixed :
    (Form "añ€😀" (ofString "añ€😀") ∧ (ofString "añ€😀").byteOffset 3 = 6 ∧
      (ofString "añ€😀").byteOffset 3 ≤ (ofString "añ€😀").byteOffset 9 ∧
      ∃ a b, (ofString "añ€😀").slice? 1 3 = some a ∧ (ofString "añ€😀").slice? 3 9 = some b ∧
        (ofString "añ€😀").slice? 1 9 = some (a ++ b) ∧ a ++ b = "ñ€😀") ∧
      ∃ h, Form "ab" h ∧ h.table ≠ none ∧ (∀ c ∈ "ab".toList, c.toNat < 0x80) ∧ h.charAt 1 = some 'b' := by
  obtain ⟨_, _, hform, htext⟩ := forms_give_text "añ€😀"
  obtain ⟨_, _, hbyte, hslice, happend⟩ := htext _ hform
  obtain ⟨a, b, ha, hb, hab⟩ := happend 1 3 9 (by decide) (by decide)
  have hwhole : some (a ++ b) = some "ñ€😀" := hab.symm.trans (hslice 1 9 (by decide)).2
  refine ⟨⟨hform, (hbyte 3).1, (hslice 3 9 (by decide)).1, a, b, ha, hb, hab, Option.some.inj hwhole⟩, ?_⟩
  have hascii : ∀ c ∈ "ab".toList, c.toNat < 0x80 := by simp
  obtain ⟨_, hchar, _⟩ := (forms_give_text "ab").2.2.2 _ .table
  exact ⟨_, .table, by simp, hascii, hchar 1⟩

end DialectRegex.Haystack
