import DialectRegex.CharSet
import DialectRegex.Matching.Step
import Mathlib.Data.List.Forall2

namespace DialectRegex

/-- The characters are equal, or the two cases of one letter in ASCII, which are all that this `toLower` changes. -/
def SameLetter (a b : Char) : Prop := a.toLower = b.toLower

theorem forall_upper {P : Char → Prop} (h : ∀ i : Fin 26, P (.ofNat (0x41 + i))) (c : Char) (hc : c.isUpper) :
    P c := by
  obtain ⟨hge, hle⟩ : 'A'.val ≤ c.val ∧ c.val ≤ 'Z'.val := of_decide_eq_true hc
  have hlow : 0x41 ≤ c.toNat := UInt32.le_iff_toNat_le.mp hge
  have hhigh : c.toNat ≤ 0x5a := UInt32.le_iff_toNat_le.mp hle
  have hi := h ⟨c.toNat - 0x41, by omega⟩
  have hadd : 0x41 + (c.toNat - 0x41) = c.toNat := by omega
  dsimp only at hi
  rwa [hadd, Char.ofNat_toNat] at hi

theorem SameLetter.congr {α : Type} {f : Char → α} (hf : ∀ c, c.isUpper → f c.toLower = f c) {a b : Char}
    (h : SameLetter a b) : f a = f b := by
  have hlower (c : Char) : f c.toLower = f c := by
    by_cases hc : c.isUpper
    · exact hf c hc
    · have hsame : c.toLower = c := dif_neg fun h => hc (decide_eq_true h)
      rw [hsame]
  rw [← hlower a, h, hlower]

theorem cases_upper : ∀ c : Char, c.isUpper →
    (Unicode.toLower c = c.toLower ∧ Unicode.toUpper c = c) ∧
      Unicode.toLower c.toLower = c.toLower ∧ Unicode.toUpper c.toLower = c := by
  apply forall_upper
  decide +kernel

theorem dotAccepts_toLower (newline nul : Bool) : ∀ c : Char, c.isUpper →
    dotAccepts newline nul c.toLower = dotAccepts newline nul c := by
  apply forall_upper
  cases newline <;> cases nul <;> decide +kernel

theorem isNewline_toLower : ∀ c : Char, c.isUpper → (c.toLower == '\n') = (c == '\n') := by
  apply forall_upper
  decide +kernel

theorem accepts_toLower (k : CharClass) : ∀ c : Char, c.isUpper → k.accepts true c.toLower = k.accepts true c := by
  apply forall_upper
  cases k <;> decide +kernel

section Upper

variable (c : Char) (hc : c.isUpper)
include hc

theorem sameChar_toLower (b : Char) : sameChar true c.toLower b = sameChar true c b := by
  obtain ⟨⟨hlower, hupper⟩, hlower', hupper'⟩ := cases_upper c hc
  have hcases (a : Char) :
      sameChar true a b = (Unicode.toLower a == Unicode.toLower b || Unicode.toUpper a == Unicode.toUpper b) := by
    by_cases h : a = b
    · simp [sameChar, h]
    · simp [sameChar, Text.eqIgnoringCase, beq_eq_false_iff_ne.mpr h]
  rw [hcases, hcases, hlower, hlower', hupper, hupper']

theorem item_accepts_toLower (i : SetItem) : i.accepts true c.toLower = i.accepts true c := by
  cases i with
  | char x => exact sameChar_toLower c hc x
  | range lo hi =>
    -- Each case is in the range or not, and the range accepts both if it has one of them.
    obtain ⟨⟨hlower, hupper⟩, hlower', hupper'⟩ := cases_upper c hc
    rw [SetItem.accepts, SetItem.accepts, hlower, hlower', hupper, hupper']
    cases inRange lo hi c <;> simp
  | named k negated => rw [SetItem.accepts, SetItem.accepts, accepts_toLower k c hc]

theorem set_accepts_toLower {s : CharSet} (hs : s.fold = true) : s.accepts c.toLower = s.accepts c := by
  simp only [CharSet.accepts, hs, item_accepts_toLower c hc, isNewline_toLower c hc]

end Upper

theorem sameChar_comm (fold : Bool) (a b : Char) : sameChar fold a b = sameChar fold b a := by
  simp only [sameChar, Text.eqIgnoringCase, Bool.beq_comm]

theorem SameLetter.sameChar_eq {a b : Char} (h : SameLetter a b) (c : Char) : sameChar true a c = sameChar true b c :=
  h.congr (f := (sameChar true · c)) fun a ha => sameChar_toLower a ha c

end DialectRegex
