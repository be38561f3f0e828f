import DialectRegex.CharSet
import Mathlib.Data.List.Chain

namespace DialectRegex.Unicode

def Ascending (l : List (Nat × Nat)) : Prop := l.IsChain fun a b => a.1 ≤ a.2 ∧ a.2 < b.1

instance (l : List (Nat × Nat)) : Decidable (Ascending l) := inferInstanceAs (Decidable (l.IsChain _))

theorem Ascending.pairwise {l : List (Nat × Nat)} (h : Ascending l) : l.Pairwise fun a b => a.1 ≤ a.2 ∧ a.2 < b.1 := by
  have htrans : IsTrans (Nat × Nat) fun a b => a.1 ≤ a.2 ∧ a.2 < b.1 := ⟨fun a b c hab hbc => by omega⟩
  exact List.isChain_iff_pairwise.mp h

variable {t : Array (Nat × Nat)} {n : Nat} {e : Nat × Nat}

theorem findBetween_mem {α : Type} {bounds : α → Nat × Nat} {t : Array α} {e : α} {fuel lo hi : Nat}
    (h : findBetween bounds t n fuel lo hi = some e) : e ∈ t.toList ∧ (bounds e).1 ≤ n ∧ n ≤ (bounds e).2 := by
  induction fuel generalizing lo hi with
  | zero => cases h
  | succ fuel ih =>
    rw [findBetween] at h
    split at h
    · dsimp only at h
      split at h
      · cases h
      · next e' he =>
        split at h
        · exact ih h
        split at h
        · exact ih h
        · cases h
          exact ⟨Array.mem_toList_iff.mpr (Array.mem_of_getElem? he), by omega, by omega⟩
    · cases h

theorem findBetween_of_mem (ht : Ascending t.toList) {i : Nat} (hi : t[i]? = some e) (hlow : e.1 ≤ n) (hhigh : n ≤ e.2)
    {fuel lo up : Nat} (hlo : lo ≤ i) (hup : i < up) (hf : up - lo ≤ fuel) (hsize : up ≤ t.size) :
    findBetween id t n fuel lo up = some e := by
  have horder {j k : Nat} {a b : Nat × Nat} (hj : t[j]? = some a) (hk : t[k]? = some b) (hjk : j < k) :
      a.1 ≤ a.2 ∧ a.2 < b.1 := by
    rw [← Array.getElem?_toList] at hj hk
    obtain ⟨hjs, rfl⟩ := List.getElem?_eq_some_iff.mp hj
    obtain ⟨hks, rfl⟩ := List.getElem?_eq_some_iff.mp hk
    exact List.pairwise_iff_getElem.mp ht.pairwise j k hjs hks hjk
  induction fuel generalizing lo up with
  | zero => omega
  | succ fuel ih =>
    obtain ⟨e', he⟩ : ∃ e', t[(lo + up) / 2]? = some e' := ⟨_, Array.getElem?_eq_getElem (by omega)⟩
    rw [findBetween, if_pos (by omega)]
    dsimp only
    rw [he]
    dsimp only [id_eq]
    -- The range in the middle is the one, or it is on the other side of `n`.
    rcases Nat.lt_trichotomy i ((lo + up) / 2) with hlt | heq | hgt
    · have h := horder hi he hlt
      rw [if_pos (by omega)]
      exact ih hlo hlt (by omega) (by omega)
    · rw [← heq, hi] at he
      cases he
      rw [← heq, if_neg (by omega), if_neg (by omega)]
    · have h := horder he hi hgt
      rw [if_neg (by omega), if_pos (by omega)]
      exact ih hgt hup (by omega) hsize

theorem covers_iff (ht : Ascending t.toList) : covers t n = true ↔ ∃ e ∈ t.toList, e.1 ≤ n ∧ n ≤ e.2 := by
  rw [covers, find?, Option.isSome_iff_exists]
  constructor
  · rintro ⟨e, he⟩
    exact ⟨e, findBetween_mem he⟩
  · rintro ⟨e, he, hlow, hhigh⟩
    obtain ⟨i, hi⟩ := Array.mem_iff_getElem?.mp (Array.mem_toList_iff.mp he)
    obtain ⟨hsize, _⟩ := Array.getElem?_eq_some_iff.mp hi
    exact ⟨e, findBetween_of_mem ht hi hlow hhigh (Nat.zero_le i) hsize (Nat.le_refl _) (Nat.le_refl _)⟩

def liesIn : List (Nat × Nat) → List (Nat × Nat) → Bool
  | [], _ => true
  | a :: l, t =>
    match t.dropWhile fun b => decide (b.2 < a.1) with
    | [] => false
    | b :: t => decide (b.1 ≤ a.1) && decide (a.2 ≤ b.2) && liesIn l (b :: t)

theorem exists_of_liesIn {l t : List (Nat × Nat)} (h : liesIn l t = true) {a : Nat × Nat} (ha : a ∈ l) :
    ∃ b ∈ t, b.1 ≤ a.1 ∧ a.2 ≤ b.2 := by
  induction l generalizing t with
  | nil => cases ha
  | cons x l ih =>
    have hsub := List.dropWhile_sublist (l := t) fun b => decide (b.2 < x.1)
    rw [liesIn] at h
    split at h
    · cases h
    · next b t' hd =>
      rw [hd] at hsub
      simp only [Bool.and_eq_true, decide_eq_true_eq] at h
      obtain ⟨⟨hlow, hhigh⟩, hl⟩ := h
      rcases List.mem_cons.mp ha with rfl | ha
      · exact ⟨b, hsub.subset List.mem_cons_self, hlow, hhigh⟩
      · obtain ⟨c, hc, hrest⟩ := ih hl ha
        exact ⟨c, hsub.subset hc, hrest⟩

theorem ascending_alphabetic : Ascending alphabeticRanges.toList := by
  decide +kernel

theorem covers_alphabetic (ht : Ascending t.toList) (h : liesIn t.toList alphabeticRanges.toList = true)
    (hn : covers t n = true) : covers alphabeticRanges n = true := by
  obtain ⟨a, ha, hlow, hhigh⟩ := (covers_iff ht).mp hn
  obtain ⟨b, hb, hlow', hhigh'⟩ := exists_of_liesIn h ha
  exact (covers_iff ascending_alphabetic).mpr ⟨b, hb, hlow'.trans hlow, hhigh.trans hhigh'⟩

theorem isAlphabetic_of_isLowercase {c : Char} (h : isLowercase c = true) : isAlphabetic c = true :=
  covers_alphabetic (by decide +kernel) (by decide +kernel) h

theorem isAlphabetic_of_isUppercase {c : Char} (h : isUppercase c = true) : isAlphabetic c = true :=
  covers_alphabetic (by decide +kernel) (by decide +kernel) h

end DialectRegex.Unicode
