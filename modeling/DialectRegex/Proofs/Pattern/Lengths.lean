import DialectRegex.Grammar.Interval
import DialectRegex.Proofs.Pattern.Spans

namespace DialectRegex

theorem toNat_ofNat_of_le {n : Nat} (h : n ≤ greatestBound) : (UInt64.ofNat n).toNat = n :=
  UInt64.toNat_ofNat_of_lt' (Nat.lt_of_le_sub_one (by decide) h)

theorem saturatingMul_toNat (a b : UInt64) : (saturatingMul a b).toNat = min (a.toNat * b.toNat) greatestBound :=
  toNat_ofNat_of_le (Nat.min_le_right _ _)

theorem min_toNat (a b : UInt64) : (min a b).toNat = min a.toNat b.toNat := by
  change (if a ≤ b then a else b).toNat = _
  rw [Nat.min_def, apply_ite UInt64.toNat]
  simp only [UInt64.le_iff_toNat_le]

theorem Except.bind_eq_ok {ε α β : Type} {x : Except ε α} {f : α → Except ε β} {b : β} :
    (x >>= f) = .ok b ↔ ∃ a, x = .ok a ∧ f a = .ok b := by
  cases x with
  | error e =>
    refine ⟨fun h => ?_, ?_⟩
    · cases h
    · rintro ⟨a, h, _⟩
      cases h
  | ok a =>
    refine ⟨fun h => ⟨a, rfl, h⟩, ?_⟩
    rintro ⟨_, h, hb⟩
    cases h
    exact hb

theorem Except.ite_eq_ok {ε α : Type} {c : Prop} [Decidable c] {a b : α} {e : ε} :
    (if c then .ok a else .error e : Except ε α) = .ok b ↔ c ∧ a = b := by
  split
  · next h => exact ⟨fun hab => ⟨h, Except.ok.inj hab⟩, fun hab => congrArg _ hab.2⟩
  · next h => exact ⟨nofun, fun hab => absurd hab.1 h⟩

theorem checkedAdd_eq_ok {a b w : UInt64} :
    checkedAdd a b = .ok w ↔ a.toNat + b.toNat ≤ greatestBound ∧ w.toNat = a.toNat + b.toNat := by
  rw [checkedAdd, Except.ite_eq_ok, greatestBound, Nat.le_sub_one_iff_lt (by decide)]
  refine and_congr_right fun h => ?_
  rw [← UInt64.toNat_inj, UInt64.toNat_add, Nat.mod_eq_of_lt h, eq_comm]

theorem min_mul_min (k n c : Nat) (hk : k ≤ c) : min (k * min n c) c = min (k * n) c := by
  rcases Nat.le_total n c with h | h
  · rw [Nat.min_eq_left h]
  · rw [Nat.min_eq_right h]
    cases k with
    | zero => rw [Nat.zero_mul, Nat.zero_mul]
    | succ k =>
      have hc : c ≤ (k + 1) * c := Nat.le_mul_of_pos_left c (Nat.succ_pos k)
      rw [Nat.min_eq_right hc, Nat.min_eq_right (hc.trans (Nat.mul_le_mul_left _ h))]

namespace Test

def leastLength : Test → Nat
  | literal cs _ => cs.length
  | any _ _ => 1
  | named _ _ _ => 1
  | set _ => 1
  | anchor _ _ => 0
  | boundary _ => 0
  | backref _ _ => 0

theorem minLength_eq_ok {t : Test} {w : UInt64} :
    t.minLength = .ok w ↔ t.leastLength ≤ greatestBound ∧ w.toNat = t.leastLength := by
  have hword {n : Nat} (h : n ≤ greatestBound) :
      (.ok (.ofNat n) : Except Overflow UInt64) = .ok w ↔ n ≤ greatestBound ∧ w.toNat = n := by
    rw [Except.ok.injEq, ← UInt64.toNat_inj, toNat_ofNat_of_le h, eq_comm, and_iff_right h]
  cases t with
  | literal cs fold =>
    rw [minLength, Except.ite_eq_ok, leastLength, greatestBound, Nat.le_sub_one_iff_lt (by decide)]
    refine and_congr_right fun h => ?_
    rw [← UInt64.toNat_inj, UInt64.toNat_ofNat_of_lt' h, eq_comm]
  | any newline nul => exact hword (n := 1) (by decide)
  | named k negated fold => exact hword (n := 1) (by decide)
  | set s => exact hword (n := 1) (by decide)
  | anchor e multiline => exact hword (n := 0) (by decide)
  | boundary b => exact hword (n := 0) (by decide)
  | backref g fold => exact hword (n := 0) (by decide)

end Test

namespace Pattern

def leastLength : Pattern → Nat
  | empty => 0
  | test t => t.leastLength
  | seq p q => p.leastLength + q.leastLength
  | alt p q => min p.leastLength q.leastLength
  | group _ p => p.leastLength
  | repeated p lo _ _ => lo * p.leastLength
  | look _ _ => 0

/-- Outside lookaheads, all that stands in a row fits into a word, where no part counts for more than the greatest
word. -/
def Fits : Pattern → Prop
  | empty => True
  | test t => t.leastLength ≤ greatestBound
  | seq p q => (p.Fits ∧ q.Fits) ∧ min p.leastLength greatestBound + min q.leastLength greatestBound ≤ greatestBound
  | alt p q => p.Fits ∧ q.Fits
  | group _ p => p.Fits
  | repeated p _ _ _ => p.Fits
  | look _ _ => True

section Bounded

variable {p : Pattern} {w : UInt64}

theorem fits_of_minLength (hv : p.EveryRepeat fun lo _ => lo ≤ greatestBound) (h : p.minLength = .ok w) :
    p.Fits ∧ w.toNat = min p.leastLength greatestBound := by
  induction p generalizing w with
  | empty =>
    cases h
    exact ⟨trivial, rfl⟩
  | test t =>
    obtain ⟨hle, hw⟩ := Test.minLength_eq_ok.mp h
    exact ⟨hle, hw.trans (Nat.min_eq_left hle).symm⟩
  | seq p q hp hq =>
    obtain ⟨a, ha, h⟩ := Except.bind_eq_ok.mp h
    obtain ⟨b, hb, h⟩ := Except.bind_eq_ok.mp h
    obtain ⟨hfp, ha⟩ := hp hv.1 ha
    obtain ⟨hfq, hb⟩ := hq hv.2 hb
    obtain ⟨hle, hw⟩ := checkedAdd_eq_ok.mp h
    rw [ha, hb] at hle hw
    refine ⟨⟨⟨hfp, hfq⟩, hle⟩, ?_⟩
    rw [hw, leastLength]
    omega
  | alt p q hp hq =>
    obtain ⟨a, ha, h⟩ := Except.bind_eq_ok.mp h
    obtain ⟨b, hb, h⟩ := Except.bind_eq_ok.mp h
    cases h
    obtain ⟨hfp, ha⟩ := hp hv.1 ha
    obtain ⟨hfq, hb⟩ := hq hv.2 hb
    refine ⟨⟨hfp, hfq⟩, ?_⟩
    rw [min_toNat, ha, hb, leastLength]
    omega
  | group g p hp => exact hp hv h
  | repeated p lo hi greedy hp =>
    obtain ⟨a, ha, h⟩ := Except.bind_eq_ok.mp h
    cases h
    obtain ⟨hf, ha⟩ := hp hv.2 ha
    refine ⟨hf, ?_⟩
    rw [saturatingMul_toNat, toNat_ofNat_of_le hv.1, ha, leastLength]
    exact min_mul_min lo _ _ hv.1
  | look negated p _ =>
    cases h
    exact ⟨trivial, rfl⟩

theorem Fits.exists_minLength (hv : p.EveryRepeat fun lo _ => lo ≤ greatestBound) (h : p.Fits) :
    ∃ w, p.minLength = .ok w := by
  induction p with
  | empty => exact ⟨0, rfl⟩
  | test t => exact ⟨.ofNat t.leastLength, Test.minLength_eq_ok.mpr ⟨h, toNat_ofNat_of_le h⟩⟩
  | seq p q hp hq =>
    obtain ⟨⟨hfp, hfq⟩, hle⟩ := h
    obtain ⟨a, ha⟩ := hp hv.1 hfp
    obtain ⟨b, hb⟩ := hq hv.2 hfq
    rw [← (fits_of_minLength hv.1 ha).2, ← (fits_of_minLength hv.2 hb).2] at hle
    refine ⟨.ofNat (a.toNat + b.toNat), ?_⟩
    rw [minLength, ha, hb]
    exact checkedAdd_eq_ok.mpr ⟨hle, toNat_ofNat_of_le hle⟩
  | alt p q hp hq =>
    obtain ⟨a, ha⟩ := hp hv.1 h.1
    obtain ⟨b, hb⟩ := hq hv.2 h.2
    refine ⟨min a b, ?_⟩
    rw [minLength, ha, hb]
    rfl
  | group g p hp => exact hp hv h
  | repeated p lo hi greedy hp =>
    obtain ⟨a, ha⟩ := hp hv.2 h
    refine ⟨saturatingMul (.ofNat lo) a, ?_⟩
    rw [minLength, ha]
    rfl
  | look negated p _ => exact ⟨0, rfl⟩

theorem minLength_eq_ok_iff (hv : p.EveryRepeat fun lo _ => lo ≤ greatestBound) :
    p.minLength = .ok w ↔ p.Fits ∧ w.toNat = min p.leastLength greatestBound := by
  refine ⟨fits_of_minLength hv, ?_⟩
  rintro ⟨hf, hw⟩
  obtain ⟨w', h⟩ := hf.exists_minLength hv
  rw [h, Except.ok.injEq, ← UInt64.toNat_inj, hw]
  exact (fits_of_minLength hv h).2

theorem minLength_eq_error_iff (hv : p.EveryRepeat fun lo _ => lo ≤ greatestBound) :
    p.minLength = .error .addition ↔ ¬p.Fits := by
  refine ⟨fun h hf => ?_, fun hf => ?_⟩
  · obtain ⟨w, hw⟩ := hf.exists_minLength hv
    cases h.symm.trans hw
  · cases h : p.minLength with
    | error e => rfl
    | ok w => exact absurd (fits_of_minLength hv h).1 hf

end Bounded

end Pattern

end DialectRegex
