import DialectRegex.Proofs.Text.Decoding
import Mathlib.Algebra.Ring.Nat
import Mathlib.Data.List.Induction

namespace DialectRegex.Text

open String (utf8EncodeChar)

/-- The text of a whole run of bytes. An invalid sequence is as long as it can be a beginning of a character, and
one byte long if it cannot be one. -/
inductive Lossy : List UInt8 → List Char → Prop where
  | nil : Lossy [] []
  | char {bs : List UInt8} {cs : List Char} (c : Char) (h : Lossy bs cs) : Lossy (utf8EncodeChar c ++ bs) (c :: cs)
  | stray {b : UInt8} {bs : List UInt8} {cs : List Char} (hb : ∀ c, ¬ [b] <+: utf8EncodeChar c) (h : Lossy bs cs) :
      Lossy (b :: bs) (replacement :: cs)
  | broken {part bs : List UInt8} {b : UInt8} {cs : List Char} (hp : part ≠ []) (hu : Unfinished part)
      (hb : ∀ c, ¬ part ++ [b] <+: utf8EncodeChar c) (h : Lossy (b :: bs) cs) :
      Lossy (part ++ b :: bs) (replacement :: cs)
  | truncated {part : List UInt8} (hp : part ≠ []) (hu : Unfinished part) : Lossy part [replacement]

def lossy (bs : List UInt8) : List Char := (decode none bs).1 ++ flush (decode none bs).2

def tail : Nat → Nat → List UInt8
  | 0, _ => []
  | n + 1, x => UInt8.ofNat (x / 64 ^ n % 64 + 128) :: tail n x

theorem tail_congr {n x y : Nat} (h : x % 64 ^ n = y % 64 ^ n) : tail n x = tail n y := by
  induction n with
  | zero => rfl
  | succ n ih =>
    have hlow : x % 64 ^ n = y % 64 ^ n := by
      have := congrArg (· % 64 ^ n) h
      simpa only [Nat.pow_succ, Nat.mod_mul_right_mod] using this
    have hhigh : x / 64 ^ n % 64 = y / 64 ^ n % 64 := by
      rw [Nat.pow_succ] at h
      rw [← Nat.mod_mul_right_div_self, ← Nat.mod_mul_right_div_self, h]
    rw [tail, tail, hhigh, ih hlow]

theorem utf8EncodeChar_eq (c : Char) : utf8EncodeChar c =
    if c.toNat < 128 then [UInt8.ofNat c.toNat]
    else if c.toNat < 2048 then UInt8.ofNat (c.toNat / 64 + 192) :: tail 1 c.toNat
    else if c.toNat < 65536 then UInt8.ofNat (c.toNat / 4096 + 224) :: tail 2 c.toNat
    else UInt8.ofNat (c.toNat / 262144 + 240) :: tail 3 c.toNat := by
  have hvalid := c.valid
  rw [UInt32.isValidChar, Nat.isValidChar] at hvalid
  change utf8EncodeChar c = if c.val.toNat < 128 then [UInt8.ofNat c.val.toNat]
    else if c.val.toNat < 2048 then UInt8.ofNat (c.val.toNat / 64 + 192) :: tail 1 c.val.toNat
    else if c.val.toNat < 65536 then UInt8.ofNat (c.val.toNat / 4096 + 224) :: tail 2 c.val.toNat
    else UInt8.ofNat (c.val.toNat / 262144 + 240) :: tail 3 c.val.toNat
  rw [String.utf8EncodeChar]
  generalize c.val.toNat = v at hvalid ⊢
  have hmod (k n : Nat) (h : v / n < k) : v / n % k = v / n := Nat.mod_eq_of_lt h
  split
  · rw [if_pos (show v < 128 by omega)]
  rw [if_neg (show ¬ v < 128 by omega)]
  split
  · rw [if_pos (show v < 2048 by omega), hmod 32 64 (by omega)]
    simp [tail]
  rw [if_neg (show ¬ v < 2048 by omega)]
  split
  · rw [if_pos (show v < 65536 by omega), hmod 16 4096 (by omega)]
    simp [tail]
  · rw [if_neg (show ¬ v < 65536 by omega), hmod 8 262144 (by omega)]
    simp [tail]

def Partial.Fits (p : Partial) (x : Nat) : Prop :=
  x < 64 ^ p.need ∧ p.low.toNat ≤ x / 64 ^ (p.need - 1) + 128 ∧ x / 64 ^ (p.need - 1) + 128 ≤ p.high.toNat

/-- After these bytes the decoder waits for the rest of one of the characters that begin with them. -/
structure Opens (part : List UInt8) (p : Partial) : Prop where
  need_pos : 0 < p.need
  low_le : 0x80 ≤ p.low.toNat
  low_le_high : p.low ≤ p.high
  high_le : p.high.toNat ≤ 0xbf
  complete : ∀ x, p.Fits x → ∃ c : Char, c.toNat = p.value * 64 ^ p.need + x ∧ utf8EncodeChar c = part ++ tail p.need x
  only : ∀ c : Char, part <+: utf8EncodeChar c → ∃ x, p.Fits x ∧ c.toNat = p.value * 64 ^ p.need + x

theorem leadByte_eq (b : UInt8) : leadByte b =
    if b.toNat < 128 then ([Char.ofNat b.toNat], none)
    else if b.toNat < 194 ∨ 245 ≤ b.toNat then ([replacement], none)
    else if b.toNat < 224 then ([], some ⟨1, 0x80, 0xbf, b.toNat - 192⟩)
    else if b.toNat < 240 then
      ([], some ⟨2, if b.toNat = 224 then 0xa0 else 0x80, if b.toNat = 237 then 0x9f else 0xbf, b.toNat - 224⟩)
    else ([], some ⟨3, if b.toNat = 240 then 0x90 else 0x80, if b.toNat = 244 then 0x8f else 0xbf, b.toNat - 240⟩) := by
  have hall : ∀ k < 256, leadByte (UInt8.ofNat k) =
      if k < 128 then ([Char.ofNat k], none)
      else if k < 194 ∨ 245 ≤ k then ([replacement], none)
      else if k < 224 then ([], some ⟨1, 0x80, 0xbf, k - 192⟩)
      else if k < 240 then
        ([], some ⟨2, if k = 224 then 0xa0 else 0x80, if k = 237 then 0x9f else 0xbf, k - 224⟩)
      else ([], some ⟨3, if k = 240 then 0x90 else 0x80, if k = 244 then 0x8f else 0xbf, k - 240⟩) := by
    decide +kernel
  have h := hall b.toNat b.toNat_lt
  rwa [UInt8.ofNat_toNat] at h

def leadValue (v : Nat) : Nat :=
  if v < 128 then v
  else if v < 2048 then v / 64 + 192
  else if v < 65536 then v / 4096 + 224
  else v / 262144 + 240

theorem leadValue_cases (c : Char) :
    c.toNat < 128 ∧ leadValue c.toNat = c.toNat ∨
    128 ≤ c.toNat ∧ c.toNat < 2048 ∧ leadValue c.toNat = c.toNat / 64 + 192 ∨
    2048 ≤ c.toNat ∧ c.toNat < 65536 ∧ (c.toNat < 55296 ∨ 57343 < c.toNat) ∧ leadValue c.toNat = c.toNat / 4096 + 224 ∨
    65536 ≤ c.toNat ∧ c.toNat < 1114112 ∧ leadValue c.toNat = c.toNat / 262144 + 240 := by
  have hvalid : c.toNat < 55296 ∨ 57343 < c.toNat ∧ c.toNat < 1114112 := c.valid
  rw [leadValue]
  split
  · exact .inl ⟨‹_›, rfl⟩
  split
  · exact .inr (.inl ⟨by omega, by omega, rfl⟩)
  split
  · exact .inr (.inr (.inl ⟨by omega, by omega, by omega, rfl⟩))
  · exact .inr (.inr (.inr ⟨by omega, by omega, rfl⟩))

theorem utf8EncodeChar_lead (c : Char) : ∃ n, utf8EncodeChar c = UInt8.ofNat (leadValue c.toNat) :: tail n c.toNat ∧
    (leadValue c.toNat < 128 → n = 0) ∧ (128 ≤ leadValue c.toNat → leadValue c.toNat < 224 → n = 1) ∧
    (224 ≤ leadValue c.toNat → leadValue c.toNat < 240 → n = 2) ∧ (240 ≤ leadValue c.toNat → n = 3) := by
  have hc := leadValue_cases c
  rw [utf8EncodeChar_eq]
  split
  · exact ⟨0, by rw [leadValue, if_pos ‹_›]; rfl, by omega, by omega, by omega, by omega⟩
  split
  · exact ⟨1, by rw [leadValue, if_neg ‹_›, if_pos ‹_›], by omega, by omega, by omega, by omega⟩
  split
  · exact ⟨2, by rw [leadValue, if_neg ‹_›, if_neg ‹_›, if_pos ‹_›], by omega, by omega, by omega, by omega⟩
  · exact ⟨3, by rw [leadValue, if_neg ‹_›, if_neg ‹_›, if_neg ‹_›], by omega, by omega, by omega, by omega⟩

theorem singleton_prefix_iff {b : UInt8} {c : Char} : [b] <+: utf8EncodeChar c ↔ b.toNat = leadValue c.toNat := by
  have hc := leadValue_cases c
  obtain ⟨n, hn, _⟩ := utf8EncodeChar_lead c
  rw [hn, List.cons_prefix_cons, and_iff_left List.nil_prefix, ← UInt8.toNat_inj, UInt8.toNat_ofNat']
  omega

theorem toNat_ofNat {v : Nat} (h : v.isValidChar) : (Char.ofNat v).toNat = v := by
  rw [Char.ofNat, dif_pos h]
  rfl

theorem utf8EncodeChar_ofNat {v : Nat} (h : v < 128) : utf8EncodeChar (Char.ofNat v) = [UInt8.ofNat v] := by
  have hv : (Char.ofNat v).toNat = v := toNat_ofNat (.inl (by omega))
  rw [utf8EncodeChar_of_lt (by omega), hv]

theorem utf8EncodeChar_ofByte {b : UInt8} (h : b.toNat < 128) : utf8EncodeChar (Char.ofNat b.toNat) = [b] := by
  rw [utf8EncodeChar_ofNat h, UInt8.ofNat_toNat]

theorem not_prefix_of_leadByte {b : UInt8} (h : leadByte b = ([replacement], none)) (c : Char) :
    ¬ [b] <+: utf8EncodeChar c := by
  have hc := leadValue_cases c
  rw [singleton_prefix_iff]
  rw [leadByte_eq] at h
  split at h
  · next hb =>
    obtain ⟨hc, _⟩ := Prod.mk.inj h
    have hlt := congrArg Char.toNat (List.singleton_inj.mp hc)
    rw [toNat_ofNat (.inl (by omega))] at hlt
    have hr : replacement.toNat = 65533 := rfl
    omega
  split at h
  · omega
  split at h
  · cases h
  split at h <;> cases h

namespace Opens

theorem of_lead {b : UInt8} {p : Partial} (hn : 0 < p.need) (hlow : 0x80 ≤ p.low.toNat) (hle : p.low ≤ p.high)
    (hhigh : p.high.toNat ≤ 0xbf)
    (hvalid : ∀ x, p.Fits x → (p.value * 64 ^ p.need + x).isValidChar)
    (hlead : ∀ c : Char, b.toNat = leadValue c.toNat ↔ ∃ x, p.Fits x ∧ c.toNat = p.value * 64 ^ p.need + x)
    (htail : ∀ c : Char, b.toNat = leadValue c.toNat → utf8EncodeChar c = b :: tail p.need c.toNat) : Opens [b] p where
  need_pos := hn
  low_le := hlow
  low_le_high := hle
  high_le := hhigh
  complete x hx := by
    have hc := toNat_ofNat (hvalid x hx)
    refine ⟨_, hc, ?_⟩
    rw [htail _ ((hlead _).mpr ⟨x, hx, hc⟩), hc]
    apply congrArg (b :: ·)
    apply tail_congr
    rw [Nat.mul_add_mod_self_right]
  only c hc := (hlead c).mp (singleton_prefix_iff.mp hc)

theorem lead_two {b : UInt8} (hl : 194 ≤ b.toNat) (hh : b.toNat < 224) :
    Opens [b] ⟨1, 0x80, 0xbf, b.toNat - 192⟩ := by
  apply of_lead <;> simp only [Partial.Fits, Nat.isValidChar, Nat.reduceSub, Nat.reducePow, Nat.div_one]
  · decide
  · decide
  · decide
  · decide
  · simp
    omega
  · intro c
    have hc := leadValue_cases c
    constructor
    · intro hb
      refine ⟨c.toNat % 64, ?_⟩
      simp
      omega
    · rintro ⟨x, hx, hcx⟩
      omega
  · intro c hc
    obtain ⟨n, hn, _, hone, _⟩ := utf8EncodeChar_lead c
    rw [hn, ← hc, UInt8.ofNat_toNat, hone (by omega) (by omega)]

theorem lead_three {b : UInt8} (hl : 224 ≤ b.toNat) (hh : b.toNat < 240) :
    Opens [b] ⟨2, if b.toNat = 224 then 0xa0 else 0x80, if b.toNat = 237 then 0x9f else 0xbf, b.toNat - 224⟩ := by
  have hlow : (if b.toNat = 224 then 0xa0 else 0x80 : UInt8).toNat = if b.toNat = 224 then 160 else 128 := by
    split <;> rfl
  have hhigh : (if b.toNat = 237 then 0x9f else 0xbf : UInt8).toNat = if b.toNat = 237 then 159 else 191 := by
    split <;> rfl
  apply of_lead <;>
    simp only [Partial.Fits, Nat.isValidChar, Nat.reduceSub, Nat.reducePow, UInt8.le_iff_toNat_le, hlow, hhigh]
  · decide
  · split <;> decide
  · split <;> split <;> omega
  · split <;> decide
  · intro x
    split <;> split <;> omega
  · intro c
    have hc := leadValue_cases c
    constructor
    · intro hb
      refine ⟨c.toNat % 4096, ?_⟩
      split <;> split <;> omega
    · rintro ⟨x, hx, hcx⟩
      split at hx <;> split at hx <;> omega
  · intro c hc
    obtain ⟨n, hn, _, _, htwo, _⟩ := utf8EncodeChar_lead c
    rw [hn, ← hc, UInt8.ofNat_toNat, htwo (by omega) (by omega)]

theorem lead_four {b : UInt8} (hl : 240 ≤ b.toNat) (hh : b.toNat < 245) :
    Opens [b] ⟨3, if b.toNat = 240 then 0x90 else 0x80, if b.toNat = 244 then 0x8f else 0xbf, b.toNat - 240⟩ := by
  have hlow : (if b.toNat = 240 then 0x90 else 0x80 : UInt8).toNat = if b.toNat = 240 then 144 else 128 := by
    split <;> rfl
  have hhigh : (if b.toNat = 244 then 0x8f else 0xbf : UInt8).toNat = if b.toNat = 244 then 143 else 191 := by
    split <;> rfl
  apply of_lead <;>
    simp only [Partial.Fits, Nat.isValidChar, Nat.reduceSub, Nat.reducePow, UInt8.le_iff_toNat_le, hlow, hhigh]
  · decide
  · split <;> decide
  · split <;> split <;> omega
  · split <;> decide
  · intro x
    split <;> split <;> omega
  · intro c
    have hc := leadValue_cases c
    constructor
    · intro hb
      refine ⟨c.toNat % 262144, ?_⟩
      split <;> split <;> omega
    · rintro ⟨x, hx, hcx⟩
      split at hx <;> split at hx <;> omega
  · intro c hc
    obtain ⟨n, hn, _, _, _, hthree⟩ := utf8EncodeChar_lead c
    rw [hn, ← hc, UInt8.ofNat_toNat, hthree (by omega)]

theorem lead {b : UInt8} {p : Partial} (h : leadByte b = ([], some p)) : Opens [b] p := by
  rw [leadByte_eq] at h
  split at h
  · cases h
  split at h
  · cases h
  split at h
  · cases h
    exact lead_two (by omega) ‹_›
  split at h
  · cases h
    exact lead_three (by omega) ‹_›
  · cases h
    exact lead_four (by omega) (by omega)

variable {part : List UInt8} {p : Partial} {b : UInt8}

theorem exists_need (h : Opens part p) : ∃ n, p.need = n + 1 := ⟨p.need - 1, by have := h.need_pos; omega⟩

theorem fits (h : Opens part p) (hl : p.low ≤ b) (hh : b ≤ p.high) {y : Nat} (hy : y < 64 ^ (p.need - 1)) :
    p.Fits ((b.toNat - 128) * 64 ^ (p.need - 1) + y) ∧
      tail p.need ((b.toNat - 128) * 64 ^ (p.need - 1) + y) = b :: tail (p.need - 1) y := by
  obtain ⟨n, hn⟩ := h.exists_need
  have hlow := h.low_le
  have hhigh := h.high_le
  rw [UInt8.le_iff_toNat_le] at hl hh
  rw [hn, Nat.add_sub_cancel] at hy
  have hpos : 0 < 64 ^ n := Nat.pow_pos (by decide)
  have hdiv : ((b.toNat - 128) * 64 ^ n + y) / 64 ^ n = b.toNat - 128 := by
    rw [Nat.add_comm, Nat.add_mul_div_right _ _ hpos, Nat.div_eq_of_lt hy, Nat.zero_add]
  have hlt : (b.toNat - 128) * 64 ^ n + y < 64 ^ (n + 1) := by
    rw [Nat.pow_succ', ← Nat.div_lt_iff_lt_mul hpos, hdiv]
    omega
  rw [Partial.Fits, hn, Nat.add_sub_cancel, tail, hdiv]
  refine ⟨⟨hlt, by omega, by omega⟩, ?_⟩
  have hb : UInt8.ofNat ((b.toNat - 128) % 64 + 128) = b := by
    rw [← UInt8.toNat_inj, UInt8.toNat_ofNat']
    omega
  rw [hb]
  apply congrArg (b :: ·)
  apply tail_congr
  rw [Nat.mul_add_mod_self_right]

theorem encode_of_only (h : Opens part p) {c : Char} (hc : part <+: utf8EncodeChar c) :
    ∃ x, p.Fits x ∧ c.toNat = p.value * 64 ^ p.need + x ∧ utf8EncodeChar c = part ++ tail p.need x := by
  obtain ⟨x, hx, hcx⟩ := h.only c hc
  obtain ⟨c', hc', henc⟩ := h.complete x hx
  obtain rfl : c' = c := Char.toNat_inj.mp (hc'.trans hcx.symm)
  exact ⟨x, hx, hcx, henc⟩

theorem byte_of_prefix (h : Opens part p) {c : Char} (hc : part ++ [b] <+: utf8EncodeChar c) :
    ∃ n x, p.need = n + 1 ∧ p.Fits x ∧ c.toNat = p.value * 64 ^ p.need + x ∧
      utf8EncodeChar c = part ++ tail p.need x ∧ x / 64 ^ n < 64 ∧ b.toNat = x / 64 ^ n + 128 := by
  obtain ⟨n, hn⟩ := h.exists_need
  obtain ⟨x, hx, hcx, henc⟩ := h.encode_of_only ((List.prefix_append part [b]).trans hc)
  have hlt : x / 64 ^ n < 64 := by
    have hx := hx.1
    rwa [hn, Nat.pow_succ', ← Nat.div_lt_iff_lt_mul (Nat.pow_pos (by decide))] at hx
  refine ⟨n, x, hn, hx, hcx, henc, hlt, ?_⟩
  rw [henc, hn, List.prefix_append_right_inj, tail, List.cons_prefix_cons, ← UInt8.toNat_inj,
    UInt8.toNat_ofNat'] at hc
  generalize x / 64 ^ n = q at hlt hc ⊢
  omega

theorem continues_iff (h : Opens part p) :
    (p.low ≤ b ∧ b ≤ p.high) ↔ ∃ c, part ++ [b] <+: utf8EncodeChar c := by
  constructor
  · rintro ⟨hl, hh⟩
    obtain ⟨hfit, htail⟩ := h.fits hl hh (Nat.pow_pos (by decide))
    obtain ⟨c, _, henc⟩ := h.complete _ hfit
    refine ⟨c, ?_⟩
    rw [henc, htail, List.prefix_append_right_inj, List.cons_prefix_cons]
    exact ⟨rfl, List.nil_prefix⟩
  · rintro ⟨c, hc⟩
    obtain ⟨n, x, hn, ⟨_, hlow, hhigh⟩, _, _, _, hb⟩ := h.byte_of_prefix hc
    rw [hn, Nat.add_sub_cancel] at hlow hhigh
    rw [UInt8.le_iff_toNat_le, UInt8.le_iff_toNat_le]
    omega

theorem unfinished (h : Opens part p) : Unfinished part := by
  obtain ⟨hfit, htail⟩ := h.fits UInt8.le_rfl h.low_le_high (Nat.pow_pos (by decide))
  obtain ⟨c, _, henc⟩ := h.complete _ hfit
  rw [htail] at henc
  refine ⟨c, henc ▸ List.prefix_append part _, ?_⟩
  rw [henc]
  exact fun he => absurd (List.self_eq_append_right.mp he) (List.cons_ne_nil _ _)

theorem last (h : Opens part p) (hl : p.low ≤ b) (hh : b ≤ p.high) (hn : p.need = 1) :
    utf8EncodeChar (Char.ofNat (p.value * 64 + (b.toNat - 128))) = part ++ [b] := by
  obtain ⟨hfit, htail⟩ := h.fits hl hh (y := 0) (Nat.pow_pos (by decide))
  obtain ⟨c, hc, henc⟩ := h.complete _ hfit
  simp only [hn, Nat.sub_self, Nat.pow_zero, Nat.pow_one, Nat.mul_one, Nat.add_zero] at hc htail henc
  rw [← hc, Char.ofNat_toNat, henc, htail, tail]

theorem next (h : Opens part p) (hl : p.low ≤ b) (hh : b ≤ p.high) {n : Nat} (hn : p.need = n + 2) :
    Opens (part ++ [b]) ⟨n + 1, 0x80, 0xbf, p.value * 64 + (b.toNat - 128)⟩ where
  need_pos := Nat.succ_pos n
  low_le := Nat.le_refl 0x80
  low_le_high := show (0x80 : UInt8) ≤ 0xbf by decide
  high_le := Nat.le_refl 0xbf
  complete y hy := by
    obtain ⟨hy, _⟩ := hy
    obtain ⟨hfit, htail⟩ := h.fits hl hh (y := y) (by rwa [hn])
    obtain ⟨c, hc, henc⟩ := h.complete _ hfit
    rw [htail, hn, List.append_cons] at henc
    refine ⟨c, ?_, henc⟩
    rw [hc, hn, Nat.add_mul, Nat.mul_assoc, ← Nat.pow_succ', Nat.add_assoc]
    rfl
  only c hc := by
    obtain ⟨k, x, hk, ⟨hx, _⟩, hcx, _, hlt, hb⟩ := h.byte_of_prefix hc
    obtain rfl : k = n + 1 := by omega
    have hdiv : (x % 64 ^ (n + 1)) / 64 ^ n < 64 := by
      rw [Nat.div_lt_iff_lt_mul (Nat.pow_pos (by decide)), ← Nat.pow_succ']
      exact Nat.mod_lt _ (Nat.pow_pos (by decide))
    have hval : b.toNat - 128 = x / 64 ^ (n + 1) := by rw [hb, Nat.add_sub_cancel]
    refine ⟨x % 64 ^ (n + 1), ⟨Nat.mod_lt _ (Nat.pow_pos (by decide)), Nat.le_add_left _ _, ?_⟩, ?_⟩
    · exact Nat.add_le_add_right (Nat.le_of_lt_succ hdiv) 128
    · rw [hcx, hn, hval, Nat.add_mul, Nat.mul_assoc, ← Nat.pow_succ', Nat.add_assoc, Nat.div_add_mod']

end Opens

section Decode

variable {part bs : List UInt8} {p : Partial} {b : UInt8}

theorem lossy_append (as bs : List UInt8) :
    lossy (as ++ bs) =
      (decode none as).1 ++ ((decode (decode none as).2 bs).1 ++ flush (decode (decode none as).2 bs).2) := by
  rw [lossy, decode_append, List.append_assoc]

theorem decode_prefix_lossy (as bs : List UInt8) : (decode none as).1 <+: lossy (as ++ bs) := by
  rw [lossy_append]
  exact List.prefix_append _ _

theorem lossy_of_decode {cs : List Char} (h : decode none bs = (cs, none)) : lossy bs = cs := by
  rw [lossy, h]
  exact List.append_nil cs

theorem lossy_append_of_none {as : List UInt8} (h : (decode none as).2 = none) (bs : List UInt8) :
    lossy (as ++ bs) = (decode none as).1 ++ lossy bs := by
  rw [lossy_append, h]
  rfl

theorem lossy_cons (b : UInt8) (bs : List UInt8) :
    lossy (b :: bs) =
      (leadByte b).1 ++ ((decode (leadByte b).2 bs).1 ++ flush (decode (leadByte b).2 bs).2) := by
  rw [lossy, decode, List.append_assoc]
  rfl

theorem decode_anew (hb : ¬ (p.low ≤ b ∧ b ≤ p.high)) (bs : List UInt8) :
    decode (some p) (b :: bs) = (replacement :: (decode none (b :: bs)).1, (decode none (b :: bs)).2) := by
  have hbyte : decodeByte (some p) b = (replacement :: (leadByte b).1, (leadByte b).2) := by rw [decodeByte, if_neg hb]
  simp only [decode, hbyte, decodeByte_none, List.cons_append]

theorem decode_broken (hb : ¬ (p.low ≤ b ∧ b ≤ p.high)) (bs : List UInt8) :
    (decode (some p) (b :: bs)).1 ++ flush (decode (some p) (b :: bs)).2 = replacement :: lossy (b :: bs) := by
  rw [decode_anew hb]
  rfl

theorem decode_next (hdec : decode none part = ([], some p)) (hl : p.low ≤ b) (hh : b ≤ p.high) {n : Nat}
    (hn : p.need = n + 2) :
    decode none (part ++ [b]) = ([], some ⟨n + 1, 0x80, 0xbf, p.value * 64 + (b.toNat - 128)⟩) := by
  rw [decode_append, hdec, decode, decodeByte, if_pos ⟨hl, hh⟩, if_neg (by omega), hn]
  rfl

theorem leadByte_cases (b : UInt8) :
    b.toNat < 128 ∧ leadByte b = ([Char.ofNat b.toNat], none) ∨ leadByte b = ([replacement], none) ∨
      ∃ p, leadByte b = ([], some p) := by
  rw [leadByte_eq]
  split
  · exact .inl ⟨‹_›, rfl⟩
  split
  · exact .inr (.inl rfl)
  split
  · exact .inr (.inr ⟨_, rfl⟩)
  split <;> exact .inr (.inr ⟨_, rfl⟩)

theorem leadByte_of_stray (hb : ∀ c, ¬ [b] <+: utf8EncodeChar c) : leadByte b = ([replacement], none) := by
  rcases leadByte_cases b with ⟨hlt, _⟩ | hlead | ⟨p, hlead⟩
  · exact absurd (utf8EncodeChar_ofByte hlt ▸ List.prefix_rfl) (hb (Char.ofNat b.toNat))
  · exact hlead
  · obtain ⟨c, hc, _⟩ := (Opens.lead hlead).unfinished
    exact absurd hc (hb c)

theorem length_tail (n x : Nat) : (tail n x).length = n := by
  induction n with
  | zero => rfl
  | succ n ih => rw [tail, List.length_cons, ih]

theorem Unfinished.opens (hu : Unfinished part) (hp : part ≠ []) :
    ∃ p, decode none part = ([], some p) ∧ Opens part p := by
  induction part using List.reverseRecOn with
  | nil => exact absurd rfl hp
  | append_singleton part b ih =>
    obtain ⟨c, hc, hne⟩ := hu
    cases part with
    | nil =>
      rcases leadByte_cases b with ⟨hlt, _⟩ | hb | ⟨p, hb⟩
      · have hlead := singleton_prefix_iff.mp hc
        have hcases := leadValue_cases c
        have hcode : c.toNat = b.toNat := by omega
        rw [utf8EncodeChar_of_lt (by omega), hcode, UInt8.ofNat_toNat] at hne
        exact absurd rfl hne
      · exact absurd hc (not_prefix_of_leadByte hb c)
      · refine ⟨p, ?_, .lead hb⟩
        rw [List.nil_append, decode, decodeByte_none, hb]
        rfl
    | cons a part =>
      have hpart : Unfinished (a :: part) := by
        refine ⟨c, (List.prefix_append _ [b]).trans hc, ?_⟩
        intro he
        have hle := (he ▸ hc).length_le
        rw [List.length_append, List.length_singleton] at hle
        omega
      obtain ⟨p, hdec, hopen⟩ := ih hpart (List.cons_ne_nil a part)
      obtain ⟨hl, hh⟩ := hopen.continues_iff.mpr ⟨c, hc⟩
      obtain ⟨n, x, hn, _, _, henc, _⟩ := hopen.byte_of_prefix hc
      cases n with
      | zero =>
        refine absurd (hc.eq_of_length ?_) hne
        rw [henc, List.length_append, List.length_append, length_tail, hn, List.length_singleton]
      | succ n =>
        exact ⟨_, decode_next hdec hl hh hn, hopen.next hl hh hn⟩

theorem Unfinished.stops (hu : Unfinished part) (hp : part ≠ []) (hb : ∀ c, ¬ part ++ [b] <+: utf8EncodeChar c) :
    ∃ p, decode none part = ([], some p) ∧ ¬ (p.low ≤ b ∧ b ≤ p.high) := by
  obtain ⟨p, hdec, hopen⟩ := hu.opens hp
  refine ⟨p, hdec, fun h => ?_⟩
  obtain ⟨c, hc⟩ := hopen.continues_iff.mp h
  exact hb c hc

theorem Opens.lossy (h : Opens part p) (hp : part ≠ []) (hdec : decode none part = ([], some p))
    (ih : ∀ ds : List UInt8, ds.length < (part ++ bs).length → Lossy ds (Text.lossy ds)) :
    Lossy (part ++ bs) (Text.lossy (part ++ bs)) := by
  induction bs generalizing part p with
  | nil =>
    rw [List.append_nil, Text.lossy, hdec]
    exact .truncated hp h.unfinished
  | cons b bs hrest =>
    by_cases hb : p.low ≤ b ∧ b ≤ p.high
    · obtain ⟨hl, hh⟩ := hb
      obtain ⟨n, hn⟩ := h.exists_need
      rw [List.append_cons] at ih ⊢
      cases n with
      | zero =>
        have hchar := h.last hl hh hn
        have hdec' : decode none (part ++ [b]) = ([Char.ofNat (p.value * 64 + (b.toNat - 128))], none) := by
          rw [← hchar, decode_utf8EncodeChar]
        rw [lossy_append_of_none (congrArg Prod.snd hdec'), hdec', ← hchar]
        refine .char _ (ih bs ?_)
        rw [List.length_append, List.length_append, List.length_singleton]
        omega
      | succ n =>
        exact hrest (h.next hl hh hn) (by simp) (decode_next hdec hl hh hn) ih
    · have hbad : ∀ c, ¬ part ++ [b] <+: utf8EncodeChar c := fun c hc => hb (h.continues_iff.mpr ⟨c, hc⟩)
      rw [lossy_append, hdec, decode_broken hb]
      refine .broken hp h.unfinished hbad (ih (b :: bs) ?_)
      have := List.length_pos_iff.mpr hp
      rw [List.length_append]
      omega

theorem lossy_lossy (bs : List UInt8) : Lossy bs (lossy bs) := by
  induction hn : bs.length using Nat.strongRecOn generalizing bs with
  | ind n ih =>
  subst hn
  cases bs with
  | nil => exact .nil
  | cons b bs =>
    have hrest : Lossy bs (lossy bs) := ih bs.length (by simp) bs rfl
    rcases leadByte_cases b with ⟨hlt, hb⟩ | hb | ⟨p, hb⟩
    · have h := hrest.char (Char.ofNat b.toNat)
      rw [utf8EncodeChar_ofByte hlt] at h
      rw [lossy_cons, hb]
      exact h
    · rw [lossy_cons, hb]
      exact .stray (not_prefix_of_leadByte hb) hrest
    · have hdec : decode none [b] = ([], some p) := by
        rw [decode, decodeByte_none, hb]
        rfl
      exact (Opens.lead hb).lossy (List.cons_ne_nil b []) hdec fun ds hds => ih ds.length hds ds rfl

theorem Lossy.eq_lossy {bs : List UInt8} {cs : List Char} (h : Lossy bs cs) : cs = lossy bs := by
  induction h with
  | nil => rfl
  | @char bs cs c _ ih =>
    rw [lossy_append_of_none (by rw [decode_utf8EncodeChar]), decode_utf8EncodeChar, ih]
    rfl
  | stray hb _ ih =>
    rw [lossy_cons, leadByte_of_stray hb, ih]
    rfl
  | broken hp hu hb _ ih =>
    obtain ⟨p, hdec, hout⟩ := hu.stops hp hb
    rw [lossy_append, hdec, decode_broken hout, ih]
    rfl
  | truncated hp hu =>
    obtain ⟨p, hdec, _⟩ := hu.opens hp
    rw [lossy, hdec]
    rfl

theorem Lossy.length_le {bs : List UInt8} {cs : List Char} (h : Lossy bs cs) : cs.length ≤ bs.length := by
  induction h with
  | nil => exact Nat.le_refl 0
  | char c _ ih =>
    have := length_utf8EncodeChar_pos c
    rw [List.length_cons, List.length_append]
    omega
  | stray _ _ ih => exact Nat.succ_le_succ ih
  | broken hp _ _ _ ih =>
    have := List.length_pos_iff.mpr hp
    rw [List.length_cons, List.length_append]
    omega
  | truncated hp _ => exact List.length_pos_iff.mpr hp

theorem lossy_iff {bs : List UInt8} {cs : List Char} : Lossy bs cs ↔ cs = lossy bs :=
  ⟨Lossy.eq_lossy, fun h => h ▸ lossy_lossy bs⟩

end Decode

end DialectRegex.Text
