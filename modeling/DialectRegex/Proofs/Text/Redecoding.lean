import DialectRegex.Proofs.Text.Lossy

namespace DialectRegex.Text

open String (utf8EncodeChar)

section Loop

variable {v : Utf8Check} {bs pending : List UInt8} {p : Option Partial}

structure Holds (pending : List UInt8) (p : Option Partial) : Prop where
  decode_eq : decode none pending = ([], p)
  isEmpty_eq : pending.isEmpty = p.isNone

theorem Holds.nil : Holds [] none := ⟨rfl, rfl⟩

theorem Holds.unfinished {part : List UInt8} (hp : part ≠ []) (hu : Unfinished part) : ∃ p, Holds part p := by
  obtain ⟨p, hdec, _⟩ := hu.opens hp
  exact ⟨some p, hdec, List.isEmpty_eq_false_iff.mpr hp⟩

theorem Holds.decode (h : Holds pending p) (bs : List UInt8) : Text.decode none (pending ++ bs) = Text.decode p bs := by
  rw [decode_append, h.decode_eq]
  rfl

theorem Holds.flush (h : Holds pending p) : flush p = if pending.isEmpty then [] else [replacement] := by
  rw [Text.flush, h.isEmpty_eq]
  cases p <;> rfl

theorem decode_valid (cs : List Char) (bs : List UInt8) :
    decode none (cs.flatMap utf8EncodeChar ++ bs) = (cs ++ (decode none bs).1, (decode none bs).2) := by
  rw [decode_append, decode_flatMap]

theorem Checked.decode_invalid {cs : List Char} {n len : Nat} (h : Checked bs ⟨cs, n, some (.invalid len)⟩) :
    decode none bs =
      (cs ++ replacement :: (decode none (bs.drop (n + len))).1, (decode none (bs.drop (n + len))).2) := by
  cases h with
  | stray _ bs hb =>
    rw [decode_valid, decode, decodeByte_none, leadByte_of_stray hb, ← List.drop_drop, List.drop_left]
    rfl
  | broken _ bs hp hu hb =>
    obtain ⟨p, hdec, hout⟩ := hu.stops hp hb
    rw [decode_valid, decode_append, hdec, decode_anew hout, ← List.drop_drop, List.drop_left, List.drop_left]
    rfl

/-- The loop gives the characters of the byte automaton, and keeps what it holds open. -/
theorem redecode_eq (v : Utf8Check) (bs : List UInt8) :
    ∃ p, decode none bs = ((redecode v bs).1, p) ∧ Holds (redecode v bs).2 p := by
  fun_induction redecode v bs with
  | case1 bs cs n h =>
    have hchecked := v.checked bs
    rw [h] at hchecked
    cases hchecked
    exact ⟨none, decode_flatMap cs, .nil⟩
  | case2 bs cs n h =>
    have hchecked := v.checked bs
    rw [h] at hchecked
    cases hchecked with
    | incomplete _ hp hu =>
      obtain ⟨p, hp⟩ := Holds.unfinished hp hu
      refine ⟨p, ?_, ?_⟩
      · rw [decode_valid, hp.decode_eq, List.append_nil]
      · rwa [List.drop_left]
  | case3 bs cs n len h ds rest hrest ih =>
    have hchecked := v.checked bs
    rw [h] at hchecked
    obtain ⟨p, hdec, hp⟩ := ih
    rw [hrest] at hdec hp
    refine ⟨p, ?_, hp⟩
    rw [hchecked.decode_invalid, hdec]

theorem Holds.redecode (h : Holds pending p) (v : Utf8Check) (bs : List UInt8) :
    (Text.redecode v (pending ++ bs)).1 = (Text.decode p bs).1 ∧
      Holds (Text.redecode v (pending ++ bs)).2 (Text.decode p bs).2 := by
  obtain ⟨p', hdec, hp'⟩ := redecode_eq v (pending ++ bs)
  rw [h.decode] at hdec
  rw [hdec]
  exact ⟨rfl, hp'⟩

end Loop

section Scan

variable {b : UInt8} {bs : List UInt8}

def ScansBetween (bs : List UInt8) : Prop :=
  ∀ cs : List Char, Checked (cs.flatMap utf8EncodeChar ++ bs) (scan cs (cs.flatMap utf8EncodeChar).length 0 none bs)

def ScansInside (bs : List UInt8) : Prop :=
  ∀ (cs : List Char) (part : List UInt8) (p : Partial), part ≠ [] → Opens part p →
    Checked (cs.flatMap utf8EncodeChar ++ (part ++ bs))
      (scan cs (cs.flatMap utf8EncodeChar).length part.length (some p) bs)

theorem ScansBetween.append (h : ScansBetween bs) {c : Char} {n : Nat} (hn : (utf8EncodeChar c).length = n)
    (cs : List Char) : Checked (cs.flatMap utf8EncodeChar ++ (utf8EncodeChar c ++ bs))
      (scan (cs ++ [c]) ((cs.flatMap utf8EncodeChar).length + n) 0 none bs) := by
  have hcs := h (cs ++ [c])
  rwa [List.flatMap_append, List.flatMap_singleton, List.length_append, hn, List.append_assoc] at hcs

theorem scansBetween_cons (hbetween : ScansBetween bs) (hinside : ScansInside bs) : ScansBetween (b :: bs) := by
  intro cs
  rw [scan]
  rcases leadByte_cases b with ⟨hlt, hb⟩ | hb | ⟨p, hb⟩
  · have hascii : b < 0x80 := hlt
    have hchar := utf8EncodeChar_ofByte hlt
    rw [hb]
    dsimp only
    rw [if_pos hascii, ← List.singleton_append, ← hchar]
    exact hbetween.append (by rw [hchar]; rfl) cs
  · have hnot : ¬b < 0x80 := by
      intro hlt
      have hbegins := not_prefix_of_leadByte hb (Char.ofNat b.toNat)
      rw [utf8EncodeChar_ofByte hlt] at hbegins
      exact hbegins List.prefix_rfl
    rw [hb]
    dsimp only
    rw [if_neg hnot]
    exact .stray cs bs (not_prefix_of_leadByte hb)
  · rw [hb]
    exact hinside cs [b] p (List.cons_ne_nil b []) (.lead hb)

theorem scansInside_cons (hbetween : ScansBetween bs) (hinside : ScansInside bs) : ScansInside (b :: bs) := by
  intro cs part p hp h
  rw [scan]
  by_cases hb : p.low ≤ b ∧ b ≤ p.high
  · obtain ⟨hl, hh⟩ := hb
    obtain ⟨n, hn⟩ := h.exists_need
    rw [if_pos ⟨hl, hh⟩, decodeByte, if_pos ⟨hl, hh⟩, List.append_cons]
    cases n with
    | zero =>
      have hchar := h.last hl hh hn
      rw [if_pos (Nat.le_of_eq hn), ← hchar]
      exact hbetween.append (by rw [hchar, List.length_append]; rfl) cs
    | succ n =>
      have hnext := hinside cs (part ++ [b]) _ (by simp) (h.next hl hh hn)
      rw [if_neg (by omega), hn]
      rwa [List.length_append] at hnext
  · rw [if_neg hb]
    exact .broken cs bs hp h.unfinished fun c hc => hb (h.continues_iff.mpr ⟨c, hc⟩)

theorem scan_checked (bs : List UInt8) : ScansBetween bs ∧ ScansInside bs := by
  induction bs with
  | nil =>
    constructor
    · intro cs
      rw [List.append_nil]
      exact .valid cs
    · intro cs part p hp h
      rw [List.append_nil]
      exact .incomplete cs hp h.unfinished
  | cons b bs ih => exact ⟨scansBetween_cons ih.1 ih.2, scansInside_cons ih.1 ih.2⟩

def Utf8Check.plain : Utf8Check where
  check := scan [] 0 0 none
  checked bs := (scan_checked bs).1 []

end Scan

end DialectRegex.Text
