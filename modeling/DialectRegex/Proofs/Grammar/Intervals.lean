import DialectRegex.Proofs.Grammar.Counting
import DialectRegex.Proofs.Grammar.Faults

namespace DialectRegex

open Nat (ofDigitChars)

namespace Dialect

def opening (d : Dialect) : List Char := if d.has .bareBraces then ['\x7b'] else ['\\', '\x7b']

def closing (d : Dialect) : List Char := if d.has .bareBraces then ['\x7d'] else ['\\', '\x7d']

inductive SpellsInterval (d : Dialect) : List Char → Bounds → List Char → Prop
  | exactly {lo : List Char} (hlo : ∀ c ∈ lo, c.isDigit = true) (rest : List Char) :
      SpellsInterval d (lo ++ (d.closing ++ rest)) ⟨ofDigitChars 10 lo 0, some (ofDigitChars 10 lo 0)⟩ rest
  | atLeast {lo : List Char} (hlo : ∀ c ∈ lo, c.isDigit = true) (rest : List Char) :
      SpellsInterval d (lo ++ ',' :: (d.closing ++ rest)) ⟨ofDigitChars 10 lo 0, none⟩ rest
  | between {lo hi : List Char} (hlo : ∀ c ∈ lo, c.isDigit = true) (hhi : ∀ c ∈ hi, c.isDigit = true) (hne : hi ≠ [])
      (rest : List Char) :
      SpellsInterval d (lo ++ ',' :: (hi ++ (d.closing ++ rest)))
        ⟨ofDigitChars 10 lo 0, some (ofDigitChars 10 hi 0)⟩ rest

end Dialect

def Bounds.Fit (b : Bounds) : Prop := b.min ≤ greatestBound ∧ ∀ m ∈ b.max, m ≤ greatestBound

section Numbers

variable {cs rest : List Char}

theorem readDigits_eq_some {n m : Nat} (h : readDigits n cs = some (m, rest)) :
    ∃ ds, cs = ds ++ rest ∧ (∀ c ∈ ds, c.isDigit = true) ∧ (∀ c ∈ rest.head?, c.isDigit = false) ∧
      m = ofDigitChars 10 ds n := by
  fun_induction readDigits n cs with
  | case1 n =>
    cases h
    exact ⟨[], rfl, by simp, by simp, Nat.ofDigitChars_nil.symm⟩
  | case2 n c cs hc =>
    cases h
    have hnot : c.isDigit = false := by simpa [Text.digit?] using hc
    exact ⟨[], rfl, by simp, by simpa using hnot, Nat.ofDigitChars_nil.symm⟩
  | case3 => cases h
  | case4 n c cs k hc _ ih =>
    obtain ⟨ds, rfl, hds, hrest, hm⟩ := ih h
    rw [Text.digit?, Option.ite_none_right_eq_some] at hc
    obtain ⟨hdigit, hk⟩ := hc
    cases hk
    exact ⟨c :: ds, rfl, List.forall_mem_cons.mpr ⟨hdigit, hds⟩, hrest, by rw [Nat.ofDigitChars_cons, hm]⟩

theorem readBound_eq_some {b : Option Nat} (h : readBound cs = some (b, rest)) :
    ∃ ds, cs = ds ++ rest ∧ (∀ c ∈ ds, c.isDigit = true) ∧ b = numeral? ds ∧ ofDigitChars 10 ds 0 ≤ greatestBound := by
  have hle := readBound_le h
  rw [readBound.eq_def] at h
  split at h
  · cases h
    exact ⟨[], rfl, by simp, rfl, Nat.zero_le _⟩
  · next c cs =>
    split at h
    · next hdigit =>
      obtain ⟨⟨m, r⟩, hr, he⟩ := Option.map_eq_some_iff.mp h
      cases he
      obtain ⟨ds, hcs, hds, hrest, rfl⟩ := readDigits_eq_some hr
      refine ⟨ds, hcs, hds, ?_, hle _ rfl⟩
      -- the digits are not empty, since they stop before a character that is no digit
      rw [numeral?, if_neg]
      rintro rfl
      rw [List.nil_append] at hcs
      rw [← hcs] at hrest
      rw [hrest c rfl] at hdigit
      cases hdigit
    · cases h
      exact ⟨[], rfl, by simp, rfl, Nat.zero_le _⟩

end Numbers

section Interval

variable {d : Dialect} {cs text after rest : List Char} {b : Bounds} {f : Flaw}

theorem closeInterval_eq_some_iff : closeInterval d cs = some rest ↔ cs = d.closing ++ rest := by
  rw [Dialect.closing]
  constructor
  · intro h
    rw [closeInterval.eq_def] at h
    split at h
    · rw [Option.ite_none_right_eq_some] at h
      obtain ⟨hb, hr⟩ := h
      cases hr
      rw [if_pos hb, List.singleton_append]
    · rw [Option.ite_none_left_eq_some] at h
      obtain ⟨hb, hr⟩ := h
      cases hr
      rw [if_neg hb]
      rfl
    · cases h
  · rintro rfl
    split
    · next hb => exact if_pos hb
    · next hb => exact if_neg hb

theorem escapedOperator?_intervalOpen {c : Char} (h : d.escapedOperator? c cs = some .intervalOpen) :
    c = '\x7b' ∧ d.has .bareBraces = false := by
  rw [Dialect.escapedOperator?.eq_def] at h
  split at h
  case h_4 =>
    rw [Option.ite_none_right_eq_some, Bool.and_eq_true] at h
    exact ⟨rfl, by simpa using h.1.1⟩
  all_goals simp at h

theorem bareOperator?_intervalOpen {c : Char} (h : d.bareOperator? c cs = some .intervalOpen) :
    c = '\x7b' ∧ d.has .bareBraces = true := by
  rw [Dialect.bareOperator?.eq_def] at h
  split at h
  case h_5 =>
    rw [Option.ite_none_right_eq_some, Bool.and_eq_true] at h
    exact ⟨rfl, h.1.1⟩
  all_goals simp at h

theorem opening_of_spells (h : d.Spells .intervalOpen text after) : text = d.opening ++ after := by
  obtain ⟨n, hop, rfl⟩ := h
  rw [Dialect.operator?.eq_def] at hop
  split at hop
  · next c rest =>
    obtain ⟨_, hc, he⟩ := Option.map_eq_some_iff.mp hop
    cases he
    obtain ⟨rfl, hb⟩ := escapedOperator?_intervalOpen hc
    rw [Dialect.opening, hb]
    rfl
  · next c rest _ =>
    obtain ⟨_, hc, he⟩ := Option.map_eq_some_iff.mp hop
    cases he
    obtain ⟨rfl, hb⟩ := bareOperator?_intervalOpen hc
    rw [Dialect.opening, hb]
    rfl
  · cases hop

namespace Dialect.SpellsInterval

theorem read (h : d.SpellsInterval after b rest) (hfit : b.Fit) :
    readInterval d after =
      match b.max with
      | none => .ok (b, rest)
      | some hi => if hi < b.min then .error (.reversedBounds b.min hi) else .ok (b, rest) := by
  have hclose : closeInterval d (d.closing ++ rest) = some rest := closeInterval_eq_some_iff.mpr rfl
  cases h with
  | exactly hlo rest =>
    rw [readInterval_exactly_digits hclose hlo hfit.1]
    exact (if_neg (Nat.lt_irrefl _)).symm
  | atLeast hlo rest => rw [readInterval_atLeast_digits hclose hlo hfit.1]
  | between hlo hhi hne rest => rw [readInterval_between_digits hclose hlo hfit.1 hhi hne (hfit.2 _ rfl)]

end Dialect.SpellsInterval

theorem exists_spellsInterval (h : readInterval d after ≠ .error .malformedInterval) :
    ∃ b rest, d.SpellsInterval after b rest ∧ b.Fit := by
  rw [readInterval.eq_def] at h
  split at h
  · exact absurd rfl h
  · next lo mid hlo =>
    obtain ⟨ds, rfl, hds, rfl, hle⟩ := readBound_eq_some hlo
    split at h
    · exact absurd rfl h
    · next hi last hhi =>
      obtain ⟨es, rfl, hes, rfl, hle'⟩ := readBound_eq_some hhi
      split at h
      · exact absurd rfl h
      · next rest hclose =>
        obtain rfl := closeInterval_eq_some_iff.mp hclose
        by_cases hne : es = []
        · subst hne
          exact ⟨_, rest, .atLeast hds rest, hle, by simp⟩
        · exact ⟨_, rest, .between hds hes hne rest, hle, by simpa using hle'⟩
  · next lo last _ hlo =>
    obtain ⟨ds, rfl, hds, rfl, hle⟩ := readBound_eq_some hlo
    split at h
    · exact absurd rfl h
    · next rest hclose =>
      obtain rfl := closeInterval_eq_some_iff.mp hclose
      exact ⟨_, rest, .exactly hds rest, hle, by simpa using hle⟩

section Outcome

theorem readInterval_eq_ok_iff :
    readInterval d after = .ok (b, rest) ↔ d.SpellsInterval after b rest ∧ b.Fit ∧ InOrder b.min b.max := by
  constructor
  · intro h
    have hne : readInterval d after ≠ .error .malformedInterval := by simp [h]
    obtain ⟨b', rest', hs, hfit⟩ := exists_spellsInterval hne
    rw [hs.read hfit] at h
    split at h
    · next hmax =>
      cases h
      refine ⟨hs, hfit, ?_⟩
      intro m hm
      cases hmax.symm.trans hm
    · next hi hmax =>
      split at h
      · cases h
      · next hle =>
        cases h
        refine ⟨hs, hfit, ?_⟩
        intro m hm
        obtain rfl : hi = m := Option.some.inj (hmax.symm.trans hm)
        exact Nat.not_lt.mp hle
  · rintro ⟨hs, hfit, horder⟩
    rw [hs.read hfit]
    split
    · rfl
    · next hi hmax => exact if_neg (Nat.not_lt.mpr (horder hi hmax))

theorem readInterval_eq_reversed_iff {lo hi : Nat} :
    readInterval d after = .error (.reversedBounds lo hi) ↔
      hi < lo ∧ ∃ rest, d.SpellsInterval after ⟨lo, some hi⟩ rest ∧ (⟨lo, some hi⟩ : Bounds).Fit := by
  constructor
  · intro h
    have hne : readInterval d after ≠ .error .malformedInterval := by simp [h]
    obtain ⟨⟨lo', max⟩, rest', hs, hfit⟩ := exists_spellsInterval hne
    rw [hs.read hfit] at h
    dsimp only at h
    split at h
    · cases h
    · split at h
      · next hlt =>
        cases h
        exact ⟨hlt, rest', hs, hfit⟩
      · cases h
  · rintro ⟨hlt, rest, hs, hfit⟩
    rw [hs.read hfit]
    exact if_pos hlt

theorem readInterval_eq_malformed_iff :
    readInterval d after = .error .malformedInterval ↔ ∀ b rest, d.SpellsInterval after b rest → ¬ b.Fit := by
  constructor
  · intro h b rest hs hfit
    rw [hs.read hfit] at h
    split at h
    · cases h
    · split at h <;> cases h
  · intro h
    by_contra hne
    obtain ⟨b, rest, hs, hfit⟩ := exists_spellsInterval hne
    exact h b rest hs hfit

end Outcome

namespace Dialect

theorem step_interval (h : d.Spells .intervalOpen text after) {o : Options} {p : Progress} {c : Char}
    {rest : List Char} (hp : p.rest = text) (htext : text = c :: rest) (hr : p.frame.repeatable = true) :
    d.step o p c rest =
      match readInterval d after with
      | .error f => .error ⟨f, text⟩
      | .ok (b, rest) => .ok { p with
          rest := (d.readGreed rest).2
          frame := p.frame.repeatLast o.ignoreCase b.min b.max (d.readGreed rest).1 } := by
  obtain ⟨n, hop, rfl⟩ := h
  rw [step, ← htext, hop]
  dsimp only [applyOperator]
  cases readInterval d (text.drop n) with
  | error f => rw [repetition.eq_def, if_pos hr, hp]
  | ok read => rw [repetition.eq_def, if_pos hr, hp]

/-- What stands between the braces is an interval, or there is none: the bounds are exact, what follows the closing brace
is next, and every fault is reported at the opening brace. -/
theorem interval_exact (h : d.Spells .intervalOpen text after) :
    text = d.opening ++ after ∧
      (∀ b rest, readInterval d after = .ok (b, rest) ↔
        d.SpellsInterval after b rest ∧ b.Fit ∧ InOrder b.min b.max) ∧
      (∀ lo hi, readInterval d after = .error (.reversedBounds lo hi) ↔
        hi < lo ∧ ∃ rest, d.SpellsInterval after ⟨lo, some hi⟩ rest ∧ (⟨lo, some hi⟩ : Bounds).Fit) ∧
      (readInterval d after = .error .malformedInterval ↔ ∀ b rest, d.SpellsInterval after b rest → ¬ b.Fit) ∧
      ∀ o p c rest, p.rest = text → text = c :: rest → p.frame.repeatable = true →
        d.step o p c rest =
          match readInterval d after with
          | .error f => .error ⟨f, text⟩
          | .ok (b, rest) => .ok { p with
              rest := (d.readGreed rest).2
              frame := p.frame.repeatLast o.ignoreCase b.min b.max (d.readGreed rest).1 } :=
  ⟨opening_of_spells h, fun _ _ => readInterval_eq_ok_iff, fun _ _ => readInterval_eq_reversed_iff,
    readInterval_eq_malformed_iff, fun _ _ _ _ => step_interval h⟩

theorem interval_exact_greatest :
    (∃ after p, posixBasic.Spells .intervalOpen "\\\x7b007,18446744073709551615\\\x7dx".toList after ∧
      readInterval posixBasic after = .ok (⟨7, some greatestBound⟩, ['x']) ∧ p.frame.repeatable = true ∧
      posixBasic.step {} p '\\' ('\x7b' :: after) = .ok { p with
        rest := ['x']
        frame := p.frame.repeatLast false 7 (some greatestBound) true }) ∧
      ∃ after, posixBasic.Spells .intervalOpen "\\\x7b7,18446744073709551616\\\x7d".toList after ∧
        ∀ b rest, posixBasic.SpellsInterval after b rest → ¬ b.Fit := by
  constructor
  · let after := "007,18446744073709551615\\\x7dx".toList
    let text := '\\' :: '\x7b' :: after
    let p : Progress := (Progress.start text).push text (.char 'a')
    have hop : posixBasic.Spells .intervalOpen text after := ⟨2, by decide +kernel, rfl⟩
    have hlo : ∀ c ∈ "007".toList, c.isDigit = true := List.all_eq_true.mp (by decide)
    have hhi : ∀ c ∈ "18446744073709551615".toList, c.isDigit = true := List.all_eq_true.mp (by decide)
    have hne : "18446744073709551615".toList ≠ [] := by decide
    have hspelled : posixBasic.SpellsInterval after ⟨7, some greatestBound⟩ ['x'] := .between hlo hhi hne ['x']
    have horder : InOrder 7 (some greatestBound) := by
      rintro m ⟨⟩
      decide
    obtain ⟨_, hok, _, _, hstep⟩ := interval_exact hop
    have hread := (hok _ _).mpr ⟨hspelled, ⟨by decide, by decide⟩, horder⟩
    refine ⟨after, p, hop, hread, rfl, ?_⟩
    rw [hstep {} p '\\' ('\x7b' :: after) rfl rfl rfl, hread]
    rfl
  · have hop : posixBasic.Spells .intervalOpen "\\\x7b7,18446744073709551616\\\x7d".toList
        "7,18446744073709551616\\\x7d".toList := ⟨2, by decide +kernel, rfl⟩
    obtain ⟨_, _, _, hmalformed, _⟩ := interval_exact hop
    exact ⟨_, hop, hmalformed.mp (by decide +kernel)⟩

end Dialect

end Interval

end DialectRegex
