import DialectRegex.CharSet
import DialectRegex.Dialect.Basic
import DialectRegex.PatternError

namespace DialectRegex

/-- Bounds are 64-bit words. -/
def greatestBound : Nat := UInt64.size - 1

def readDigits (n : Nat) : List Char → Option (Nat × List Char)
  | [] => some (n, [])
  | c :: cs =>
    match Text.digit? c with
    | none => some (n, c :: cs)
    | some k => if greatestBound < 10 * n + k then none else readDigits (10 * n + k) cs

/-- A number that may be missing. There is no result if it is too large. -/
def readBound (cs : List Char) : Option (Option Nat × List Char) :=
  match cs with
  | [] => some (none, cs)
  | c :: _ => if c.isDigit then (readDigits 0 cs).map fun (n, rest) => (some n, rest) else some (none, cs)

def closeInterval (d : Dialect) : List Char → Option (List Char)
  | '\x7d' :: rest => if d.has .bareBraces then some rest else none
  | '\\' :: '\x7d' :: rest => if d.has .bareBraces then none else some rest
  | _ => none

structure Bounds where
  min : Nat
  max : Option Nat
deriving DecidableEq, Repr

def readInterval (d : Dialect) (cs : List Char) : Except Flaw (Bounds × List Char) :=
  match readBound cs with
  | none => .error .malformedInterval
  | some (lo, ',' :: rest) =>
    match readBound rest with
    | none => .error .malformedInterval
    | some (hi, rest) =>
      match closeInterval d rest with
      | none => .error .malformedInterval
      | some rest =>
        let lo := lo.getD 0
        match hi with
        | none => .ok (⟨lo, none⟩, rest)
        | some hi => if hi < lo then .error (.reversedBounds lo hi) else .ok (⟨lo, some hi⟩, rest)
  | some (lo, rest) =>
    match closeInterval d rest with
    | none => .error .malformedInterval
    | some rest => .ok (⟨lo.getD 0, some (lo.getD 0)⟩, rest)

theorem readDigits_length {n m : Nat} {cs rest : List Char} (h : readDigits n cs = some (m, rest)) :
    rest.length ≤ cs.length := by
  fun_induction readDigits n cs with
  | case1 => cases h; exact Nat.le_refl _
  | case2 => cases h; exact Nat.le_refl _
  | case3 => cases h
  | case4 _ _ _ _ _ _ ih => exact Nat.le_succ_of_le (ih h)

theorem readBound_length {b : Option Nat} {cs rest : List Char} (h : readBound cs = some (b, rest)) :
    rest.length ≤ cs.length := by
  simp only [readBound] at h
  split at h
  · simp_all
  · split at h
    · obtain ⟨⟨m, r⟩, hr, he⟩ := Option.map_eq_some_iff.mp h
      simp only [Prod.mk.injEq] at he
      exact he.2 ▸ readDigits_length hr
    · simp_all

theorem closeInterval_length {d : Dialect} {cs rest : List Char} (h : closeInterval d cs = some rest) :
    rest.length ≤ cs.length := by
  simp only [closeInterval] at h
  split at h
  · split at h
    · cases h; exact Nat.le_succ _
    · cases h
  · split at h
    · cases h
    · cases h; simp only [List.length_cons]; omega
  · cases h

theorem readInterval_length {d : Dialect} {cs rest : List Char} {b : Bounds}
    (h : readInterval d cs = .ok (b, rest)) : rest.length ≤ cs.length := by
  simp only [readInterval] at h
  split at h
  · cases h
  · next hb =>
    have := readBound_length hb
    split at h
    · cases h
    · next hb' =>
      have := readBound_length hb'
      split at h
      · cases h
      · next hc =>
        have := closeInterval_length hc
        simp only [List.length_cons] at *
        split at h
        · cases h; omega
        · split at h
          · cases h
          · cases h; omega
  · next _ hb =>
    have := readBound_length hb
    split at h
    · cases h
    · next hc =>
      have := closeInterval_length hc
      cases h; omega

end DialectRegex
