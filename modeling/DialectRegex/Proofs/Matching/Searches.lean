import DialectRegex.Proofs.Matching.Reach
import DialectRegex.Proofs.Text.Characters
import DialectRegex.Regex

namespace DialectRegex

structure Input.Reads (input : Input Id) (text : List Char) : Prop where
  charAt : ∀ i, input.charAt i = text[i]?
  limit : input.limit = text.length

theorem Haystack.input_reads (s : String) : (ofString s).input.Reads s.toList := ⟨charAt_ofString s, length_ofString s⟩

theorem findSome?_range'_eq_some {β : Type} {f : Nat → Option β} {a n : Nat} {b : β} :
    (List.range' a n).findSome? f = some b ↔
      ∃ p, a ≤ p ∧ p < a + n ∧ f p = some b ∧ ∀ q, a ≤ q → q < p → f q = none := by
  induction n generalizing a with
  | zero =>
    simp only [List.range'_zero, List.findSome?_nil, reduceCtorEq, false_iff, not_exists]
    omega
  | succ n ih =>
    rw [List.range'_succ, List.findSome?_cons]
    cases hf : f a with
    | some b' =>
      constructor
      · rintro ⟨⟩
        exact ⟨a, Nat.le_refl a, by omega, hf, fun q hle hlt => by omega⟩
      · rintro ⟨p, hle, _, hp, hfirst⟩
        obtain rfl | hlt := Nat.eq_or_lt_of_le hle
        · exact hf.symm.trans hp
        · cases hf.symm.trans (hfirst a (Nat.le_refl a) hlt)
    | none =>
      dsimp only
      rw [ih]
      constructor
      · rintro ⟨p, hle, hlt, hp, hfirst⟩
        refine ⟨p, by omega, by omega, hp, ?_⟩
        intro q hq hqp
        obtain rfl | hlt := Nat.eq_or_lt_of_le hq
        · exact hf
        · exact hfirst q hlt hqp
      · rintro ⟨p, hle, hlt, hp, hfirst⟩
        have hne : p ≠ a := by
          rintro rfl
          cases hf.symm.trans hp
        exact ⟨p, by omega, by omega, hp, fun q hq => hfirst q (by omega)⟩

namespace Regex

def search (r : Regex) (flags : SearchFlags) (input : Input Id) : Search Id := ⟨input, flags, r.merge⟩

variable {r : Regex} {flags : SearchFlags} {input : Input Id} {text : List Char}

theorem search_sees (r : Regex) (flags : SearchFlags) (h : input.Reads text) (origin : Nat) :
    (r.search flags input).Sees ⟨text, flags, origin⟩ :=
  ⟨h.charAt, h.limit, rfl⟩

theorem run_eq (p : Pattern) (origin offset : Nat) :
    r.run p flags input origin offset =
      (p.ends (r.search flags input) (.initial r.groupCount origin offset)).head? :=
  Pattern.first_some (r.search flags input) p _

theorem pastEnd_eq (h : input.Reads text) (offset : Nat) :
    pastEnd (m := Id) input offset = decide (text.length < offset) := by
  rw [pastEnd]
  by_cases ho : 0 < offset
  · rw [if_pos ho]
    change (input.charAt (offset - 1)).isNone = _
    rw [h.charAt, Bool.eq_iff_iff, Option.isNone_iff_eq_none, List.getElem?_eq_none_iff, decide_eq_true_iff]
    omega
  · rw [if_neg ho]
    apply (decide_eq_false _).symm
    omega

theorem matchAt_eq (h : input.Reads text) (offset : Nat) :
    r.matchAt flags input offset =
      if text.length < offset then none else (r.run r.whole flags input offset offset : Option State).map .ofState := by
  rw [matchAt, pastEnd_eq h]
  by_cases hp : text.length < offset
  · rw [if_pos hp, decide_eq_true hp]
    rfl
  · rw [if_neg hp, decide_eq_false hp]
    rfl

theorem findFrom_eq (h : input.Reads text) (origin : Nat) {fuel start : Nat} (hf : start + fuel ≤ text.length + 1) :
    r.findFrom flags input origin fuel start =
      (((List.range' start fuel).findSome? fun k => (r.run r.whole flags input origin k : Option State)).map
        Match.ofState) := by
  induction fuel generalizing start with
  | zero => rfl
  | succ fuel ih =>
    rw [findFrom, List.range'_succ, List.findSome?_cons, h.charAt]
    cases (r.run r.whole flags input origin start : Option State) with
    | some s => rfl
    | none =>
      cases hc : text[start]? with
      | some a => exact ih (by omega)
      | none =>
        -- Past the last character nothing is left to try.
        have hend := List.getElem?_eq_none_iff.mp hc
        obtain rfl : fuel = 0 := by omega
        rfl

theorem findAt_eq (h : input.Reads text) (offset : Nat) :
    r.findAt flags input offset =
      ((List.range' offset (text.length + 1 - offset)).findSome? fun k =>
        (r.run r.whole flags input offset k : Option State)).map Match.ofState := by
  rw [findAt, pastEnd_eq h, h.limit]
  by_cases hp : text.length < offset
  · have hz : text.length + 1 - offset = 0 := by omega
    rw [decide_eq_true hp, hz]
    rfl
  · rw [decide_eq_false hp]
    exact findFrom_eq h offset (by omega)

theorem findAt_eq_some_iff (h : input.Reads text) (offset : Nat) (found : Match) :
    r.findAt flags input offset = some found ↔
      ∃ p, offset ≤ p ∧ p ≤ text.length ∧
        (r.run r.whole flags input offset p : Option State).map .ofState = some found ∧
        ∀ q, offset ≤ q → q < p → (r.run r.whole flags input offset q : Option State) = none := by
  rw [findAt_eq h, List.map_findSome?, findSome?_range'_eq_some]
  simp only [Function.comp_apply, Option.map_eq_none_iff]
  apply exists_congr
  intro p
  constructor
  · rintro ⟨hle, hlt, hrest⟩
    exact ⟨hle, by omega, hrest⟩
  · rintro ⟨hle, hend, hrest⟩
    exact ⟨hle, by omega, hrest⟩

theorem findAt_eq_none_iff (h : input.Reads text) (offset : Nat) :
    r.findAt flags input offset = none ↔
      ∀ p, offset ≤ p → p ≤ text.length → (r.run r.whole flags input offset p : Option State) = none := by
  rw [findAt_eq h, Option.map_eq_none_iff, List.findSome?_eq_none_iff]
  simp only [List.mem_range'_1, and_imp]
  apply forall₂_congr
  intro p hle
  constructor
  · intro hnone hend
    exact hnone (by omega)
  · intro hnone hlt
    exact hnone (by omega)

theorem matchAt_run (h : input.Reads text) {offset : Nat} {found : Match}
    (hm : r.matchAt flags input offset = some found) :
    offset ≤ text.length ∧
      ∃ t, (r.run r.whole flags input offset offset : Option State) = some t ∧ found = .ofState t := by
  rw [matchAt_eq h] at hm
  split at hm
  · cases hm
  · next hle =>
    obtain ⟨t, ht, rfl⟩ := Option.map_eq_some_iff.mp hm
    exact ⟨Nat.le_of_not_lt hle, t, ht, rfl⟩

theorem findAt_run (h : input.Reads text) {offset : Nat} {found : Match}
    (hm : r.findAt flags input offset = some found) :
    ∃ i t, offset ≤ i ∧ i ≤ text.length ∧ (r.run r.whole flags input offset i : Option State) = some t ∧
      found = .ofState t := by
  rw [findAt_eq h] at hm
  obtain ⟨t, ht, rfl⟩ := Option.map_eq_some_iff.mp hm
  obtain ⟨i, hi, hrun⟩ := List.exists_of_findSome?_eq_some ht
  obtain ⟨hle, hlt⟩ := List.mem_range'_1.mp hi
  exact ⟨i, t, hle, by omega, hrun, rfl⟩

theorem isFullMatch_eq (h : Haystack) :
    r.isFullMatch h = (r.run r.wholeToEnd {} h.input 0 0 : Option State).isSome := rfl

theorem compile_eq_ok {source : String} {d : Dialect} {o : Options} (h : compile source d o = .ok r) :
    DialectRegex.compile d o source.toList = .ok (r.body, r.groupCount) := by
  rw [compile] at h
  split at h
  · cases h
  · next hc =>
    cases h
    exact hc

theorem run_isSome_iff (flags : SearchFlags) (h : input.Reads text) {p : Pattern} (hb : p.hasBackref = false)
    (hv : p.EveryRepeat InOrder) (origin i : Nat) :
    (r.run p flags input origin i : Option State).isSome = true ↔ ∃ j, p.Reaches ⟨text, flags, origin⟩ i j := by
  have hends := Pattern.mem_ends_iff (search_sees r flags h origin) hb hv
    (s := .initial r.groupCount origin i) rfl
  rw [run_eq, List.isSome_head?]
  constructor
  · intro hne
    obtain ⟨t, ht⟩ := List.exists_mem_of_ne_nil _ hne
    exact ⟨t.offset, (hends t.offset).mp (List.mem_map_of_mem ht)⟩
  · rintro ⟨j, hj⟩ hnil
    have hmem := (hends j).mpr hj
    rw [hnil] at hmem
    cases hmem

end Regex

end DialectRegex
