import DialectRegex.Dialect.Named
import DialectRegex.Proofs.Program.Compiled
import DialectRegex.Proofs.Program.Traversal
import Mathlib.Order.Interval.Finset.Nat

namespace DialectRegex

def TokenKind.Filled (k : TokenKind) : Prop := ∀ g, k ≠ .group g []

theorem TokenKind.filled_group {is : List Nat} (h : is ≠ []) (g : Option Nat) : (group g is).Filled := by
  rintro g' he
  cases he
  exact h rfl

def Filled (ts : List Token) : Prop := ∀ t ∈ ts, t.kind.Filled

theorem Filled.push {ts : List Token} (h : Filled ts) {t : Token} (ht : t.kind.Filled) : Filled (ts ++ [t]) := by
  intro u hu
  rcases List.mem_append.mp hu with hu | hu
  · exact h u hu
  · exact List.mem_singleton.mp hu ▸ ht

namespace Pattern

structure Fills (p : Pattern) (ts : List Token) : Prop where
  kind : Filled (p.layout.kind ts).2 ∧ (p.layout.kind ts).1.Filled
  sequence : Filled (p.layout.sequence ts).2
  alternatives : Filled (p.layout.alternatives ts).2 ∧ (p.layout.alternatives ts).1 ≠ []

theorem fills_ofKind {p : Pattern} (hp : p.layout = .ofKind p.layout.kind) {ts : List Token}
    (h : Filled (p.layout.kind ts).2) (hk : (p.layout.kind ts).1.Filled) : p.Fills ts := by
  have hseq : Filled (p.layout.sequence ts).2 := by
    rw [hp]
    exact h.push (t := ⟨_, 0⟩) hk
  refine ⟨⟨h, hk⟩, hseq, ?_⟩
  rw [hp] at hseq ⊢
  exact ⟨hseq, List.cons_ne_nil _ _⟩

theorem fills (p : Pattern) {ts : List Token} (h : Filled ts) : p.Fills ts := by
  induction p generalizing ts with
  | empty => exact ⟨⟨h, TokenKind.filled_group (List.cons_ne_nil 0 []) none⟩, h, h, List.cons_ne_nil 0 []⟩
  | test t => exact fills_ofKind rfl h nofun
  | seq p q hp hq =>
    obtain ⟨hts, hk⟩ := (hp h).kind
    have hseq : Filled ((seq p q).layout.sequence ts).2 := (hq hts).sequence.push hk
    exact ⟨⟨hseq, TokenKind.filled_group (List.cons_ne_nil _ []) none⟩, hseq, hseq, List.cons_ne_nil _ []⟩
  | alt p q hp hq =>
    have halt : Filled ((alt p q).layout.alternatives ts).2 := (hq (hp h).sequence).alternatives.1
    have hne : ((alt p q).layout.alternatives ts).1 ≠ [] := List.cons_ne_nil _ _
    have hk := TokenKind.filled_group hne none
    exact ⟨⟨halt, hk⟩, halt.push (t := ⟨_, 0⟩) hk, halt, hne⟩
  | group g p hp =>
    obtain ⟨hts, his⟩ := (hp h).alternatives
    exact fills_ofKind rfl hts (TokenKind.filled_group his g)
  | repeated p lo hi greedy hp => exact fills_ofKind rfl (hp h).sequence nofun
  | look negated p hp =>
    obtain ⟨hts, his⟩ := (hp h).alternatives
    exact fills_ofKind rfl (hts.push (t := ⟨_, 0⟩) (TokenKind.filled_group his none)) nofun

end Pattern

theorem exists_readsAlternatives {ts : List Token} {is : List Nat} (hne : is ≠ [])
    (h : ∀ i ∈ is, ∃ q, ReadsSequence ts i q) : ∃ q, ReadsAlternatives ts is q := by
  induction is with
  | nil => exact absurd rfl hne
  | cons i is ih =>
    obtain ⟨q, hq⟩ := h i List.mem_cons_self
    cases is with
    | nil => exact ⟨q, .last hq⟩
    | cons j is =>
      obtain ⟨q', hq'⟩ := ih (List.cons_ne_nil j is) fun i hi => h i (List.mem_cons_of_mem _ hi)
      exact ⟨.alt q q', .alt hq hq'⟩

theorem TokenKind.Fits.exists_readsKind {ts : List Token} {k : TokenKind} (hk : k.Fits ts) (hf : k.Filled)
    (h : Sound ts) (hall : ∀ i < ts.length, ∃ q, ReadsSequence ts i q) : ∃ q, ReadsKind ts k q := by
  cases k with
  | tail => exact absurd hk not_false
  | test t => exact ⟨_, .test t⟩
  | repeated i lo hi greedy =>
    obtain ⟨_, _, hi', _⟩ := hk
    obtain ⟨q, hq⟩ := hall i (List.getElem?_eq_some_iff.mp hi').1
    exact ⟨_, .repeated lo hi greedy hq⟩
  | group g is =>
    have hne : is ≠ [] := by
      rintro rfl
      exact hf g rfl
    obtain ⟨q, hq⟩ := exists_readsAlternatives hne fun i hi => hall i (hk i hi)
    exact ⟨_, .group g hq⟩
  | look negated i =>
    obtain ⟨is, hi⟩ := hk
    obtain ⟨q, hq⟩ := hall i (List.getElem?_eq_some_iff.mp hi).1
    -- The pattern at `i` is a group, of what is looked for.
    cases hq with
    | tail => cases h.first.symm.trans hi
    | token hi' hgroup _ =>
      cases hi'.symm.trans hi
      cases hgroup with
      | group _ halts => exact ⟨_, .look negated hi halts⟩

theorem Sound.exists_readsSequence {ts : List Token} (h : Sound ts) (hf : Filled ts) :
    ∀ i < ts.length, ∃ q, ReadsSequence ts i q := by
  induction h with
  | tail =>
    intro i hi
    obtain rfl := Nat.lt_one_iff.mp hi
    exact ⟨.empty, .tail⟩
  | @push ts t hs ht ih =>
    have hprefix : ts <+: ts ++ [t] := List.prefix_append _ _
    have hall := ih fun u hu => hf u (List.mem_append_left _ hu)
    intro i hi
    rcases Nat.lt_or_ge i ts.length with hlt | hle
    · obtain ⟨q, hq⟩ := hall i hlt
      exact ⟨q, hq.mono hprefix⟩
    · obtain rfl : i = ts.length := by
        rw [List.length_append, List.length_singleton] at hi
        omega
      obtain ⟨q, hq⟩ := ht.kind.exists_readsKind (hf t List.mem_concat_self) hs hall
      obtain ⟨q', hq'⟩ := hall t.next ht.next_lt
      exact ⟨_, .token List.getElem?_concat_length (hq.mono hprefix) (hq'.mono hprefix)⟩

namespace Regex

variable {r : Regex} {source : String} {d : Dialect} {o : Options}

theorem program_sound (hr : compile source d o = .ok r) : Sound r.program.tokens ∧ Filled r.program.tokens := by
  obtain ⟨_, hsound, hreads⟩ := (compile_formed (compile_eq_ok hr)).program
  have htail : Filled [⟨.tail, 0⟩] := List.forall_mem_singleton.mpr nofun
  obtain ⟨hfilled, hne⟩ := (r.body.fills htail).alternatives
  have hgroup := TokenKind.filled_group hne (some 0)
  rw [program_eq]
  refine ⟨Program.around_sound hsound (hsound.alternatives_lt hreads), ?_⟩
  have hroot := hfilled.push (t := ⟨_, 0⟩) hgroup
  have hstop := hroot.push (t := ⟨.test (.anchor .stop false), 0⟩) nofun
  exact hstop.push (t := ⟨_, _⟩) hgroup

variable {flags : SearchFlags} {input : Input Id} {text : List Char}

@[simp] theorem walker_program (r : Regex) (flags : SearchFlags) (input : Input Id) :
    (r.walker flags input).program = r.program := rfl

@[simp] theorem walker_input (r : Regex) (flags : SearchFlags) (input : Input Id) :
    (r.walker flags input).input = input := rfl

theorem walker_performs (hr : compile source d o = .ok r) (h : input.Reads text) (flags : SearchFlags) :
    (r.walker flags input).Performs ⟨text, flags, 0⟩ :=
  ⟨⟨h.charAt, h.limit, rfl⟩, (program_sound hr).1.first⟩

theorem program_reads (hr : compile source d o = .ok r) :
    ReadsSequence r.program.tokens r.program.root r.whole ∧
      ReadsSequence r.program.tokens r.program.full r.wholeToEnd := by
  obtain ⟨_, hsound, hreads⟩ := (compile_formed (compile_eq_ok hr)).program
  rw [program_eq]
  exact ⟨(Program.around_reads hsound hreads).1.mpr rfl, (Program.around_reads hsound hreads).2.mpr rfl⟩

theorem walk_eq (hr : compile source d o = .ok r) (h : input.Reads text) {i : Nat} {q : Pattern}
    (hq : ReadsSequence r.program.tokens i q) (origin offset : Nat) :
    (r.walker flags input).run i (.initial r.program.groups origin offset) [] =
      some (r.run q flags input origin offset) := by
  have hp := walker_performs hr h flags
  have hsearch : (r.walker flags input).search = r.search flags input := by rw [search, r.merge_eq]; rfl
  rw [run_eq, ← hsearch]
  exact ((hp.sequence hq).alone hp.first _).1

theorem scan_eq (hr : compile source d o = .ok r) (h : input.Reads text) (origin : Nat) {start n : Nat}
    (hn : start + n = text.length) :
    (r.walker flags input).scan origin start =
      some ((List.range' start (n + 1)).findSome? fun i => (r.run r.whole flags input origin i : Option State)) := by
  have hwalk (start : Nat) : (r.walker flags input).run r.program.root (.initial r.program.groups origin start) [] =
      some (r.run r.whole flags input origin start) := walk_eq hr h (program_reads hr).1 origin start
  induction n generalizing start with
  | zero =>
    have hend : text.length ≤ start := Nat.le_of_eq hn.symm
    rw [Walker.scan.eq_def, walker_program, walker_input, hwalk, h.charAt, List.getElem?_eq_none hend, List.range'_succ,
      List.findSome?_cons]
    cases (r.run r.whole flags input origin start : Option State) <;> rfl
  | succ n ih =>
    have hlt : start < text.length := by omega
    rw [Walker.scan.eq_def, walker_program, walker_input, hwalk, h.charAt, List.getElem?_eq_getElem hlt,
      List.range'_succ, List.findSome?_cons]
    cases (r.run r.whole flags input origin start : Option State) with
    | some s => rfl
    | none => exact ih (by omega)

/-- Matching ends, whatever the pattern repeats and however often: nothing but the program and the text limits the
walk. Each new level but the last reaches an offset that none before has reached, so there is at most one for each
character that is left, and one more. -/
theorem matching_terminates (hr : compile source d o = .ok r) (h : input.Reads text) (flags : SearchFlags) :
    (∀ offset, (r.walker flags input).matchAt offset = some (r.matchAt flags input offset) ∧
        (r.walker flags input).findAt offset = some (r.findAt flags input offset)) ∧
      (r.walker flags input).fullMatch = some (r.run r.wholeToEnd flags input 0 0) ∧
      ∀ sub < r.program.tokens.length, ∀ (min : Nat) (max : Option Nat) (s : State), s.offset ≤ text.length →
        ∀ calls, ∃ n ≤ text.length - s.offset + 1,
          (r.walker flags input).furtherLevels sub min max calls (.initial s) = some n := by
  refine ⟨?_, walk_eq hr h (program_reads hr).2 0 0, ?_⟩
  · intro offset
    have hpast : Id.run (pastEnd input offset) = decide (text.length < offset) := pastEnd_eq h offset
    rw [Walker.matchAt, Walker.findAt, walker_program, walker_input, matchAt_eq h, findAt_eq h, hpast,
      walk_eq hr h (program_reads hr).1]
    by_cases hoffset : text.length < offset
    · have hnone : text.length + 1 - offset = 0 := by omega
      rw [decide_eq_true hoffset, if_pos rfl, if_pos rfl, if_pos hoffset, hnone]
      exact ⟨rfl, rfl⟩
    · have hleft : text.length + 1 - offset = text.length - offset + 1 := by omega
      rw [decide_eq_false hoffset, if_neg Bool.false_ne_true, if_neg Bool.false_ne_true, if_neg hoffset, hleft,
        scan_eq hr h offset (n := text.length - offset) (by omega)]
      exact ⟨rfl, rfl⟩
  · intro sub hsub min max s hs calls
    have hp := walker_performs hr h flags
    obtain ⟨q, hq⟩ := (program_sound hr).1.exists_readsSequence (program_sound hr).2 sub hsub
    have hx := (hp.sequence hq).expands hp.first min max
    have hmem (j : Nat) (hj : Advances text.length s.offset j) : j ∈ Finset.Icc s.offset text.length := by
      simp only [Advances] at hj
      rw [Finset.mem_Icc]
      omega
    obtain ⟨fs, hfs, hlen⟩ := Search.exists_course hp.sees q min max hmem
    rw [Nat.card_Icc] at hlen
    exact ⟨_, by omega, Walker.furtherLevels_eq hx hfs calls⟩

theorem matching_terminates_bound :
    ∃ r : Regex, compile "(?:(a*)\\1){18446744073709551615}(?!c)" .perl5 {} = .ok r ∧
      r.program.tokens[9]? = some ⟨.repeated 5 18446744073709551615 (some 18446744073709551615) true, 8⟩ ∧
      (r.walker {} (Haystack.ofString "aaaa").input).findAt 0 = some (some ⟨0, 4, [some (0, 4), some (4, 4)]⟩) ∧
      ∀ calls, ∃ n ≤ 5, (r.walker {} (Haystack.ofString "aaaa").input).furtherLevels 5 18446744073709551615
        (some 18446744073709551615) calls (.initial (.initial 2 0 0)) = some n := by
  let twice : Pattern :=
    .seq (.group (some 1) (.repeated (.test (.literal ['a'] false)) 0 none true)) (.test (.backref 1 false))
  let body : Pattern := .seq
    (.repeated (.group none twice) 18446744073709551615 (some 18446744073709551615) true)
    (.look true (.test (.literal ['c'] false)))
  let r : Regex := ⟨"(?:(a*)\\1){18446744073709551615}(?!c)", .perl5, {}, body, 2, false, rfl⟩
  have hbody : DialectRegex.compile .perl5 {} r.source.toList = .ok (r.body, 2) := by decide +kernel
  have hr : compile r.source .perl5 {} = .ok r := by rw [compile, hbody]; rfl
  have hfind : r.find (.ofString "aaaa") = some ⟨0, 4, [some (0, 4), some (4, 4)]⟩ := by decide +kernel
  have hlen : "aaaa".toList.length = 4 := by decide
  obtain ⟨hmatch, _, hlevels⟩ := matching_terminates hr (Haystack.input_reads "aaaa") {}
  rw [hlen] at hlevels
  refine ⟨r, hr, rfl, (hmatch 0).2.trans (congrArg some hfind), ?_⟩
  exact hlevels 5 (by decide) _ _ (.initial 2 0 0) (Nat.zero_le 4)

end Regex

end DialectRegex
