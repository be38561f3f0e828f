import DialectRegex.Dialect.Named
import DialectRegex.Proofs.Matching.Unrolling
import DialectRegex.Proofs.Pattern.Chains

namespace DialectRegex

namespace Pattern

inductive Reordered : Pattern → Pattern → Prop
  | refl (p : Pattern) : Reordered p p
  | trans {p q r : Pattern} (h : Reordered p q) (h' : Reordered q r) : Reordered p r
  | alternatives {p q : Pattern} (h : p.alternatives.Perm q.alternatives) : Reordered p q
  | greed (p : Pattern) (lo : Nat) (hi : Option Nat) (greedy greedy' : Bool) :
      Reordered (repeated p lo hi greedy) (repeated p lo hi greedy')
  | seq {p p' q q' : Pattern} (hp : Reordered p p') (hq : Reordered q q') : Reordered (seq p q) (seq p' q')
  | alt {p p' q q' : Pattern} (hp : Reordered p p') (hq : Reordered q q') : Reordered (alt p q) (alt p' q')
  | group {p p' : Pattern} (g : Option Nat) (hp : Reordered p p') : Reordered (group g p) (group g p')
  | repeated {p p' : Pattern} (lo : Nat) (hi : Option Nat) (greedy : Bool) (hp : Reordered p p') :
      Reordered (repeated p lo hi greedy) (repeated p' lo hi greedy)
  | look {p p' : Pattern} (negated : Bool) (hp : Reordered p p') : Reordered (look negated p) (look negated p')

section Alternatives

variable (p : Pattern)

theorem hasBackref_alternatives : p.hasBackref = p.alternatives.any hasBackref := by
  induction p with
  | alt p q _ hq => rw [hasBackref, hq, alternatives, List.any_cons]
  | _ => exact (Bool.or_false _).symm

theorem numbers_alternatives : p.numbers = p.alternatives.flatMap numbers := by
  induction p with
  | alt p q _ hq => rw [numbers_alt, hq, alternatives, List.flatMap_cons]
  | _ => exact (List.append_nil _).symm

theorem everyRepeat_alternatives (P : Nat → Option Nat → Prop) :
    p.EveryRepeat P ↔ ∀ a ∈ p.alternatives, a.EveryRepeat P := by
  induction p with
  | alt p q _ hq => rw [EveryRepeat, hq, alternatives, List.forall_mem_cons]
  | _ => exact List.forall_mem_singleton.symm

theorem spansBy_alternatives (rep : (Nat → Nat → Prop) → Nat → Option Nat → Nat → Nat → Prop) (c : Setting)
    (i j : Nat) : p.SpansBy rep c i j ↔ ∃ a ∈ p.alternatives, a.SpansBy rep c i j := by
  induction p with
  | alt p q _ hq => rw [SpansBy, hq, alternatives, List.exists_mem_cons_iff]
  | _ => simp [alternatives]

end Alternatives

namespace Reordered

variable {p q : Pattern}

theorem hasBackref (h : p.Reordered q) : q.hasBackref = p.hasBackref := by
  induction h with
  | refl p => rfl
  | trans _ _ ih ih' => exact ih'.trans ih
  | alternatives h => rw [hasBackref_alternatives, hasBackref_alternatives, h.any_eq]
  | greed p lo hi greedy greedy' => rfl
  | seq _ _ hp hq => rw [Pattern.hasBackref, Pattern.hasBackref, hp, hq]
  | alt _ _ hp hq => rw [Pattern.hasBackref, Pattern.hasBackref, hp, hq]
  | group g _ hp => exact hp
  | repeated lo hi greedy _ hp => exact hp
  | look negated _ hp => exact hp

theorem numbers (h : p.Reordered q) : q.numbers.Perm p.numbers := by
  induction h with
  | refl p => exact .refl _
  | trans _ _ ih ih' => exact ih'.trans ih
  | alternatives h =>
    rw [numbers_alternatives, numbers_alternatives]
    exact h.symm.flatMap_right _
  | greed p lo hi greedy greedy' => exact .refl _
  | seq _ _ hp hq =>
    rw [numbers_seq, numbers_seq]
    exact hp.append hq
  | alt _ _ hp hq =>
    rw [numbers_alt, numbers_alt]
    exact hp.append hq
  | group g _ hp =>
    rw [numbers_group, numbers_group]
    exact hp.append_left _
  | repeated lo hi greedy _ hp => exact hp
  | look negated _ hp => exact hp

theorem everyRepeat (h : p.Reordered q) {P : Nat → Option Nat → Prop} (hp : p.EveryRepeat P) : q.EveryRepeat P := by
  induction h with
  | refl p => exact hp
  | trans _ _ ih ih' => exact ih' (ih hp)
  | alternatives h =>
    rw [everyRepeat_alternatives] at hp ⊢
    exact fun a ha => hp a (h.mem_iff.mpr ha)
  | greed p lo hi greedy greedy' => exact hp
  | seq _ _ ihp ihq => exact ⟨ihp hp.1, ihq hp.2⟩
  | alt _ _ ihp ihq => exact ⟨ihp hp.1, ihq hp.2⟩
  | group g _ ih => exact ih hp
  | repeated lo hi greedy _ ih => exact ⟨hp.1, ih hp.2⟩
  | look negated _ ih => exact ih hp

theorem spansBy (h : p.Reordered q) (rep : (Nat → Nat → Prop) → Nat → Option Nat → Nat → Nat → Prop) (c : Setting) :
    q.SpansBy rep c = p.SpansBy rep c := by
  induction h with
  | refl p => rfl
  | trans _ _ ih ih' => exact ih'.trans ih
  | alternatives h =>
    funext i j
    rw [spansBy_alternatives, spansBy_alternatives]
    simp only [h.mem_iff]
  | greed p lo hi greedy greedy' => rfl
  | seq _ _ hp hq => simp only [SpansBy, hp, hq]
  | alt _ _ hp hq => simp only [SpansBy, hp, hq]
  | group g _ hp => exact hp
  | repeated lo hi greedy _ hp => simp only [SpansBy, hp]
  | look negated _ hp => cases negated <;> simp only [SpansBy, hp]

end Reordered

end Pattern

namespace Regex

structure Reordered (r r' : Regex) : Prop where
  groupCount : r'.groupCount = r.groupCount
  body : r.body.Reordered r'.body

variable {r r' : Regex} {source : String} {d : Dialect} {o : Options}

theorem run_isSome_reordered (r r' : Regex) {p p' : Pattern} (hp : p.Reordered p') (hb : p.hasBackref = false)
    (hv : p.EveryRepeat InOrder) {input : Input Id} {text : List Char} (hread : input.Reads text)
    (flags : SearchFlags) (origin i : Nat) :
    (r'.run p' flags input origin i : Option State).isSome = (r.run p flags input origin i : Option State).isSome := by
  rw [Bool.eq_iff_iff, run_isSome_iff flags hread hb hv, run_isSome_iff flags hread (hp.hasBackref.trans hb)
    (hp.everyRepeat hv), Pattern.Reaches, Pattern.Reaches, hp.spansBy]

theorem preference_irrelevant (hr : compile source d o = .ok r) (hb : r.body.hasBackref = false)
    (h : r.Reordered r') :
    (∀ (input : Input Id) (text : List Char), input.Reads text → ∀ (flags : SearchFlags) (offset : Nat),
      (r'.matchAt flags input offset : Option Match).isSome = (r.matchAt flags input offset : Option Match).isSome ∧
      (r'.findAt flags input offset : Option Match).map Match.start =
        (r.findAt flags input offset : Option Match).map Match.start) ∧
      ∀ s : String, r'.isFullMatch (.ofString s) = r.isFullMatch (.ofString s) := by
  have hv : r.body.EveryRepeat InOrder := compile_inOrder (compile_eq_ok hr)
  have hwhole : r.whole.Reordered r'.whole := .group (some 0) h.body
  refine ⟨?_, ?_⟩
  · intro input text hread flags offset
    have hrun := run_isSome_reordered r r' hwhole hb hv hread flags
    constructor
    · rw [matchAt_eq hread, matchAt_eq hread]
      split
      · rfl
      · rw [Option.isSome_map, Option.isSome_map, hrun]
    · have hboth (i : Nat) : (r.run r.whole flags input offset i : Option State) = none ↔
          (r'.run r'.whole flags input offset i : Option State) = none := by
        rw [← Option.isNone_iff_eq_none, ← Option.isNone_iff_eq_none, ← Option.not_isSome, ← Option.not_isSome, hrun]
      rcases findAt_together hread hboth with ⟨hnone, hnone'⟩ | ⟨i, t, t', ht, ht', hfound, hfound'⟩
      · rw [hnone, hnone']
      · obtain ⟨hnodup, hpos⟩ := whole_nodup hr
        have hzero : 0 ∉ r'.body.numbers := by
          rw [h.body.numbers.mem_iff]
          exact (List.nodup_cons.mp hnodup).1
        rw [run_eq] at ht'
        obtain ⟨hstart', _⟩ := ofState_whole hzero (h.groupCount ▸ hpos) (search_sees r' flags hread offset)
          (List.mem_of_mem_head? ht')
        obtain ⟨hstart, _⟩ := ofState_run hr hread ht
        rw [hfound, hfound', Option.map_some, Option.map_some, hstart, hstart']
  · intro s
    have hend : r.wholeToEnd.Reordered r'.wholeToEnd := .seq hwhole (.refl _)
    exact run_isSome_reordered r r' hend (Bool.or_eq_false_iff.mpr ⟨hb, rfl⟩) ⟨hv, trivial⟩ (Haystack.input_reads s)
      {} 0 0

theorem preference_irrelevant_stingy :
    ∃ r r' : Regex, compile "(?=(a|ab)b)(?:ab|a|b){2,}" .perl5 {} = .ok r ∧ r.body.hasBackref = false ∧
      compile "(?=(ab|a)b)(?:b|a|ab){2,}?" .perl5 {} = .ok r' ∧ r.Reordered r' ∧
      (Haystack.ofString "aacabab").input.Reads "aacabab".toList ∧
      (r.find (.ofString "aacabab")).map (fun m => (m.start, m.stop)) = some (3, 7) ∧
      (r'.find (.ofString "aacabab")).map Match.start = some 3 ∧
      (r'.find (.ofString "aacabab")).map Match.stop = some 5 := by
  let word (cs : List Char) : Pattern := .test (.literal cs false)
  let ahead (p q : Pattern) : Pattern := .look false (.seq (.group (some 1) (.alt p q)) (word ['b']))
  let rounds (p q s : Pattern) (greedy : Bool) : Pattern := .repeated (.group none (.alt p (.alt q s))) 2 none greedy
  let r : Regex := ⟨"(?=(a|ab)b)(?:ab|a|b){2,}", .perl5, {},
    .seq (ahead (word ['a']) (word ['a', 'b'])) (rounds (word ['a', 'b']) (word ['a']) (word ['b']) true), 2, true, rfl⟩
  let r' : Regex := ⟨"(?=(ab|a)b)(?:b|a|ab){2,}?", .perl5, {},
    .seq (ahead (word ['a', 'b']) (word ['a'])) (rounds (word ['b']) (word ['a']) (word ['a', 'b']) false), 2, true, rfl⟩
  have hr : compile "(?=(a|ab)b)(?:ab|a|b){2,}" .perl5 {} = .ok r := by cbv
  have hr' : compile "(?=(ab|a)b)(?:b|a|ab){2,}?" .perl5 {} = .ok r' := by cbv
  have hahead : (ahead (word ['a']) (word ['a', 'b'])).Reordered (ahead (word ['a', 'b']) (word ['a'])) :=
    .look false (.seq (.group (some 1) (.alternatives (by decide))) (.refl _))
  have hrounds : (rounds (word ['a', 'b']) (word ['a']) (word ['b']) true).Reordered
      (rounds (word ['b']) (word ['a']) (word ['a', 'b']) false) :=
    .trans (.greed _ 2 none true false) (.repeated 2 none false (.group none (.alternatives (by decide))))
  have h : r.Reordered r' := ⟨rfl, .seq hahead hrounds⟩
  have hread := Haystack.input_reads "aacabab"
  have hfind : (r.find (.ofString "aacabab")).map (fun m => (m.start, m.stop)) = some (3, 7) := by decide +kernel
  have hstop : (r'.find (.ofString "aacabab")).map Match.stop = some 5 := by decide +kernel
  have hstart : (r.find (.ofString "aacabab")).map Match.start = some 3 := by decide +kernel
  obtain ⟨hfound, _⟩ := preference_irrelevant hr rfl h
  exact ⟨r, r', hr, rfl, hr', h, hread, hfind, (hfound _ _ hread {} 0).2.trans hstart, hstop⟩

end Regex

end DialectRegex
