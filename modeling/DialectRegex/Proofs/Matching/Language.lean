import DialectRegex.Dialect.Named
import DialectRegex.Proofs.Grammar.Forms
import DialectRegex.Proofs.Matching.Searches

namespace DialectRegex.Regex

variable {r : Regex} {flags : SearchFlags} {input : Input Id} {text : List Char}

theorem find_isSome_iff (flags : SearchFlags) (h : input.Reads text) (hb : r.body.hasBackref = false)
    (hv : r.body.EveryRepeat InOrder) (offset : Nat) :
    (r.findAt flags input offset : Option Match).isSome = true ↔
      ∃ i j, offset ≤ i ∧ i ≤ j ∧ j ≤ text.length ∧ r.body.Reaches ⟨text, flags, offset⟩ i j := by
  have hrun := run_isSome_iff (r := r) flags h (p := r.whole) hb hv offset
  rw [findAt_eq h, Option.isSome_map, List.findSome?_isSome_iff]
  constructor
  · rintro ⟨i, hi, hsome⟩
    obtain ⟨j, hj⟩ := (hrun i).mp hsome
    have hadv := hj.advances (search_sees r _ h offset) hb hv
    rw [List.mem_range'_1] at hi
    simp only [Advances] at hadv
    exact ⟨i, j, hi.1, by omega, by omega, hj⟩
  · rintro ⟨i, j, hoi, hij, hj, hreach⟩
    exact ⟨i, List.mem_range'_1.mpr ⟨hoi, by omega⟩, (hrun i).mpr ⟨j, hreach⟩⟩

theorem isFullMatch_iff (hb : r.body.hasBackref = false) (hv : r.body.EveryRepeat InOrder) (s : String) :
    r.isFullMatch (.ofString s) = true ↔ r.body.Reaches ⟨s.toList, {}, 0⟩ 0 s.toList.length := by
  have h := Haystack.input_reads s
  have hbw : r.wholeToEnd.hasBackref = false := Bool.or_eq_false_iff.mpr ⟨hb, rfl⟩
  rw [isFullMatch_eq, run_isSome_iff {} h hbw ⟨hv, trivial⟩]
  constructor
  · rintro ⟨j, m, hm, _, hstop⟩
    have hadv := Pattern.Reaches.advances (search_sees r _ h 0) hb hv hm
    have hend : s.toList.length ≤ m := by
      rcases hstop with ⟨_, hle⟩ | ⟨hf, _⟩
      · exact hle
      · cases hf
    simp only [Advances] at hadv
    have he : m = s.toList.length := by omega
    exact he ▸ hm
  · intro hm
    exact ⟨_, _, hm, rfl, .inl ⟨rfl, Nat.le_refl _⟩⟩

theorem decides_language {source : String} {d : Dialect} {o : Options} (hr : compile source d o = .ok r)
    (hb : r.body.hasBackref = false) (hmin : r.body.EveryRepeat fun lo _ => lo ≤ 1) :
    (∀ (input : Input Id) (text : List Char), input.Reads text → ∀ (flags : SearchFlags) (origin : Nat),
      ∀ i ≤ text.length,
        ((r.run r.whole flags input origin i : Option State).isSome = true ↔
          ∃ j, r.body.Spans ⟨text, flags, origin⟩ i j) ∧
        ((r.matchAt flags input i : Option Match).isSome = true ↔ ∃ j, r.body.Spans ⟨text, flags, i⟩ i j)) ∧
      ∀ s : String,
        (r.isFullMatch (.ofString s) = true ↔ r.body.Spans ⟨s.toList, {}, 0⟩ 0 s.toList.length) ∧
        (r.find (.ofString s) = none ↔
          ¬ ∃ i j, i ≤ j ∧ j ≤ s.toList.length ∧ r.body.Spans ⟨s.toList, {}, 0⟩ i j) := by
  have hv : r.body.EveryRepeat InOrder := compile_inOrder (compile_eq_ok hr)
  have hspans (c : Setting) (i j : Nat) : r.body.Reaches c i j ↔ r.body.Spans c i j := Pattern.reaches_iff_spans hmin
  refine ⟨?_, ?_⟩
  · intro input text h flags origin i hi
    have hrun (origin : Nat) : (r.run r.whole flags input origin i : Option State).isSome = true ↔
        ∃ j, r.body.Spans ⟨text, flags, origin⟩ i j := by
      simp only [← hspans]
      exact run_isSome_iff flags h (p := r.whole) hb hv origin i
    refine ⟨hrun origin, ?_⟩
    rw [matchAt_eq h, if_neg (Nat.not_lt.mpr hi), Option.isSome_map]
    exact hrun i
  · intro s
    have hfind := find_isSome_iff (r := r) {} (Haystack.input_reads s) hb hv 0
    simp only [hspans, Nat.zero_le, true_and] at hfind
    refine ⟨(isFullMatch_iff hb hv s).trans (hspans _ _ _), ?_⟩
    rw [find, ← hfind, Bool.not_eq_true, Option.isSome_eq_false_iff, Option.isNone_iff_eq_none]

theorem decides_language_nested :
    ∃ r : Regex, compile "(a|b*)*c" .perl5 {} = .ok r ∧ r.body.hasBackref = false ∧
      (r.body.EveryRepeat fun lo _ => lo ≤ 1) ∧ r.body.Spans ⟨"abbc".toList, {}, 0⟩ 0 4 ∧
      ¬ r.body.Spans ⟨"abb".toList, {}, 0⟩ 0 3 := by
  let body : Pattern := .seq (.repeated (.group (some 1) (.alt (.test (.literal ['a'] false))
    (.repeated (.test (.literal ['b'] false)) 0 none true))) 0 none true) (.test (.literal ['c'] false))
  let r : Regex := ⟨"(a|b*)*c", .perl5, {}, body, 2, true, rfl⟩
  have hr : compile "(a|b*)*c" .perl5 {} = .ok r := by cbv
  have hmin : r.body.EveryRepeat fun lo _ => lo ≤ 1 := by simp [r, body, Pattern.EveryRepeat]
  have h := (decides_language hr rfl hmin).2
  have hfull : r.isFullMatch (.ofString "abbc") = true := by decide +kernel
  have hnot : ¬ r.isFullMatch (.ofString "abb") = true := by decide +kernel
  exact ⟨r, hr, rfl, hmin, (h "abbc").1.mp hfull, mt (h "abb").1.mpr hnot⟩

end DialectRegex.Regex
