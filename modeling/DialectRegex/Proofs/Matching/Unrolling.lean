import DialectRegex.Proofs.Matching.Copies

namespace DialectRegex

theorem findSome?_together {α β : Type} {f g : α → Option β} (h : ∀ a, f a = none ↔ g a = none) (l : List α) :
    (l.findSome? f = none ∧ l.findSome? g = none) ∨
      ∃ a b b', f a = some b ∧ g a = some b' ∧ l.findSome? f = some b ∧ l.findSome? g = some b' := by
  induction l with
  | nil => exact .inl ⟨rfl, rfl⟩
  | cons a l ih =>
    cases hf : f a with
    | none =>
      have hg := (h a).mp hf
      rw [List.findSome?_cons, List.findSome?_cons, hf, hg]
      exact ih
    | some b =>
      cases hg : g a with
      | none =>
        rw [(h a).mpr hg] at hf
        cases hf
      | some b' =>
        refine .inr ⟨a, b, b', hf, hg, ?_, ?_⟩
        · rw [List.findSome?_cons, hf]
        · rw [List.findSome?_cons, hg]

namespace Pattern

theorem hasBackref_copies {p : Pattern} (h : p.hasBackref = false) (n : Nat) : (p.copies n).hasBackref = false := by
  induction n with
  | zero => rfl
  | succ n ih =>
    rw [copies, before.eq_def]
    split
    · exact h
    · exact Bool.or_eq_false_iff.mpr ⟨h, ih⟩

end Pattern

namespace Regex

variable {r : Regex} {o : Options} {x : String} {body : Pattern}

theorem exists_run {source : String} {d : Dialect} (h : DialectRegex.compile d o source.toList = .ok (body, 1))
    (hb : body.hasBackref = false) :
    ∃ r : Regex, compile source d o = .ok r ∧ ∀ flags input origin i,
      r.run r.whole flags input origin i =
        ((body.ends ⟨input, flags, true⟩ ((State.initial 1 origin i).enter (some 0))).head?).map
          fun s => s.leave (some 0) := by
  have hmerge : true = !body.hasBackref := by
    rw [hb]
    rfl
  refine ⟨⟨source, d, o, body, 1, true, hmerge⟩, ?_, ?_⟩
  · rw [compile, h]
    simp only [hb, Bool.not_false]
  · intro flags input origin i
    rw [run_eq, whole, Pattern.ends_group, List.head?_map]
    rfl

theorem ofState_run {source : String} {d : Dialect} (hr : compile source d o = .ok r) {flags : SearchFlags}
    {input : Input Id} {text : List Char} (h : input.Reads text) {origin i : Nat} {t : State}
    (ht : (r.run r.whole flags input origin i : Option State) = some t) :
    (Match.ofState t).start = i ∧ (Match.ofState t).stop = t.offset := by
  rw [run_eq] at ht
  exact ofState_range hr (search_sees r flags h origin) (List.mem_of_mem_head? ht)

theorem findAt_together {r' : Regex} {flags : SearchFlags} {input : Input Id} {text : List Char}
    (h : input.Reads text) {offset : Nat}
    (hboth : ∀ i, (r.run r.whole flags input offset i : Option State) = none ↔
      (r'.run r'.whole flags input offset i : Option State) = none) :
    (r.findAt flags input offset = none ∧ r'.findAt flags input offset = none) ∨
      ∃ i t t', (r.run r.whole flags input offset i : Option State) = some t ∧
        (r'.run r'.whole flags input offset i : Option State) = some t' ∧
        r.findAt flags input offset = some (.ofState t) ∧ r'.findAt flags input offset = some (.ofState t') := by
  rw [findAt_eq h, findAt_eq h]
  rcases findSome?_together hboth (List.range' offset (text.length + 1 - offset)) with hnone | hsome
  · rw [hnone.1, hnone.2]
    exact .inl ⟨rfl, rfl⟩
  · obtain ⟨i, t, t', ht, ht', hfirst, hfirst'⟩ := hsome
    rw [hfirst, hfirst']
    exact .inr ⟨i, t, t', ht, ht', rfl, rfl⟩

/-- A counted repetition is found where its unrolling is, and ends where as many copies of the pattern end as it
takes the levels to settle there. The two agree just if these copies prefer what all of them prefer. -/
theorem counted_unrolled (hx : DialectRegex.compile .perl5 o x.toList = .ok (body, 1))
    (hb : body.hasBackref = false) {m : Nat} (hm : m ≤ greatestBound) :
    ∃ rc ru : Regex, compile (countedText x m) .perl5 o = .ok rc ∧ compile (repeatedText x m) .perl5 o = .ok ru ∧
      ∀ (input : Input Id) (text : List Char), input.Reads text → ∀ (flags : SearchFlags) (offset : Nat),
        (rc.findAt flags input offset = none ∧ ru.findAt flags input offset = none) ∨
          ∃ mc mu : Match, rc.findAt flags input offset = some mc ∧ ru.findAt flags input offset = some mu ∧
            mc.start = mu.start ∧
            ∃ n, FirstSettled (body.Reaches ⟨text, flags, offset⟩) mu.start n ∧
              (m ≤ n → mc.stop = mu.stop) ∧
              ∃ rn : Regex, compile (repeatedText x (min m n)) .perl5 o = .ok rn ∧
                (rn.run rn.whole flags input offset mu.start : Option State).map State.offset = some mc.stop ∧
                (mc.stop = mu.stop ↔
                  (rn.run rn.whole flags input offset mu.start : Option State).map State.offset = some mu.stop) := by
  let p : Pattern := .group none body
  have hnumbers : p.numbers = [] := by
    have hperm := compile_numbers hx
    exact List.nil_perm.mp ((List.perm_cons 0).mp hperm).symm
  have hv : body.EveryRepeat InOrder := compile_inOrder hx
  have hcopies (k : Nat) := exists_run (compile_copies hx k) (Pattern.hasBackref_copies (p := p) hb k)
  obtain ⟨rc, hrc, hcounted⟩ := exists_run (compile_counted hx hm) hb
  obtain ⟨ru, hru, hrepeated⟩ := hcopies m
  refine ⟨rc, ru, hrc, hru, ?_⟩
  intro input text h flags offset
  let e : Search Id := ⟨input, flags, true⟩
  let c : Setting := ⟨text, flags, offset⟩
  have he : e.Sees c := ⟨h.charAt, h.limit, rfl⟩
  have hR : ∀ i j, p.Reaches c i j → Advances c.text.length i j := fun _ _ h => h.advances he hb hv
  have hrun {i n : Nat} (hn : FirstSettled (p.Reaches c) i n) :
      (rc.run rc.whole flags input offset i : Option State) =
        (((p.copies (min m n)).ends e ((State.initial 1 offset i).enter (some 0))).head?).map
          fun s => s.leave (some 0) := by
    rw [hcounted]
    exact congrArg _ (Pattern.repeated_head? he hnumbers hb hv m true rfl hn)
  have hboth (i : Nat) : (rc.run rc.whole flags input offset i : Option State) = none ↔
      (ru.run ru.whole flags input offset i : Option State) = none := by
    rw [hcounted, hrepeated, Option.map_eq_none_iff, Option.map_eq_none_iff]
    exact Pattern.repeated_head?_eq_none he hnumbers hb hv m true rfl
  rcases findAt_together h hboth with hnone | ⟨i, tc, tu, hc, hu, hfc, hfu⟩
  · exact .inl hnone
  · refine .inr ⟨.ofState tc, .ofState tu, hfc, hfu, ?_⟩
    obtain ⟨hstart, hstop⟩ := ofState_run hrc h hc
    obtain ⟨hstart', hstop'⟩ := ofState_run hru h hu
    rw [hstart, hstart', hstop, hstop']
    refine ⟨rfl, ?_⟩
    obtain ⟨n, hn⟩ := exists_firstSettled hR i
    obtain ⟨rn, hrn, hfewer⟩ := hcopies (min m n)
    have hsame : (rn.run rn.whole flags input offset i : Option State) = some tc := by
      rw [hfewer, ← hc, hrun hn]
    refine ⟨n, hn, ?_, rn, hrn, ?_, ?_⟩
    · intro hle
      rw [hrun hn, Nat.min_eq_left hle, ← hrepeated, hu] at hc
      cases hc
      rfl
    · rw [hsame]
      rfl
    · rw [hsame, Option.map_some, Option.some_inj]

theorem counted_unrolled_twice :
    ∃ (body : Pattern) (rc ru : Regex) (mc mu : Match),
      DialectRegex.compile .perl5 {} "ab|a".toList = .ok (body, 1) ∧ body.hasBackref = false ∧ 2 ≤ greatestBound ∧
        compile (countedText "ab|a" 2) .perl5 {} = .ok rc ∧ compile (repeatedText "ab|a" 2) .perl5 {} = .ok ru ∧
        rc.find (.ofString "xabab") = some mc ∧ ru.find (.ofString "xabab") = some mu ∧
        mc.start = mu.start ∧ mc.stop = 5 := by
  let body : Pattern := .alt (.test (.literal ['a', 'b'] false)) (.test (.literal ['a'] false))
  let r : Regex := ⟨"(?:ab|a)\x7b2\x7d", .perl5, {}, .repeated (.group none body) 2 (some 2) true, 1, true, rfl⟩
  have hx : DialectRegex.compile .perl5 {} "ab|a".toList = .ok (body, 1) := by cbv
  have htext : countedText "ab|a" 2 = "(?:ab|a)\x7b2\x7d" := rfl
  have hr : compile (countedText "ab|a" 2) .perl5 {} = .ok r := by
    rw [htext]
    cbv
  have hm : 2 ≤ greatestBound := by decide
  have hfind : r.find (.ofString "xabab") = some ⟨1, 5, [some (1, 5)]⟩ := by decide +kernel
  obtain ⟨rc, ru, hrc, hru, h⟩ := counted_unrolled hx rfl hm
  cases hr.symm.trans hrc
  rcases h _ _ (Haystack.input_reads "xabab") {} 0 with ⟨hnone, _⟩ | ⟨mc, mu, hmc, hmu, hstart, _⟩
  · cases hfind.symm.trans hnone
  · cases hfind.symm.trans hmc
    exact ⟨body, r, ru, _, mu, hx, rfl, hm, hr, hru, hmc, hmu, hstart, rfl⟩

/-- The levels settle at the third one, which prefers 3. One more round of each of its offsets would prefer 4. -/
theorem counted_differs_from_copies :
    ∃ (body : Pattern) (rc ru : Regex) (mc mu : Match),
      DialectRegex.compile .perl5 {} "a?|a*".toList = .ok (body, 1) ∧ body.hasBackref = false ∧ 4 ≤ greatestBound ∧
        compile (countedText "a?|a*" 4) .perl5 {} = .ok rc ∧ compile (repeatedText "a?|a*" 4) .perl5 {} = .ok ru ∧
        rc.find (.ofString "aaaa") = some mc ∧ ru.find (.ofString "aaaa") = some mu ∧
        mc.stop = 3 ∧ mu.stop = 4 := by
  let body : Pattern := .alt (.repeated (.test (.literal ['a'] false)) 0 (some 1) true)
    (.repeated (.test (.literal ['a'] false)) 0 none true)
  let p : Pattern := .group none body
  let rc : Regex := ⟨"(?:a?|a*)\x7b4\x7d", .perl5, {}, .repeated p 4 (some 4) true, 1, true, rfl⟩
  let ru : Regex := ⟨"(?:a?|a*)(?:a?|a*)(?:a?|a*)(?:a?|a*)", .perl5, {}, .seq p (.seq p (.seq p p)), 1, true, rfl⟩
  have hx : DialectRegex.compile .perl5 {} "a?|a*".toList = .ok (body, 1) := by cbv
  have hcounted : countedText "a?|a*" 4 = "(?:a?|a*)\x7b4\x7d" := rfl
  have hrepeated : repeatedText "a?|a*" 4 = "(?:a?|a*)(?:a?|a*)(?:a?|a*)(?:a?|a*)" := rfl
  have hrc : compile (countedText "a?|a*" 4) .perl5 {} = .ok rc := by
    rw [hcounted]
    cbv
  have hru : compile (repeatedText "a?|a*" 4) .perl5 {} = .ok ru := by
    rw [hrepeated]
    cbv
  have hc : rc.find (.ofString "aaaa") = some ⟨0, 3, [some (0, 3)]⟩ := by decide +kernel
  have hu : ru.find (.ofString "aaaa") = some ⟨0, 4, [some (0, 4)]⟩ := by decide +kernel
  exact ⟨body, rc, ru, _, _, hx, rfl, by decide, hrc, hru, hc, hu, rfl, rfl⟩

end Regex

end DialectRegex
