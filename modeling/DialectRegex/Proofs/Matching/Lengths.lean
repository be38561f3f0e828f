import DialectRegex.Proofs.Grammar.Forms
import DialectRegex.Proofs.Matching.Replacement
import DialectRegex.Proofs.Pattern.Lengths
import DialectRegex.Proofs.Stream.Reported

namespace DialectRegex

theorem State.exists_least {l : List State} (h : l ≠ []) :
    ∃ i, (offsets l).contains i = true ∧ ∀ s ∈ l, i ≤ s.offset := by
  have hne : l.map offset ≠ [] := mt List.map_eq_nil_iff.mp h
  obtain ⟨i, hi⟩ := Option.isSome_iff_exists.mp (List.isSome_min?_of_ne_nil hne)
  obtain ⟨hmem, hle⟩ := List.min?_eq_some_iff.mp hi
  refine ⟨i, ?_, fun s hs => hle _ (List.mem_map_of_mem hs)⟩
  rw [offsets, OffsetSet.contains_ofList]
  exact decide_eq_true hmem

namespace Rounds

def Consumes (r : Rounds Id) (n : Nat) : Prop := ∀ l, ∀ t ∈ r.after l, ∃ s ∈ l, s.offset + n ≤ t.offset

variable {r : Rounds Id} {n b : Nat} {l l' : List State}

theorem Consumes.after (h : r.Consumes n) (hl : ∀ s ∈ l, b ≤ s.offset) : ∀ t ∈ r.after l, b + n ≤ t.offset := by
  intro t ht
  obtain ⟨s, hs, hle⟩ := h l t ht
  exact (Nat.add_le_add_right (hl s hs) n).trans hle

theorem Consumes.level (h : r.Consumes n) (hl : ∀ s ∈ l, b ≤ s.offset) (k : Nat) :
    ∀ t ∈ r.level k l, b + k * n ≤ t.offset := by
  induction k with
  | zero =>
    rw [Nat.zero_mul]
    exact hl
  | succ k ih =>
    rw [Nat.succ_mul, ← Nat.add_assoc]
    exact h.after ih

theorem Consumes.padded? (h : r.Consumes n) {k : Nat} {history : List OffsetSet} (hl : ∀ s ∈ l, b ≤ s.offset)
    (hh : ∀ o ∈ history, ∃ i, o.contains i = true ∧ ∀ s ∈ l, i ≤ s.offset)
    (hp : r.padded? k l history = some l') : ∀ t ∈ l', b + k * n ≤ t.offset := by
  induction k generalizing b l history with
  | zero =>
    cases hp
    rw [Nat.zero_mul]
    exact hl
  | succ k ih =>
    have hnext := h.after hl
    rw [padded?_succ] at hp
    split at hp
    · cases hp
    next hne =>
    have hne : r.after l ≠ [] := fun h => hne (List.isEmpty_iff.mpr h)
    split at hp
    · next i hi =>
      -- An offset that recurs has not been moved on from.
      have hn : n = 0 := by
        obtain ⟨hlt, hget, _⟩ := List.idxOf?_eq_some_iff.mp hi
        obtain ⟨j, hj, hle⟩ := hh _ (hget ▸ List.getElem_mem hlt)
        rw [State.offsets, OffsetSet.contains_ofList, decide_eq_true_eq] at hj
        obtain ⟨t, ht, rfl⟩ := List.mem_map.mp hj
        obtain ⟨s, hs, hst⟩ := h l t ht
        have := hle s hs
        omega
      subst hn
      cases hp
      exact h.level hnext _
    · next hi =>
      rw [Nat.succ_mul, Nat.add_comm (k * n), ← Nat.add_assoc]
      refine ih hnext ?_ hp
      rintro o (_ | ⟨_, ho⟩)
      · exact State.exists_least hne
      · obtain ⟨j, hj, hle⟩ := hh o ho
        refine ⟨j, hj, fun t ht => ?_⟩
        obtain ⟨s, hs, hst⟩ := h l t ht
        exact (hle s hs).trans (Nat.le_of_add_right_le hst)

theorem Consumes.next? (h : r.Consumes n) {f f' : Frontier} (hf : ∀ s ∈ f.level, b + f.count * n ≤ s.offset)
    (hn : r.next? f = some f') : ∀ t ∈ f'.level, b + f'.count * n ≤ t.offset := by
  have hafter : ∀ t ∈ r.after f.level, b + (f.count + 1) * n ≤ t.offset := by
    rw [Nat.succ_mul, ← Nat.add_assoc]
    exact h.after hf
  rw [next?_eq] at hn
  dsimp only at hn
  split at hn
  · cases hn
  split at hn
  · cases hn
  next hne =>
  split at hn
  · cases hn
    exact hafter
  split at hn
  · cases hn
    exact hafter
  next hmin =>
  split at hn
  · cases hn
  · next hp =>
    cases hn
    have hrest := h.padded? hafter (by
      intro o ho
      rw [List.mem_singleton.mp ho]
      exact State.exists_least fun h => hne (List.isEmpty_iff.mpr h)) hp
    have hcount : (f.count + 1) * n + (r.min - (f.count + 1)) * n = r.min * n := by
      rw [← Nat.add_mul, Nat.add_sub_cancel' (by omega)]
    rwa [Nat.add_assoc, hcount] at hrest

theorem Consumes.visited (h : r.Consumes n) {f : Frontier} (hf : ∀ s ∈ f.level, b + f.count * n ≤ s.offset)
    (fuel : Nat) : ∀ t ∈ (r.visited fuel f).flatten, b + r.min * n ≤ t.offset := by
  induction fuel generalizing f with
  | zero =>
    intro t ht
    cases ht
  | succ fuel ih =>
    intro t ht
    rw [Rounds.visited, List.flatten_append, List.mem_append] at ht
    rcases ht with ht | ht
    · split at ht
      · next hmin =>
        have hle : b + f.count * n ≤ t.offset := hf t (by simpa using ht)
        exact (Nat.add_le_add_left (Nat.mul_le_mul_right n hmin) b).trans hle
      · cases ht
    · split at ht
      · cases ht
      · next hn => exact ih (h.next? hf hn) t ht

theorem Consumes.outcomes (h : r.Consumes n) {s t : State} {fuel : Nat} {greedy : Bool}
    (ht : t ∈ r.outcomes fuel greedy s) : s.offset + r.min * n ≤ t.offset := by
  refine h.visited (f := .initial s) ?_ fuel t ((mem_outcomes fuel greedy s t).mp ht)
  intro u hu
  rw [List.mem_singleton.mp hu]
  exact Nat.le_of_eq (by rw [Frontier.initial, Nat.zero_mul, Nat.add_zero])

end Rounds

variable {e : Search Id} {c : Setting}

theorem Search.consumes_rounds {ends : State → List State} {n : Nat}
    (h : ∀ s, ∀ t ∈ ends s, s.offset + n ≤ t.offset) (lo : Nat) (hi : Option Nat) :
    (e.rounds (m := Id) ends lo hi).Consumes n := by
  intro l t ht
  rw [after_rounds] at ht
  obtain ⟨s, hs, ht⟩ := List.mem_flatMap.mp (e.mem_of_mem_dedup ht)
  exact ⟨s, hs, h s t (e.mem_of_mem_dedup ht)⟩

theorem Test.moves?_length (he : e.Sees c) {t : Test} {s : State} {j : Nat} (h : t.moves? e s = some j) :
    s.offset + t.leastLength ≤ j := by
  have hone {accepts : Char → Bool} (h : c.One accepts s.offset j) : s.offset + 1 ≤ j := Nat.le_of_eq h.1.symm
  have hstay : s.offset ≤ j := by
    have hadv := moves?_advances he h
    simp only [Advances] at hadv
    omega
  cases t with
  | literal cs fold => exact Nat.le_of_eq ((readLiteral_eq_some he.charAt fold cs s.offset j).mp h).1.symm
  | any newline nul => exact hone ((readOne_eq_some he.charAt _ s.offset j).mp h)
  | named k negated fold => exact hone ((readOne_eq_some he.charAt _ s.offset j).mp h)
  | set cs => exact hone ((readOne_eq_some he.charAt _ s.offset j).mp h)
  | anchor edge multiline => exact hstay
  | boundary b => exact hstay
  | backref g fold => exact hstay

namespace Pattern

theorem ends_length (he : e.Sees c) (p : Pattern) (s : State) :
    ∀ t ∈ p.ends e s, s.offset + p.leastLength ≤ t.offset := by
  induction p generalizing s with
  | empty => simp [leastLength]
  | test t =>
    intro u hu
    rw [ends_test] at hu
    obtain ⟨j, hj, rfl⟩ := Option.map_eq_some_iff.mp (Option.mem_toList.mp hu)
    exact Test.moves?_length he hj
  | seq p q hp hq =>
    intro u hu
    rw [ends_seq] at hu
    obtain ⟨t, ht, hu⟩ := List.mem_flatMap.mp hu
    have := hp s t ht
    have := hq t u hu
    rw [leastLength]
    omega
  | alt p q hp hq =>
    intro u hu
    rw [ends_alt] at hu
    rw [leastLength]
    rcases List.mem_append.mp hu with hu | hu
    · have := hp s u hu
      omega
    · have := hq s u hu
      omega
  | group g p hp =>
    intro u hu
    rw [ends_group] at hu
    obtain ⟨t, ht, rfl⟩ := List.mem_map.mp hu
    have hle := hp _ t ht
    rw [enter_offset] at hle
    rw [leave_offset]
    exact hle
  | repeated p lo hi greedy hp =>
    intro u hu
    rw [ends_repeated] at hu
    exact (Search.consumes_rounds hp lo hi).outcomes (e.mem_of_mem_dedup hu)
  | look negated p _ =>
    intro u hu
    obtain rfl | ⟨r, _, rfl⟩ := mem_ends_look hu
    · exact Nat.le_refl _
    · exact Nat.le_refl _

end Pattern

namespace Regex

variable {r : Regex} {source : String} {d : Dialect} {o : Options} {text : List Char} {src : Source}

theorem minLength_exact (hr : compile source d o = .ok r) :
    (∀ w, r.minLength = .ok w ↔ r.body.Fits ∧ w.toNat = min r.body.leastLength greatestBound) ∧
      (r.minLength = .error .addition ↔ ¬r.body.Fits) := by
  have hv := compile_lower (compile_eq_ok hr)
  exact ⟨fun w => Pattern.minLength_eq_ok_iff hv, Pattern.minLength_eq_error_iff hv⟩

theorem minLength_exact_capped :
    ∃ r : Regex, compile "(?:a{4294967296}|.{4294967299}){4294967296}b*" .perl5 {} = .ok r ∧
      r.body.leastLength = 18446744073709551616 ∧ r.minLength = .ok 18446744073709551615 := by
  let letter (c : Char) : Pattern := .test (.literal [c] false)
  let times (p : Pattern) (n : Nat) : Pattern := .repeated p n (some n) true
  let either : Pattern := .group none (.alt (times (letter 'a') 4294967296) (times (.test (.any false true)) 4294967299))
  let body : Pattern := .seq (times either 4294967296) (.repeated (letter 'b') 0 none true)
  let r : Regex := ⟨"(?:a{4294967296}|.{4294967299}){4294967296}b*", .perl5, {}, body, 1, true, rfl⟩
  have hr : compile "(?:a{4294967296}|.{4294967299}){4294967296}b*" .perl5 {} = .ok r := by cbv
  have hfits : body.Fits := by
    simp only [body, either, times, letter, Pattern.Fits, Pattern.leastLength, Test.leastLength]
    decide
  exact ⟨r, hr, by decide, ((minLength_exact hr).1 18446744073709551615).mpr ⟨hfits, by decide⟩⟩

theorem minLength_exact_overflow :
    ∃ r : Regex, compile "a{18446744073709551615}a" .perl5 {} = .ok r ∧
      min r.body.leastLength greatestBound = 18446744073709551615 ∧ r.minLength = .error .addition := by
  let letter : Pattern := .test (.literal ['a'] false)
  let body : Pattern := .seq (.repeated letter 18446744073709551615 (some 18446744073709551615) true) letter
  let r : Regex := ⟨"a{18446744073709551615}a", .perl5, {}, body, 1, true, rfl⟩
  have hr : compile "a{18446744073709551615}a" .perl5 {} = .ok r := by cbv
  exact ⟨r, hr, by decide, by rfl⟩

def LongEnough (r : Regex) (n : Nat) : Prop := r.body.leastLength ≤ n ∧ ∀ w, r.minLength = .ok w → w.toNat ≤ n

theorem longEnough (hr : compile source d o = .ok r) {n : Nat} (h : r.body.leastLength ≤ n) : r.LongEnough n := by
  refine ⟨h, fun w hw => ?_⟩
  obtain ⟨_, hw⟩ := Pattern.fits_of_minLength (compile_lower (compile_eq_ok hr)) hw
  exact hw.trans_le ((Nat.min_le_left _ _).trans h)

theorem longEnough_of_run (hr : compile source d o = .ok r) {flags : SearchFlags} {input : Input Id}
    (h : input.Reads text) {origin i : Nat} {t : State}
    (ht : (r.run r.whole flags input origin i : Option State) = some t) :
    r.LongEnough (Match.ofState t).length := by
  have he := search_sees r flags h origin
  rw [run_eq] at ht
  have hmem := List.mem_of_mem_head? ht
  obtain ⟨hstart, hstop⟩ := ofState_range hr he hmem
  have hlength : i + r.body.leastLength ≤ t.offset := Pattern.ends_length he r.whole _ t hmem
  apply longEnough hr
  rw [Match.length, hstart, hstop]
  omega

theorem longEnough_of_findAt (hr : compile source d o = .ok r) {flags : SearchFlags} {input : Input Id}
    (h : input.Reads text) {offset : Nat} {m : Match} (hm : r.findAt flags input offset = some m) :
    r.LongEnough m.length := by
  obtain ⟨_, t, _, _, ht, rfl⟩ := findAt_run h hm
  exact longEnough_of_run hr h ht

theorem longEnough_of_isFullMatch (hr : compile source d o = .ok r) {s : String}
    (h : r.isFullMatch (.ofString s) = true) : r.LongEnough s.toList.length := by
  have he := search_sees r {} (Haystack.input_reads s) 0
  rw [isFullMatch_eq, run_eq] at h
  obtain ⟨t, ht⟩ := Option.isSome_iff_exists.mp h
  have hmem := List.mem_of_mem_head? ht
  have hlength : 0 + r.body.leastLength ≤ t.offset := Pattern.ends_length he r.wholeToEnd _ t hmem
  have hadv := Pattern.ends_advances he r.wholeToEnd _ t hmem
  simp only [Advances, State.initial] at hadv
  apply longEnough hr
  omega

theorem minLength_le_reported (hr : compile source d o = .ok r) :
    (∀ text src, Source.Has text src → ∀ flags offset m,
      (src.matchAt r flags offset).1 = .ok (some m) ∨ (src.findAt r flags offset).1 = .ok (some m) →
        r.LongEnough m.length) ∧
      ∀ s : String, (∀ m ∈ r.findAll (.ofString s), r.LongEnough m.length) ∧
        (r.isFullMatch (.ofString s) = true → r.LongEnough s.toList.length) := by
  refine ⟨?_, fun s => ⟨?_, longEnough_of_isFullMatch hr⟩⟩
  · rintro text src hs flags offset m (hm | hm)
    · obtain ⟨_, t, ht, rfl⟩ := matchAt_run (Input.ofList_reads text) (hs.matchAt_eq r flags offset hm)
      exact longEnough_of_run hr (Input.ofList_reads text) ht
    · exact longEnough_of_findAt hr (Input.ofList_reads text) (hs.findAt_eq r flags offset hm)
  · intro m hm
    rw [Haystack.findAll_ofString] at hm
    obtain ⟨offset, hfind⟩ := Matches.exists_findAt_of_mem_listing hm
    exact longEnough_of_findAt hr (Input.ofList_reads s.toList) hfind

theorem minLength_le_reported_backref :
    ∃ (r : Regex) (src : Source) (m : Match), compile "(?:(a|bb)\\1?(?!c)){2}" .perl5 {} = .ok r ∧
      src.Has "xaabb".toList ∧ (src.findAt r {} 0).1 = .ok (some m) ∧ m.length = 4 ∧
      r.isFullMatch (.ofString "aaa") = true ∧ r.minLength = .ok 2 ∧
      r.LongEnough m.length ∧ r.LongEnough "aaa".toList.length := by
  let word (cs : List Char) : Pattern := .test (.literal cs false)
  let again : Pattern := .repeated (.test (.backref 1 false)) 0 (some 1) true
  let round : Pattern := .seq (.group (some 1) (.alt (word ['a']) (word ['b', 'b'])))
    (.seq again (.look true (word ['c'])))
  let body : Pattern := .repeated (.group none round) 2 (some 2) true
  let r : Regex := ⟨"(?:(a|bb)\\1?(?!c)){2}", .perl5, {}, body, 2, false, rfl⟩
  let ds : List Delivery := [.bytes [120, 97], .interrupted, .bytes [97, 98, 98]]
  let src : Source := .stream (.ofDeliveries ds)
  let m : Match := ⟨1, 5, [some (1, 5), some (3, 5)]⟩
  have hr : compile "(?:(a|bb)\\1?(?!c)){2}" .perl5 {} = .ok r := by cbv
  have htext : Stream.contents none ds = "xaabb".toList := by decide +kernel
  have hs : src.Has "xaabb".toList := htext ▸ .stream (Stream.has_ofDeliveries ds)
  have hm : (src.findAt r {} 0).1 = .ok (some m) := by decide +kernel
  have hfull : r.isFullMatch (.ofString "aaa") = true := by decide +kernel
  obtain ⟨hreported, htexts⟩ := minLength_le_reported hr
  exact ⟨r, src, m, hr, hs, hm, rfl, hfull, by rfl, hreported _ src hs {} 0 m (.inr hm), (htexts "aaa").2 hfull⟩

end Regex

end DialectRegex
