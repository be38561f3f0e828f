import DialectRegex.Proofs.Grammar.IgnoringCase
import DialectRegex.Proofs.Matching.Language
import DialectRegex.Proofs.Matching.Unrolling
import DialectRegex.Proofs.Text.RangeTables

namespace DialectRegex

/-- No character is accepted because something else is not. -/
def Test.Positive : Test → Prop
  | named _ negated _ => negated = false
  | set s => s.negated = false ∧ ∀ k, .named k true ∉ s.items
  | _ => True

theorem sameChar_caseless {fold : Bool} {a b : Char} (h : sameChar fold a b = true) : sameChar true a b = true := by
  cases fold with
  | true => exact h
  | false =>
    have heq : a = b := by simpa [sameChar] using h
    simp [sameChar, heq]

theorem CharClass.accepts_caseless {k : CharClass} {fold : Bool} {c : Char} (h : k.accepts fold c = true) :
    k.accepts true c = true := by
  cases fold with
  | true => exact h
  | false =>
    cases k with
    | lower =>
      simp only [accepts, Bool.false_eq_true, ↓reduceIte] at h ⊢
      exact Unicode.isAlphabetic_of_isLowercase h
    | upper =>
      simp only [accepts, Bool.false_eq_true, ↓reduceIte] at h ⊢
      exact Unicode.isAlphabetic_of_isUppercase h
    | _ => exact h

theorem SetItem.accepts_caseless {i : SetItem} (hi : ∀ k, i ≠ .named k true) {fold : Bool} {c : Char}
    (h : i.accepts fold c = true) : i.accepts true c = true := by
  cases i with
  | char x => exact sameChar_caseless h
  | range lo up =>
    cases fold with
    | true => exact h
    | false =>
      have hin : inRange lo up c = true := by simpa [accepts] using h
      simp [accepts, hin]
  | named k negated =>
    cases negated with
    | true => exact absurd rfl (hi k)
    | false =>
      simp only [accepts, bne_iff_ne, ne_eq, Bool.not_eq_false] at h ⊢
      exact k.accepts_caseless h

theorem CharSet.accepts_caseless {s : CharSet} (hn : s.negated = false) (hs : ∀ k, .named k true ∉ s.items) {c : Char}
    (h : s.accepts c = true) : CharSet.accepts { s with fold := true } c = true := by
  simp only [accepts, hn, Bool.false_eq_true, ↓reduceIte, List.any_eq_true] at h ⊢
  obtain ⟨i, hi, hc⟩ := h
  exact ⟨i, hi, i.accepts_caseless (fun k hk => hs k (hk ▸ hi)) hc⟩

variable {c : Setting}

theorem Setting.One.mono {f g : Char → Bool} (hfg : ∀ a, f a = true → g a = true) {i j : Nat} (h : c.One f i j) :
    c.One g i j := by
  obtain ⟨hj, a, ha, hf⟩ := h
  exact ⟨hj, a, ha, hfg a hf⟩

theorem Test.spans_caseless {t : Test} (ht : t.Positive) {i j : Nat} (h : t.Spans c i j) : t.caseless.Spans c i j := by
  cases t with
  | literal cs fold => exact ⟨h.1, h.2.imp fun _ _ => sameChar_caseless⟩
  | any newline nul => exact h
  | named k negated fold =>
    obtain rfl : negated = false := ht
    apply h.mono
    intro a ha
    simp only [bne_iff_ne, ne_eq, Bool.not_eq_false] at ha ⊢
    exact k.accepts_caseless ha
  | set s => exact h.mono fun a => CharSet.accepts_caseless ht.1 ht.2
  | anchor edge multiline => exact h
  | boundary b => exact h
  | backref g fold => exact h

namespace Pattern

variable {p : Pattern}

theorem hasBackref_caseless (p : Pattern) : p.caseless.hasBackref = p.hasBackref := by
  induction p with
  | test t => cases t <;> rfl
  | seq p q hp hq => exact congrArg₂ (· || ·) hp hq
  | alt p q hp hq => exact congrArg₂ (· || ·) hp hq
  | empty => rfl
  | group g p hp => exact hp
  | repeated p lo hi greedy hp => exact hp
  | look negated p hp => exact hp

theorem everyRepeat_caseless {P : Nat → Option Nat → Prop} (h : p.EveryRepeat P) : p.caseless.EveryRepeat P := by
  induction p with
  | empty => exact trivial
  | test t => exact trivial
  | seq p q hp hq => exact ⟨hp h.1, hq h.2⟩
  | alt p q hp hq => exact ⟨hp h.1, hq h.2⟩
  | group g p hp => exact hp h
  | repeated p lo hi greedy hp => exact ⟨h.1, hp h.2⟩
  | look negated p hp => exact hp h

theorem spans_caseless (hn : p.hasNegation = false) (ht : p.EveryTest Test.Positive) {i j : Nat}
    (h : p.Spans c i j) : p.caseless.Spans c i j := by
  induction p generalizing i j with
  | empty => exact h
  | test t => exact t.spans_caseless ht h
  | seq p q hp hq =>
    obtain ⟨hpn, hqn⟩ := Bool.or_eq_false_iff.mp hn
    obtain ⟨m, hm, hj⟩ := h
    exact ⟨m, hp hpn ht.1 hm, hq hqn ht.2 hj⟩
  | alt p q hp hq =>
    obtain ⟨hpn, hqn⟩ := Bool.or_eq_false_iff.mp hn
    exact h.imp (hp hpn ht.1) (hq hqn ht.2)
  | group g p hp => exact hp hn ht h
  | repeated p lo hi greedy hp => exact Counted.mono (fun _ _ => hp hn ht) h
  | look negated p hp =>
    obtain ⟨rfl, hpn⟩ := Bool.or_eq_false_iff.mp hn
    obtain ⟨rfl, k, hk⟩ := h
    exact ⟨rfl, k, hp hpn ht hk⟩

theorem reaches_caseless (hn : p.hasNegation = false) (ht : p.EveryTest Test.Positive)
    (hmin : p.EveryRepeat fun lo _ => lo ≤ 1) {i j : Nat} (h : p.Reaches c i j) : p.caseless.Reaches c i j := by
  rw [reaches_iff_spans hmin] at h
  rw [reaches_iff_spans (everyRepeat_caseless hmin)]
  exact spans_caseless hn ht h

end Pattern

namespace Regex

variable {r : Regex} {source : String} {d : Dialect} {o : Options}

theorem exists_caseless (hr : compile source d o = .ok r) :
    ∃ r' : Regex, compile source d o.caseless = .ok r' ∧ r'.body = r.body.caseless := by
  have hc := compile_caseless (compile_eq_ok hr)
  refine ⟨⟨source, d, o.caseless, r.body.caseless, r.groupCount, !r.body.caseless.hasBackref, rfl⟩, ?_, rfl⟩
  rw [compile, hc]

theorem findAt_start_le {r' : Regex} (hr : compile source d o = .ok r) {o' : Options}
    (hr' : compile source d o' = .ok r') {flags : SearchFlags} {input : Input Id} {text : List Char}
    (h : input.Reads text) {offset : Nat}
    (hkeeps : ∀ i, (r.run r.whole flags input offset i : Option State).isSome = true →
      (r'.run r'.whole flags input offset i : Option State).isSome = true) {m : Match}
    (hm : r.findAt flags input offset = some m) :
    ∃ m', r'.findAt flags input offset = some m' ∧ m'.start ≤ m.start := by
  obtain ⟨i, t, hle, hend, ht, rfl⟩ := findAt_run h hm
  have hsome : (r'.run r'.whole flags input offset i : Option State).isSome = true := by
    apply hkeeps
    rw [ht]
    rfl
  cases hfind : (r'.findAt flags input offset : Option Match) with
  | none =>
    rw [(findAt_eq_none_iff h offset).mp hfind i hle hend] at hsome
    cases hsome
  | some m' =>
    obtain ⟨p, hp, hpend, hrun, hfirst⟩ := (findAt_eq_some_iff h offset m').mp hfind
    obtain ⟨t', ht', rfl⟩ := Option.map_eq_some_iff.mp hrun
    refine ⟨_, rfl, ?_⟩
    rw [(ofState_run hr h ht).1, (ofState_run hr' h ht').1]
    apply Nat.le_of_not_lt
    intro hlt
    rw [hfirst i hle hlt] at hsome
    cases hsome

theorem ignoring_case_keeps_matches (hr : compile source d o = .ok r) (hb : r.body.hasBackref = false)
    (hn : r.body.hasNegation = false) (ht : r.body.EveryTest Test.Positive)
    (hmin : r.body.EveryRepeat fun lo _ => lo ≤ 1) :
    ∃ r' : Regex, compile source d { o with ignoreCase := true } = .ok r' ∧ ∀ s : String,
      (r.isMatch (.ofString s) = true → r'.isMatch (.ofString s) = true) ∧
        (r.isFullMatch (.ofString s) = true → r'.isFullMatch (.ofString s) = true) ∧
        ∀ m, r.find (.ofString s) = some m → ∃ m', r'.find (.ofString s) = some m' ∧ m'.start ≤ m.start := by
  obtain ⟨r', hr', hbody⟩ := exists_caseless hr
  have hb' : r'.body.hasBackref = false := by rw [hbody, Pattern.hasBackref_caseless, hb]
  have hv := compile_inOrder (compile_eq_ok hr)
  have hv' := compile_inOrder (compile_eq_ok hr')
  have hreaches (c : Setting) (i j : Nat) (h : r.body.Reaches c i j) : r'.body.Reaches c i j := by
    rw [hbody]
    exact Pattern.reaches_caseless hn ht hmin h
  refine ⟨r', hr', ?_⟩
  intro s
  have h := Haystack.input_reads s
  have hfind (m : Match) (hm : r.find (.ofString s) = some m) :
      ∃ m', r'.find (.ofString s) = some m' ∧ m'.start ≤ m.start := by
    refine findAt_start_le hr hr' h (fun i hi => ?_) hm
    rw [run_isSome_iff {} h (p := r.whole) hb hv] at hi
    rw [run_isSome_iff {} h (p := r'.whole) hb' hv']
    obtain ⟨j, hj⟩ := hi
    exact ⟨j, hreaches _ i j hj⟩
  refine ⟨?_, ?_, hfind⟩
  · intro hm
    obtain ⟨m, hm⟩ := Option.isSome_iff_exists.mp hm
    obtain ⟨m', hm', _⟩ := hfind m hm
    rw [isMatch, hm']
    rfl
  · rw [isFullMatch_iff hb hv, isFullMatch_iff hb' hv']
    exact hreaches _ 0 _

theorem ignoring_case_keeps_matches_lookahead :
    ∃ r r' : Regex, compile "(?=\\w)([a-f]*z|[Q])" .perl5 {} = .ok r ∧ r.body.hasBackref = false ∧
      r.body.hasNegation = false ∧ r.body.EveryTest Test.Positive ∧ (r.body.EveryRepeat fun lo _ => lo ≤ 1) ∧
      compile "(?=\\w)([a-f]*z|[Q])" .perl5 { ignoreCase := true } = .ok r' ∧
      r.find (.ofString "qABz") = some ⟨3, 4, [some (3, 4), some (3, 4)]⟩ ∧
      ∃ m', r'.find (.ofString "qABz") = some m' ∧ m'.start ≤ 3 := by
  let list (items : List SetItem) : Pattern := .test (.set ⟨items, false, false, false⟩)
  let body : Pattern := .seq (.look false (.test (.named .word false false))) (.group (some 1)
    (.alt (.seq (.repeated (list [.range 'a' 'f']) 0 none true) (.test (.literal ['z'] false))) (list [.char 'Q'])))
  let r : Regex := ⟨"(?=\\w)([a-f]*z|[Q])", .perl5, {}, body, 2, true, rfl⟩
  have hbody : DialectRegex.compile .perl5 {} r.source.toList = .ok (r.body, 2) := by decide +kernel
  have hr : compile r.source .perl5 {} = .ok r := by rw [compile, hbody]; rfl
  have ht : r.body.EveryTest Test.Positive := by simp [r, body, list, Pattern.EveryTest, Test.Positive]
  have hmin : r.body.EveryRepeat fun lo _ => lo ≤ 1 := by simp [r, body, list, Pattern.EveryRepeat]
  have hfind : r.find (.ofString "qABz") = some ⟨3, 4, [some (3, 4), some (3, 4)]⟩ := by decide +kernel
  obtain ⟨r', hr', h⟩ := ignoring_case_keeps_matches hr rfl rfl ht hmin
  exact ⟨r, r', hr, rfl, rfl, ht, hmin, hr', hfind, (h "qABz").2.2 _ hfind⟩

end Regex

end DialectRegex
