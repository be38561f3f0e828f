import DialectRegex.Dialect.Named
import DialectRegex.Regex
import DialectRegex.Proofs.Text.CaseMappings

namespace DialectRegex

open Unicode

variable {lo hi c : Char} {fold : Bool}

theorem inRange_eq_true_iff : inRange lo hi c = true ↔ c ∈ (lo...=hi) := by
  rw [inRange, Bool.and_eq_true, decide_eq_true_iff, decide_eq_true_iff]
  exact Iff.rfl

structure OnlyMeets (lo hi c : Char) : Prop where
  meets : ∃ x ∈ (lo...=hi), Text.eqIgnoringCase c x = true
  outside : c ∉ (lo...=hi)
  lower : toLower c ∉ (lo...=hi)
  upper : toUpper c ∉ (lo...=hi)

theorem OnlyMeets.not_newline (h : OnlyMeets lo hi c) : c ≠ '\n' := by
  rintro rfl
  obtain ⟨x, hx, hmeets⟩ := h.meets
  obtain rfl : '\n' = x := by
    rw [Text.eqIgnoringCase, Bool.or_eq_true, Bool.or_eq_true, beq_iff_eq, beq_iff_eq, beq_iff_eq] at hmeets
    obtain (hmeets | hmeets) | hmeets := hmeets
    · exact hmeets
    · exact ((settles_toLower x).newline hmeets.symm).symm
    · exact ((settles_toUpper x).newline hmeets.symm).symm
  exact h.outside hx

namespace SetItem

def members (lo hi : Char) : List SetItem := (lo...=hi).toList.map .char

theorem members_self (c : Char) : members c c = [.char c] := by
  rw [members, Std.Rcc.toList_eq_if_roc, if_pos (Char.le_refl c), Std.Roc.toList_eq_nil_iff.mpr (Char.lt_irrefl c)]
  rfl

theorem accepts_range : (range lo hi).accepts fold c = true ↔
    c ∈ (lo...=hi) ∨ fold = true ∧ (toLower c ∈ (lo...=hi) ∨ toUpper c ∈ (lo...=hi)) := by
  rw [accepts, Bool.or_eq_true, Bool.and_eq_true, Bool.or_eq_true, inRange_eq_true_iff, inRange_eq_true_iff,
    inRange_eq_true_iff]

theorem any_members : (members lo hi).any (·.accepts fold c) = true ↔
    c ∈ (lo...=hi) ∨ fold = true ∧ ∃ x ∈ (lo...=hi), Text.eqIgnoringCase c x = true := by
  rw [members, List.any_map, List.any_eq_true]
  simp only [Function.comp_apply, accepts, Bool.or_eq_true, Bool.and_eq_true, beq_iff_eq, Std.Rcc.mem_toList_iff_mem]
  constructor
  · rintro ⟨x, hx, rfl | ⟨hfold, hmeets⟩⟩
    · exact .inl hx
    · exact .inr ⟨hfold, x, hx, hmeets⟩
  · rintro (hc | ⟨hfold, x, hx, hmeets⟩)
    · exact ⟨c, hc, .inl rfl⟩
    · exact ⟨x, hx, .inr ⟨hfold, hmeets⟩⟩

theorem any_members_of_range (h : (range lo hi).accepts fold c = true) :
    (members lo hi).any (·.accepts fold c) = true := by
  rw [any_members]
  obtain hc | ⟨hfold, hlower | hupper⟩ := accepts_range.mp h
  · exact .inl hc
  -- the case form in the range is itself the member, since mapping it again changes nothing
  · exact .inr ⟨hfold, _, hlower, by simp [Text.eqIgnoringCase, (settles_toLower c).again]⟩
  · exact .inr ⟨hfold, _, hupper, by simp [Text.eqIgnoringCase, (settles_toUpper c).again]⟩

theorem only_members_iff : (members lo hi).any (·.accepts fold c) = true ∧ (range lo hi).accepts fold c = false ↔
    fold = true ∧ OnlyMeets lo hi c := by
  rw [any_members, ← Bool.not_eq_true, accepts_range, not_or, not_and, not_or]
  constructor
  · rintro ⟨hc | ⟨hfold, hmeets⟩, hout, hcase⟩
    · exact absurd hc hout
    · exact ⟨hfold, hmeets, hout, (hcase hfold).1, (hcase hfold).2⟩
  · rintro ⟨hfold, h⟩
    exact ⟨.inr ⟨hfold, h.meets⟩, h.outside, fun _ => ⟨h.lower, h.upper⟩⟩

theorem accepts_range_widen {lo' hi' : Char} (hlo : lo' ≤ lo) (hhi : hi ≤ hi')
    (h : (range lo hi).accepts fold c = true) : (range lo' hi').accepts fold c = true := by
  have hwiden {x : Char} (hx : x ∈ (lo...=hi)) : x ∈ (lo'...=hi') := ⟨Char.le_trans hlo hx.1, Char.le_trans hx.2 hhi⟩
  rw [accepts_range] at h ⊢
  exact h.imp hwiden (And.imp_right (Or.imp hwiden hwiden))

end SetItem

namespace CharSet

variable {s : CharSet} {items items' before after : List SetItem}

theorem accepts_eq_iff (hs : s.items = items)
    (hnewline : items.any (·.accepts s.fold c) ≠ items'.any (·.accepts s.fold c) → c ≠ '\n') :
    s.accepts c = ({ s with items := items' } : CharSet).accepts c ↔
      items.any (·.accepts s.fold c) = items'.any (·.accepts s.fold c) := by
  rw [accepts, accepts, hs]
  dsimp only
  generalize items.any (·.accepts s.fold c) = hit at *
  generalize items'.any (·.accepts s.fold c) = hit' at *
  by_cases heq : hit = hit'
  · subst heq
    simp
  -- only a newline that a negated set refuses anyway would hide the difference
  have hc : (c == '\n') = false := beq_eq_false_iff_ne.mpr (hnewline heq)
  cases s.negated <;> simp [hc, heq]

theorem accepts_mono (hs : s.items = items) (hn : s.negated = false)
    (h : items.any (·.accepts s.fold c) = true → items'.any (·.accepts s.fold c) = true) (hc : s.accepts c = true) :
    ({ s with items := items' } : CharSet).accepts c = true := by
  rw [accepts, hn, hs] at hc
  rw [accepts, hn]
  exact h hc

theorem any_around (p : SetItem → Bool) (mid : List SetItem) :
    (before ++ mid ++ after).any p = (mid.any p || (before ++ after).any p) := by
  rw [List.any_append, List.any_append, List.any_append, Bool.or_comm (before.any p), Bool.or_assoc]

theorem any_around_range (p : SetItem → Bool) (lo hi : Char) :
    (before ++ .range lo hi :: after).any p = (p (.range lo hi) || (before ++ after).any p) := by
  rw [← List.singleton_append, ← List.append_assoc, any_around, List.any_cons, List.any_nil, Bool.or_false]

theorem any_range_ne_any_members : (before ++ .range lo hi :: after).any (·.accepts fold c) ≠
      (before ++ SetItem.members lo hi ++ after).any (·.accepts fold c) ↔
    fold = true ∧ OnlyMeets lo hi c ∧ ∀ i ∈ before ++ after, i.accepts true c = false := by
  have hothers : (∀ i ∈ before ++ after, i.accepts fold c = false) ↔
      (before ++ after).any (·.accepts fold c) = false := by
    simp only [List.any_eq_false, Bool.not_eq_true]
  rw [any_around_range, any_around]
  constructor
  · intro hne
    cases hany : (before ++ after).any (·.accepts fold c)
    · rw [hany, Bool.or_false, Bool.or_false] at hne
      have hrange : (SetItem.range lo hi).accepts fold c = false :=
        Bool.eq_false_iff.mpr fun h => hne (h.trans (SetItem.any_members_of_range h).symm)
      rw [hrange, ne_comm, Bool.ne_false_iff] at hne
      obtain ⟨rfl, honly⟩ := SetItem.only_members_iff.mp ⟨hne, hrange⟩
      exact ⟨rfl, honly, hothers.mpr hany⟩
    · rw [hany, Bool.or_true, Bool.or_true] at hne
      exact absurd rfl hne
  · rintro ⟨rfl, honly, hout⟩
    obtain ⟨hmembers, hrange⟩ := SetItem.only_members_iff.mpr ⟨rfl, honly⟩
    rw [hmembers, hrange, hothers.mp hout]
    decide

/-- A range without regard to case misses the characters that have the case of a member but no case form in the range,
and nothing else; so a set that is not negated accepts no more than one with the members, and no less if the range is
wider. -/
theorem range_for_members (hs : s.items = before ++ .range lo hi :: after) :
    (∀ c, s.accepts c = ({ s with items := before ++ SetItem.members lo hi ++ after } : CharSet).accepts c ↔
      ¬ (s.fold = true ∧ OnlyMeets lo hi c ∧ ∀ i ∈ before ++ after, i.accepts true c = false)) ∧
    (s.negated = false → ∀ c, s.accepts c = true →
      ({ s with items := before ++ SetItem.members lo hi ++ after } : CharSet).accepts c = true) ∧
    (s.negated = false → ∀ lo' ≤ lo, ∀ hi' ≥ hi, ∀ c, s.accepts c = true →
      ({ s with items := before ++ .range lo' hi' :: after } : CharSet).accepts c = true) := by
  refine ⟨fun c => ?_, fun hn c => ?_, fun hn lo' hlo hi' hhi c => ?_⟩
  · rw [accepts_eq_iff hs fun hne => (any_range_ne_any_members.mp hne).2.1.not_newline, ← any_range_ne_any_members,
      not_ne_iff]
  · apply accepts_mono hs hn
    rw [any_around_range, any_around, Bool.or_eq_true, Bool.or_eq_true]
    exact Or.imp_left SetItem.any_members_of_range
  · apply accepts_mono hs hn
    rw [any_around_range, any_around_range, Bool.or_eq_true, Bool.or_eq_true]
    exact Or.imp_left (SetItem.accepts_range_widen hlo hhi)

theorem range_for_members_negated :
    ∃ s : CharSet, readBracket .perl5 true "^_k-s\\d]".toList = .ok (s, []) ∧
      s.items = [.char '_'] ++ .range 'k' 's' :: [.named .digit false] ∧
      s.accepts '\u017f' ≠ ({ s with
        items := [.char '_'] ++ SetItem.members 'k' 's' ++ [.named .digit false] } : CharSet).accepts '\u017f' ∧
      s.accepts '\u212a' = ({ s with
        items := [.char '_'] ++ SetItem.members 'k' 's' ++ [.named .digit false] } : CharSet).accepts '\u212a' := by
  let s : CharSet := ⟨[.char '_', .range 'k' 's', .named .digit false], true, true, false⟩
  have hs : readBracket .perl5 true "^_k-s\\d]".toList = .ok (s, []) := by decide +kernel
  have hitems : s.items = [.char '_'] ++ .range 'k' 's' :: [.named .digit false] := rfl
  obtain ⟨hsame, _⟩ := range_for_members hitems
  refine ⟨s, hs, hitems, fun heq => (hsame '\u017f').mp heq ⟨rfl, ?_, by decide +kernel⟩, (hsame '\u212a').mpr ?_⟩
  · exact ⟨⟨'s', by decide, by decide +kernel⟩, by decide, by decide +kernel, by decide +kernel⟩
  · rintro ⟨_, honly, _⟩
    exact honly.lower (by decide +kernel)

end CharSet

namespace Regex

/-- As a range, a final sigma does not match the medial one, while as a character it does: the two have the same upper
case only. -/
theorem range_misses_sigma :
    ∃ (r q : Regex) (s : CharSet) (m : Match), compile "[ς-ς]" .perl5 { ignoreCase := true } = .ok r ∧
      compile "[ς]" .perl5 { ignoreCase := true } = .ok q ∧ r.body = .test (.set s) ∧ s.items = [.range 'ς' 'ς'] ∧
      q.body = .test (.set { s with items := SetItem.members 'ς' 'ς' }) ∧ r.find (.ofString "σ") = none ∧
      q.find (.ofString "σ") = some m := by
  let s : CharSet := ⟨[.range 'ς' 'ς'], false, true, false⟩
  let t : CharSet := ⟨[.char 'ς'], false, true, false⟩
  let r : Regex := ⟨"[ς-ς]", .perl5, { ignoreCase := true }, .test (.set s), 1, true, rfl⟩
  let q : Regex := ⟨"[ς]", .perl5, { ignoreCase := true }, .test (.set t), 1, true, rfl⟩
  have hrange : DialectRegex.compile .perl5 { ignoreCase := true } r.source.toList = .ok (r.body, 1) := by
    decide +kernel
  have hchar : DialectRegex.compile .perl5 { ignoreCase := true } q.source.toList = .ok (q.body, 1) := by
    decide +kernel
  have hr : compile r.source .perl5 { ignoreCase := true } = .ok r := by rw [compile, hrange]; rfl
  have hq : compile q.source .perl5 { ignoreCase := true } = .ok q := by rw [compile, hchar]; rfl
  have hnone : r.find (.ofString "σ") = none := by decide +kernel
  have hsome : q.find (.ofString "σ") = some ⟨0, 1, [some (0, 1)]⟩ := by decide +kernel
  exact ⟨r, q, s, _, hr, hq, rfl, rfl, by rw [SetItem.members_self], hnone, hsome⟩

end Regex

end DialectRegex
