import DialectRegex.Pattern.Printer
import DialectRegex.Proofs.Grammar.Counting

namespace DialectRegex

open Dialect

theorem renderControl_cases (c : Char) :
    renderControl c = [c] ∨
      ∃ l, renderControl c = ['\\', l] ∧ controlEscape? l = some c ∧ l ∈ ['n', 't', 'r', 'f'] := by
  rw [renderControl, controlLetter?.eq_def]
  split
  · next h => split at h <;> cases h <;> exact .inr ⟨_, rfl, rfl, by decide⟩
  · exact .inl rfl

theorem escape?_cases {k : CharClass} (hk : k.escape?.isSome) : k = .digit ∨ k = .word ∨ k = .space := by
  cases k <;> simp_all [CharClass.escape?]

def SetItem.Spelled : SetItem → Prop
  | char _ => True
  | range lo hi => lo ≤ hi
  | named k _ => k.escape?.isSome

/-- The spelling of the test says what it is. The dot and the lists do not depend on a newline as in other dialects, and
the two sides of a word cannot be spelled. -/
def Test.Spelled (o : Options) : Test → Prop
  | any newline nul => newline = (perl5.has .dotNewline || o.dotNewline) ∧ nul = true
  | set s => (∀ i ∈ s.items, i.Spelled) ∧ s.notNewline = false
  | boundary b => b ≠ .wordStart ∧ b ≠ .wordEnd
  | _ => True

section Set

variable {opened rest : List Char}

theorem readMember_plain {c : Char} (hc : c ≠ '\\') (rest : List Char) :
    readMember perl5 opened (c :: rest) = .ok (.char c, rest) := by
  have hclasses : perl5.has .charClasses = false := by decide
  rw [readMember_cons hclasses, if_neg fun h => hc h.1]

theorem readMember_renderSetChar (c : Char) (rest : List Char) :
    readMember perl5 opened (renderSetChar c ++ rest) = .ok (.char c, rest) := by
  rw [renderSetChar]
  split
  · next hc =>
    simp only [List.mem_cons, List.not_mem_nil, or_false] at hc
    rcases hc with rfl | rfl | rfl | rfl | rfl <;> rfl
  · next hc =>
    rcases renderControl_cases c with h | ⟨l, h, hl, hmem⟩
    · rw [h]
      exact readMember_plain (by rintro rfl; exact hc (by decide)) rest
    · rw [h]
      simp only [List.mem_cons, List.not_mem_nil, or_false] at hmem
      rcases hmem with rfl | rfl | rfl | rfl <;> cases hl <;> rfl

theorem readMember_render_named {k : CharClass} (hk : k.escape?.isSome) (negated : Bool) (rest : List Char) :
    readMember perl5 opened (k.render negated ++ rest) = .ok (.named k negated, rest) := by
  rcases escape?_cases hk with rfl | rfl | rfl <;> cases negated <;> rfl

theorem afterHyphen?_none (h : rest.head? ≠ some '-') : afterHyphen? rest = none := by
  cases rest with
  | nil => rfl
  | cons c rest =>
    rw [afterHyphen?.eq_def]
    split <;> simp_all

theorem render_item_cons {i : SetItem} (hi : i.Spelled) : ∃ a cs, i.render = a :: cs ∧ a ∉ [']', '^', '-'] := by
  have hchar (c : Char) : ∃ a cs, renderSetChar c = a :: cs ∧ a ∉ [']', '^', '-'] := by
    rw [renderSetChar]
    split
    · exact ⟨_, _, rfl, by decide⟩
    · next hc =>
      rcases renderControl_cases c with h | ⟨l, h, _⟩
      · rw [h]
        refine ⟨c, [], rfl, ?_⟩
        simp only [List.mem_cons, List.not_mem_nil, or_false, not_or] at hc ⊢
        exact ⟨hc.1, hc.2.2.1, hc.2.2.2.1⟩
      · rw [h]
        exact ⟨_, _, rfl, by decide⟩
  cases i with
  | char c => exact hchar c
  | range lo hi' =>
    obtain ⟨a, cs, h, ha⟩ := hchar lo
    refine ⟨a, cs ++ '-' :: renderSetChar hi', ?_, ha⟩
    rw [SetItem.render, h]
    rfl
  | named k negated =>
    rcases escape?_cases hi with rfl | rfl | rfl <;> cases negated <;> exact ⟨_, _, rfl, by decide⟩

theorem readItems_render {i : SetItem} (hi : i.Spelled) (hrest : rest.head? ≠ some '-') :
    readItems perl5 opened (i.render ++ rest) = .ok ([i], rest) := by
  cases i with
  | char c =>
    rw [SetItem.render, readItems, readMember_renderSetChar]
    dsimp only
    rw [afterHyphen?_none hrest]
  | range lo hi' =>
    obtain ⟨a, cs, ha, hne⟩ := render_item_cons (show (SetItem.char hi').Spelled from trivial)
    have hhyphen : afterHyphen? ('-' :: (renderSetChar hi' ++ rest)) = some (renderSetChar hi' ++ rest) := by
      rw [SetItem.render] at ha
      rw [ha, afterHyphen?.eq_def]
      split <;> simp_all
    rw [SetItem.render, List.append_assoc, readItems, readMember_renderSetChar, List.cons_append]
    dsimp only
    rw [hhyphen]
    dsimp only
    rw [readMember_renderSetChar]
    dsimp only
    rw [if_neg]
    have hle : ¬ hi' < lo := Char.not_lt.mpr hi
    simp [hle]
  | named k negated => rw [SetItem.render, readItems, readMember_render_named hi]

theorem readList_render {is : List SetItem} (hne : is ≠ []) (his : ∀ i ∈ is, i.Spelled) :
    readList perl5 opened (is.flatMap SetItem.render ++ ']' :: rest) = .ok (is, rest) := by
  induction is with
  | nil => exact absurd rfl hne
  | cons i is ih =>
    obtain ⟨hi, his⟩ := List.forall_mem_cons.mp his
    rw [List.flatMap_cons, List.append_assoc]
    cases is with
    | nil => exact readList_close (readItems_render hi (by simp))
    | cons j js =>
      obtain ⟨a, cs, ha, hmem⟩ := render_item_cons (his j List.mem_cons_self)
      have hhead : ((j :: js).flatMap SetItem.render ++ ']' :: rest).head? = some a := by
        rw [List.flatMap_cons, ha]
        rfl
      refine readList_more (readItems_render hi ?_) ?_ (ih (List.cons_ne_nil j js) his)
      · rw [hhead]
        rintro ⟨⟩
        exact hmem (by decide)
      · intro r hr
        rw [hr] at hhead
        cases hhead
        exact hmem (by decide)

theorem readBracket_render {s : CharSet} (hne : s.items ≠ []) (his : ∀ i ∈ s.items, i.Spelled)
    (hs : s.notNewline = false) (rest : List Char) :
    readBracket perl5 s.fold ((if s.negated then ['^'] else []) ++ s.items.flatMap SetItem.render ++ ']' :: rest) =
      .ok (s, rest) := by
  obtain ⟨items, negated, fold, notNewline⟩ := s
  obtain rfl : notNewline = false := hs
  cases negated with
  | true =>
    change readBracket perl5 fold ('^' :: (items.flatMap SetItem.render ++ ']' :: rest)) = _
    have hcaret : (some '^' == some '^') = true := rfl
    rw [readBracket_cons, hcaret, if_pos rfl, readList_render hne his]
    rfl
  | false =>
    obtain ⟨a, cs, ha, hmem⟩ : ∃ a cs, items.flatMap SetItem.render ++ ']' :: rest = a :: cs ∧ a ∉ [']', '^', '-'] := by
      cases items with
      | nil => exact absurd rfl hne
      | cons i is =>
        obtain ⟨a, cs, ha, hmem⟩ := render_item_cons (his i List.mem_cons_self)
        exact ⟨a, cs ++ (is.flatMap SetItem.render ++ ']' :: rest), by simp [ha], hmem⟩
    have hcaret : (some a == some '^') = false := by
      rw [beq_eq_false_iff_ne]
      rintro ⟨⟩
      exact hmem (by decide)
    have hlist : readList perl5 ('[' :: a :: cs) (items.flatMap SetItem.render ++ ']' :: rest) = .ok (items, rest) :=
      readList_render hne his
    change readBracket perl5 fold (items.flatMap SetItem.render ++ ']' :: rest) = _
    rw [ha] at hlist ⊢
    rw [readBracket_cons, hcaret, if_neg Bool.false_ne_true, hlist]
    rfl

end Set

section Reading

variable {o : Options} {n : Nat} {f : Frame} {outer : List Frame}

theorem step_atom {d : Dialect} {p : Progress} {c : Char} {rest : List Char} (h : d.operator? (c :: rest) = none) :
    d.step o p c rest = d.atom o p c rest := by
  rw [step, h]

theorem step_bare {d : Dialect} {c : Char} (hc : c ∉ ['.', '^', '$', '[', '\\']) {rest : List Char}
    (hop : d.operator? (c :: rest) = none) (p : Progress) : d.step o p c rest = .ok (p.push rest (.char c)) := by
  have hne (a : Char) (ha : a ∈ ['.', '^', '$', '[', '\\']) : c ≠ a := fun h => hc (h ▸ ha)
  rw [step_atom hop, atom, if_neg (hne '.' (by decide)), if_neg fun h => hne '^' (by decide) h.1,
    if_neg fun h => hne '$' (by decide) h.1, if_neg (hne '[' (by decide)), if_neg (hne '\\' (by decide))]

def specialChars : List Char := ['.', '^', '$', '[', '\\', '(', ')', '|', '\x7b', '*', '+', '?']

theorem step_ordinary {d : Dialect} (hd : d.has .newlineAlternates = false) {c : Char} (hc : c ∉ specialChars)
    (p : Progress) (rest : List Char) : d.step o p c rest = .ok (p.push rest (.char c)) := by
  have hsub : ['.', '^', '$', '[', '\\'] ⊆ specialChars := by decide
  have hne : c ≠ '\\' := by
    rintro rfl
    exact hc (by decide)
  have hnone : d.bareOperator? c rest = none := by
    rw [bareOperator?.eq_def]
    split
    case h_4 => rw [hd]; rfl
    case h_9 => rfl
    all_goals exact absurd (by decide) hc
  apply step_bare fun h => hc (hsub h)
  rw [operator?_bare hne, hnone, Option.map_none]

theorem finish_char (c : Char) (rest : List Char) :
    perl5.finish o ⟨renderLiteral c ++ rest, n, f, outer⟩ = perl5.finish o ⟨rest, n, f.push (.char c), outer⟩ := by
  rw [renderLiteral]
  split
  · next hc =>
    have hchars : c ∈ ['\\', '.', '^', '$', '|', '?', '*', '+', '(', ')', '[', ']', '\x7b', '\x7d'] := hc
    simp only [List.mem_cons, List.not_mem_nil, or_false] at hchars
    rcases hchars with rfl | rfl | rfl | rfl | rfl | rfl | rfl | rfl | rfl | rfl | rfl | rfl | rfl | rfl <;>
      exact finish_cons rfl rfl
  · next hc =>
    rcases renderControl_cases c with h | ⟨l, h, hl, hmem⟩
    · rw [h]
      have hsub : specialChars ⊆ operatorChars := by decide
      exact finish_cons rfl (step_ordinary (by decide) (fun h => hc (hsub h)) _ rest)
    · rw [h]
      simp only [List.mem_cons, List.not_mem_nil, or_false] at hmem
      rcases hmem with rfl | rfl | rfl | rfl <;> cases hl <;> exact finish_cons rfl rfl

theorem finish_chars (o : Options) (n : Nat) (f : Frame) (outer : List Frame) (cs rest : List Char) :
    ∃ b, perl5.finish o ⟨cs.flatMap renderLiteral ++ rest, n, f, outer⟩ =
      perl5.finish o ⟨rest, n, { f with nodes := (cs.map Node.char).reverse ++ f.nodes, repeatable := b }, outer⟩ := by
  induction cs generalizing f with
  | nil => exact ⟨f.repeatable, rfl⟩
  | cons c cs ih =>
    obtain ⟨b, hb⟩ := ih (f.push (.char c))
    refine ⟨b, ?_⟩
    rw [List.flatMap_cons, List.append_assoc, finish_char, hb, List.map_cons, List.reverse_cons, List.append_assoc]
    rfl

theorem decimal_digit {g : Nat} (hpos : 0 < g) (hg : g < 10) :
    ∃ c, decimal g = [c] ∧ Text.digit? c = some g ∧ ∀ cs, perl5.operator? ('\\' :: c :: cs) = none := by
  have hcases : g = 1 ∨ g = 2 ∨ g = 3 ∨ g = 4 ∨ g = 5 ∨ g = 6 ∨ g = 7 ∨ g = 8 ∨ g = 9 := by omega
  rcases hcases with rfl | rfl | rfl | rfl | rfl | rfl | rfl | rfl | rfl <;> exact ⟨_, rfl, by decide, fun _ => rfl⟩

theorem finish_atom {t : Test} (ht : t.Atom o n) (hs : t.Spelled o) (rest : List Char) :
    perl5.finish o ⟨t.render ++ rest, n, f, outer⟩ = perl5.finish o ⟨rest, n, f.push (.piece (.test t)), outer⟩ := by
  cases ht with
  | any newline nul =>
    obtain ⟨rfl, rfl⟩ := hs
    exact finish_cons rfl rfl
  | named negated hk =>
    rcases escape?_cases hk with rfl | rfl | rfl <;> cases negated <;> exact finish_cons rfl rfl
  | @set s hf hi =>
    let p : Progress := ⟨(Test.set s).render ++ rest, n, f, outer⟩
    have hp : p.rest = '[' :: ((if s.negated then ['^'] else []) ++ s.items.flatMap SetItem.render ++ ']' :: rest) := by
      simp [p, Test.render, CharSet.render]
    apply finish_cons hp
    rw [step_atom rfl, atom, if_neg (by decide), if_neg (by simp), if_neg (by simp), if_pos rfl, ← hf,
      readBracket_render hi hs.1 hs.2]
    rfl
  | @backref g hpos hg hd =>
    have hgroups : ¬ n ≤ g := Nat.not_le.mpr hg
    obtain ⟨c, hc, hvalue, hop⟩ := decimal_digit hpos hd
    have hzero : ¬ (decide (g = 0) || perl5.has .noBackrefs) = true := by
      have hflag : perl5.has .noBackrefs = false := by decide
      rw [hflag, Bool.or_false, decide_eq_true_iff]
      omega
    rw [Test.render, hc]
    apply finish_cons rfl
    refine (step_atom (hop rest)).trans ?_
    change perl5.escape o _ (c :: rest) = _
    rw [escape, Dialect.backref, hvalue]
    dsimp only
    rw [if_neg hzero, if_neg hgroups]
    rfl

theorem finish_assertion {t : Test} (ht : t.Assertion o) (hs : t.Spelled o) (hm : o.multiline = false)
    (rest : List Char) :
    perl5.finish o ⟨t.render ++ rest, n, f, outer⟩ = perl5.finish o ⟨rest, n, f.assert (.test t), outer⟩ := by
  have hanywhere : perl5.has .anchorsAnywhere = true := by decide
  cases ht with
  | @anchor e multiline hmulti =>
    obtain rfl : multiline = o.multiline := by
      cases multiline with
      | true => exact (hmulti rfl).symm
      | false => exact hm.symm
    cases e with
    | start =>
      apply finish_cons rfl
      rw [step_atom rfl, atom, if_neg (by decide), if_pos ⟨rfl, by rw [hanywhere, Bool.or_true]⟩]
      rfl
    | stop =>
      apply finish_cons rfl
      rw [step_atom rfl, atom, if_neg (by decide), if_neg (by simp), if_pos ⟨rfl, by rw [hanywhere, Bool.true_or]⟩]
      rfl
  | boundary b =>
    cases b with
    | either => exact finish_cons rfl rfl
    | neither => exact finish_cons rfl rfl
    | wordStart => exact absurd rfl hs.1
    | wordEnd => exact absurd rfl hs.2

def mark (bare : Bool) (c : Char) : List Char := if bare then [c] else ['\\', c]

theorem finish_mark {d : Dialect} {p r : Progress} {bare : Bool} (op : Operator) {c : Char} {rest : List Char}
    (hp : p.rest = mark bare c ++ rest) (hc : c ≠ '\\') (hbare : bare = true → d.bareOperator? c rest = some op)
    (hescaped : bare = false → d.escapedOperator? c rest = some op) (h : d.applyOperator o p rest op = .ok r) :
    d.finish o p = d.finish o r := by
  cases bare with
  | true =>
    apply finish_cons hp
    change d.step o p c rest = _
    rw [step, operator?_bare hc, hbare rfl]
    exact h
  | false =>
    apply finish_cons hp
    change d.step o p '\\' (c :: rest) = _
    rw [step, operator?, hescaped rfl]
    exact h

theorem finish_repetition {d : Dialect} (hf : f.repeatable = true) (bare : Bool) (op : Operator) {c : Char} {b : Bounds}
    {greedy : Bool} {after middle rest : List Char} (hc : c ≠ '\\')
    (hbare : bare = true → d.bareOperator? c after = some op)
    (hescaped : bare = false → d.escapedOperator? c after = some op)
    (h : ∀ p, d.applyOperator o p after op = d.repetition o p c after (.ok (b, middle)))
    (hgreed : d.readGreed middle = (greedy, rest)) :
    d.finish o ⟨mark bare c ++ after, n, f, outer⟩ =
      d.finish o ⟨rest, n, f.repeatLast o.ignoreCase b.min b.max greedy, outer⟩ := by
  apply finish_mark op rfl hc hbare hescaped
  rw [h, repetition_ok hf, hgreed]

theorem closeInterval_brace (rest : List Char) : closeInterval perl5 ('\x7d' :: rest) = some rest := rfl

theorem finish_repeated {lo : Nat} {hi : Option Nat} (hb : InOrder lo hi) (hlo : lo ≤ greatestBound)
    (hhi : ∀ k ∈ hi, k ≤ greatestBound) (greedy : Bool) (hf : f.repeatable = true) {rest : List Char}
    (hrest : greedy = true → rest.head? ≠ some '?') :
    perl5.finish o ⟨renderBounds lo hi ++ (if greedy then [] else ['?']) ++ rest, n, f, outer⟩ =
      perl5.finish o ⟨rest, n, f.repeatLast o.ignoreCase lo hi greedy, outer⟩ := by
  rw [List.append_assoc]
  generalize hafter : (if greedy then [] else ['?']) ++ rest = after
  have hgreed : perl5.readGreed after = (greedy, rest) := by
    rw [← hafter]
    cases greedy with
    | false => rfl
    | true =>
      cases rest with
      | nil => rfl
      | cons c cs =>
        have hc : c ≠ '?' := fun h => hrest rfl (congrArg some h)
        simp [readGreed, hc]
  have hoperator {c : Char} {cs : List Char} (op : Operator) (hc : c ≠ '\\') (hop : perl5.bareOperator? c cs = some op)
      (happly : ∀ p, perl5.applyOperator o p cs op = perl5.repetition o p c cs (.ok (⟨lo, hi⟩, after))) :
      perl5.finish o ⟨c :: cs, n, f, outer⟩ =
        perl5.finish o ⟨rest, n, f.repeatLast o.ignoreCase lo hi greedy, outer⟩ :=
    finish_repetition hf true op hc (fun _ => hop) (fun h => by cases h) happly hgreed
  have hinterval {digits : List Char} (hread : readInterval perl5 (decimal lo ++ digits) = .ok (⟨lo, hi⟩, after)) :
      perl5.finish o ⟨'\x7b' :: (decimal lo ++ digits), n, f, outer⟩ =
        perl5.finish o ⟨rest, n, f.repeatLast o.ignoreCase lo hi greedy, outer⟩ :=
    hoperator .intervalOpen (by decide) (bareOperator?_toDigits lo digits) fun p => by rw [applyOperator, hread]
  rw [renderBounds.eq_def]
  split
  · exact hoperator .star (by decide) rfl fun _ => rfl
  · exact hoperator .plus (by decide) rfl fun _ => rfl
  · exact hoperator .question (by decide) rfl fun _ => rfl
  · simpa using hinterval (readInterval_atLeast (closeInterval_brace after) hlo)
  · next lo' hi' =>
    split
    · next heq =>
      subst heq
      simpa using hinterval (readInterval_exactly (closeInterval_brace after) hlo)
    · simpa [decimal] using hinterval (readInterval_between (closeInterval_brace after) (hb _ rfl) (hhi _ rfl))

end Reading

end DialectRegex
