import DialectRegex.Proofs.Grammar.Phrases
import DialectRegex.Program.Layout

namespace DialectRegex

open Dialect

namespace Dialect

structure Conventional (d : Dialect) : Prop where
  intervals : d.has .intervals = true
  limitedOperators : d.has .limitedOperators = false
  newlineAlternates : d.has .newlineAlternates = false
  stingyOperators : d.has .stingyOperators = false
  classEscapes : d.has .classEscapes = false
  stringAnchors : d.has .stringAnchors = false
  pureGrouping : d.has .pureGrouping = false
  lookahead : d.has .lookahead = false
  comments : d.has .comments = false

def spellingFlags : List Flag := [.backslashPlusQuestion, .bareBraces, .bareParens, .bareBar]

def Respelled (d d' : Dialect) : Prop := ∀ f, f ∉ spellingFlags → d'.has f = d.has f

def anyTest (d : Dialect) (o : Options) : Test := .any (d.has .dotNewline || o.dotNewline) (!d.has .dotNotNull)

variable {d d' : Dialect} {o : Options} {n : Nat} {f : Frame} {outer : List Frame} {c : Char} {rest : List Char}

theorem Respelled.anyTest_eq (h : d.Respelled d') (o : Options) : d'.anyTest o = d.anyTest o := by
  rw [anyTest, anyTest, h .dotNewline (by decide), h .dotNotNull (by decide)]

theorem Respelled.conventional (h : d.Respelled d') (hd : d.Conventional) : d'.Conventional where
  intervals := (h _ (by decide)).trans hd.intervals
  limitedOperators := (h _ (by decide)).trans hd.limitedOperators
  newlineAlternates := (h _ (by decide)).trans hd.newlineAlternates
  stingyOperators := (h _ (by decide)).trans hd.stingyOperators
  classEscapes := (h _ (by decide)).trans hd.classEscapes
  stringAnchors := (h _ (by decide)).trans hd.stringAnchors
  pureGrouping := (h _ (by decide)).trans hd.pureGrouping
  lookahead := (h _ (by decide)).trans hd.lookahead
  comments := (h _ (by decide)).trans hd.comments

theorem finish_bare (hc : c ∉ Phrase.quotedChars) (hop : d.operator? (c :: rest) = none) :
    d.finish o ⟨c :: rest, n, f, outer⟩ = d.finish o ⟨rest, n, f.push (.char c), outer⟩ := by
  have hsub : ['.', '^', '$', '[', '\\'] ⊆ Phrase.quotedChars := by decide
  exact finish_cons rfl (step_bare (fun h => hc (hsub h)) hop _)

theorem closeInterval_mark (d : Dialect) (rest : List Char) :
    closeInterval d (mark (d.has .bareBraces) '\x7d' ++ rest) = some rest := by
  cases h : d.has .bareBraces with
  | true => exact if_pos h
  | false => exact if_neg (by simp [h])

theorem finish_groupClose {inner : Frame} :
    d.finish o ⟨mark (d.has .bareParens) ')' ++ rest, n, inner, f :: outer⟩ =
      d.finish o ⟨rest, n, f.addGroup inner o.ignoreCase, outer⟩ :=
  finish_mark .groupClose rfl (by decide) (fun h => if_pos h) (fun h => if_neg (by simp [h])) rfl

namespace Conventional

variable (hd : d.Conventional)
include hd

theorem finish_plain (hc : c ∉ Phrase.quotedChars ++ Phrase.markChars) :
    d.finish o ⟨c :: rest, n, f, outer⟩ = d.finish o ⟨rest, n, f.push (.char c), outer⟩ := by
  have hsub : specialChars ⊆ Phrase.quotedChars ++ Phrase.markChars := by decide
  exact finish_cons rfl (step_ordinary hd.newlineAlternates (fun h => hc (hsub h)) _ rest)

theorem finish_escaped (hc : c ∈ Phrase.quotedChars ++ Phrase.markChars) (hop : d.operator? ('\\' :: c :: rest) = none) :
    d.finish o ⟨'\\' :: c :: rest, n, f, outer⟩ = d.finish o ⟨rest, n, f.push (.char c), outer⟩ := by
  have hplain : ∀ c ∈ Phrase.quotedChars ++ Phrase.markChars, Text.digit? c = none ∧ c ≠ '<' ∧ c ≠ '>' := by
    simp [Phrase.quotedChars, Phrase.markChars, Text.digit?, Char.isDigit]
  obtain ⟨hdigit, hless, hgreater⟩ := hplain c hc
  have hassertion : d.escapedAssertion? c = none := by
    simp [escapedAssertion?, hd.stringAnchors, hd.classEscapes]
  have hnode : d.escapedNode o c = .char c := by
    rw [escapedNode, hd.classEscapes]
    rfl
  apply finish_cons rfl
  refine (step_atom hop).trans ?_
  change d.escape o _ (c :: rest) = _
  rw [escape, backref, hdigit]
  dsimp only
  rw [hassertion, hnode]
  rfl

theorem finish_quoted (hc : c ∈ Phrase.quotedChars) :
    d.finish o ⟨'\\' :: c :: rest, n, f, outer⟩ = d.finish o ⟨rest, n, f.push (.char c), outer⟩ := by
  have hnone : ∀ c ∈ Phrase.quotedChars, d.escapedOperator? c rest = none := by
    simp [Phrase.quotedChars, escapedOperator?]
  apply hd.finish_escaped (List.mem_append_left _ hc)
  rw [operator?, hnone c hc, Option.map_none]

theorem openGroup_eq (p : Progress) (after : List Char) : d.openGroup p after = .ok (p.beginCapture after) := by
  have hflags : ¬ d.hasGroupFlags = true := by
    simp [hasGroupFlags, hd.pureGrouping, hd.lookahead, hd.comments]
  rw [openGroup.eq_def]
  split
  · exact if_neg hflags
  · rfl

theorem finish_groupOpen :
    d.finish o ⟨mark (d.has .bareParens) '(' ++ rest, n, f, outer⟩ =
      d.finish o ⟨rest, n + 1, .begin (.capturing n) (mark (d.has .bareParens) '(' ++ rest), f :: outer⟩ :=
  finish_mark .groupOpen rfl (by decide) (fun h => if_pos h) (fun h => if_neg (by simp [h])) (hd.openGroup_eq _ rest)

theorem finish_bar :
    d.finish o ⟨mark (d.has .bareBar) '|' ++ rest, n, f, outer⟩ =
      d.finish o ⟨rest, n, f.nextAlternative o.ignoreCase, outer⟩ :=
  finish_mark .bar rfl (by decide) (fun h => by simp [bareOperator?, h, hd.limitedOperators])
    (fun h => by simp [escapedOperator?, h, hd.limitedOperators]) rfl

theorem readGreed_eq (cs : List Char) : d.readGreed cs = (true, cs) := by
  rw [readGreed.eq_def]
  split
  · rw [hd.stingyOperators]
    rfl
  · rfl

section Repetition

variable (hf : f.repeatable = true)
include hf

theorem finish_braced {m : Nat} {cs : List Char} {b : Bounds}
    (h : readInterval d (decimal m ++ cs ++ (mark (d.has .bareBraces) '\x7d' ++ rest)) = .ok (b, rest)) :
    d.finish o ⟨d.braced (decimal m ++ cs) ++ rest, n, f, outer⟩ =
      d.finish o ⟨rest, n, f.repeatLast o.ignoreCase b.min b.max true, outer⟩ := by
  generalize hafter : decimal m ++ cs ++ (mark (d.has .bareBraces) '\x7d' ++ rest) = after at h
  have hstarts : d.startsInterval after = true := by
    rw [← hafter, List.append_assoc]
    exact startsInterval_toDigits hd.intervals m _
  have htext : d.braced (decimal m ++ cs) ++ rest = mark (d.has .bareBraces) '\x7b' ++ after := by
    simp [braced, ← hafter]
  rw [htext]
  exact finish_repetition hf _ .intervalOpen (by decide) (fun hbare => by simp [bareOperator?, hbare, hstarts])
    (fun hbare => by simp [escapedOperator?, hbare, hstarts]) (fun p => by rw [applyOperator, h]) (hd.readGreed_eq rest)

theorem finish_times (t : Times) :
    d.finish o ⟨d.times t ++ rest, n, f, outer⟩ =
      d.finish o ⟨rest, n, f.repeatLast o.ignoreCase t.bounds.min t.bounds.max true, outer⟩ := by
  have hclose := closeInterval_mark d rest
  have hgreed := hd.readGreed_eq rest
  have hlimited := hd.limitedOperators
  cases t with
  | star =>
    exact finish_repetition hf true .star (by decide) (fun _ => rfl) (fun h => by cases h) (fun _ => rfl) hgreed
  | plus =>
    exact finish_repetition hf _ .plus (by decide) (fun h => by simp_all [bareOperator?])
      (fun h => by simp_all [escapedOperator?]) (fun _ => rfl) hgreed
  | question =>
    exact finish_repetition hf _ .question (by decide) (fun h => by simp_all [bareOperator?])
      (fun h => by simp_all [escapedOperator?]) (fun _ => rfl) hgreed
  | exactly m hm =>
    rw [times, ← List.append_nil (decimal m)]
    apply hd.finish_braced hf
    rw [List.append_nil]
    exact readInterval_exactly hclose hm
  | atLeast m hm =>
    apply hd.finish_braced hf
    rw [List.append_assoc]
    exact readInterval_atLeast hclose hm
  | between m n hmn hn =>
    apply hd.finish_braced hf
    rw [List.append_assoc, List.cons_append]
    exact readInterval_between hclose hmn hn

end Repetition

end Conventional

end Dialect

namespace Phrase

variable {d : Dialect} {o : Options}

def Reads (d : Dialect) (o : Options) : {l : Level} → Phrase l → List Char → List Char → Prop
  | .item, p, rest, text => ∀ n f outer,
      d.finish o ⟨text, n, f, outer⟩ =
        d.finish o ⟨rest, n + p.groups, f.push (p.denote (d.anyTest o) o.ignoreCase n), outer⟩
  | .sequence, p, rest, text => ∀ n f outer, ∃ b,
      d.finish o ⟨text, n, f, outer⟩ =
        d.finish o ⟨rest, n + p.groups,
          { f with nodes := (p.denote (d.anyTest o) o.ignoreCase n).reverse ++ f.nodes, repeatable := b }, outer⟩
  | .alternatives, p, rest, text => ∀ n f outer, f.nodes = [] → ∃ f' : Frame, f'.kind = f.kind ∧
      f'.body o.ignoreCase =
        f.finished.foldl (fun rest p => .alt p rest) (p.denote (d.anyTest o) o.ignoreCase n) ∧
      d.finish o ⟨text, n, f, outer⟩ = d.finish o ⟨rest, n + p.groups, f', outer⟩

theorem Spells.reads (hd : d.Conventional) {l : Level} {p : Phrase l} {rest text : List Char}
    (h : p.Spells d rest text) : p.Reads d o rest text := by
  induction h with
  | plain hc => exact fun n f outer => hd.finish_plain hc
  | quoted hc => exact fun n f outer => hd.finish_quoted hc
  | bare hc hop =>
    have hquoted : ∀ c ∈ markChars, c ∉ quotedChars := by simp [markChars, quotedChars]
    exact fun n f outer => finish_bare (hquoted _ hc) hop
  | escaped hc hop => exact fun n f outer => hd.finish_escaped (List.mem_append_right _ hc) hop
  | dot => exact fun n f outer => finish_cons rfl rfl
  | @group p rest text h ih =>
    intro n f outer
    obtain ⟨inner, hkind, hbody, hread⟩ :=
      ih (n + 1) (.begin (.capturing n) (mark (d.has .bareParens) '(' ++ text)) (f :: outer) rfl
    have hadd : f.addGroup inner o.ignoreCase = f.push (p.group.denote (d.anyTest o) o.ignoreCase n) := by
      rw [Frame.addGroup, hkind, hbody]
      rfl
    rw [hd.finish_groupOpen, hread, finish_groupClose, hadd, Nat.add_right_comm]
    rfl
  | @repeated p t rest text h ih =>
    intro n f outer
    rw [ih, hd.finish_times rfl]
    rfl
  | empty => exact fun n f outer => ⟨f.repeatable, rfl⟩
  | @cons p q rest middle text hp hq ihp ihq =>
    intro n f outer
    obtain ⟨b, hread⟩ := ihq (n + p.groups) (f.push (p.denote (d.anyTest o) o.ignoreCase n)) outer
    refine ⟨b, ?_⟩
    rw [ihp, hread, denote, List.reverse_cons, List.append_assoc, Nat.add_assoc]
    rfl
  | @last p rest text h ih =>
    intro n f outer hf
    obtain ⟨b, hread⟩ := ih n f outer
    refine ⟨_, ?_, ?_, hread⟩
    · rfl
    · rw [Frame.body, Frame.sequence, hf, List.append_nil]
      rfl
  | @alt p q rest middle text hp hq ihp ihq =>
    intro n f outer hf
    obtain ⟨b, hread⟩ := ihp n f outer
    rw [hf, List.append_nil] at hread
    obtain ⟨f', hkind, hbody, hread'⟩ := ihq (n + p.groups)
      ⟨f.kind, f.opened, sequenceOf o.ignoreCase (p.denote (d.anyTest o) o.ignoreCase n) :: f.finished, [], false⟩
      outer rfl
    refine ⟨f', hkind, hbody, ?_⟩
    rw [hread, hd.finish_bar, groups, ← Nat.add_assoc, ← hread']
    rfl

theorem Spells.compile (hd : d.Conventional) {p : Phrase .alternatives} {text : List Char} (h : p.Spells d [] text) :
    DialectRegex.compile d o text = .ok (p.denote (d.anyTest o) o.ignoreCase 1, p.groups + 1) := by
  obtain ⟨f, _, hbody, hread⟩ := h.reads hd 1 (.begin (.capturing 0) text) [] rfl
  have hend : d.finish o ⟨[], 1 + p.groups, f, []⟩ = .ok (f.body o.ignoreCase, 1 + p.groups) := finish_nil rfl
  apply compile_of_finish
  rw [Progress.start, hread, hend, hbody, Nat.add_comm]
  rfl

end Phrase

namespace Regex

variable {d d' : Dialect}

theorem program_congr {r r' : Regex} (hbody : r'.body = r.body) (hgroups : r'.groupCount = r.groupCount) :
    r'.program = r.program := by
  rw [program, program, hbody, hgroups]

/-- Dialects that differ only in which operators are bare give every phrase a text, and compile all its texts to the same
program. -/
theorem respelled_program (hd : d.Conventional) (h : d.Respelled d') (o : Options) (p : Phrase .alternatives) :
    (∃ s : String, p.Spells d [] s.toList) ∧ (∃ s : String, p.Spells d' [] s.toList) ∧
      ∀ s s' : String, p.Spells d [] s.toList → p.Spells d' [] s'.toList →
        ∃ r r' : Regex, compile s d o = .ok r ∧ compile s' d' o = .ok r' ∧ r'.program = r.program ∧
          (r.body = p.denote (d.anyTest o) o.ignoreCase 1 ∧ r'.body = p.denote (d.anyTest o) o.ignoreCase 1) ∧
          r.groupCount = p.groups + 1 ∧ r'.groupCount = p.groups + 1 := by
  have hd' := h.conventional hd
  have hspelling (d : Dialect) : ∃ s : String, p.Spells d [] s.toList := by
    obtain ⟨text, ht⟩ := p.exists_spelling d []
    exact ⟨.ofList text, by rwa [String.toList_ofList]⟩
  refine ⟨hspelling d, hspelling d', ?_⟩
  intro s s' hs hs'
  let body : Pattern := p.denote (d.anyTest o) o.ignoreCase 1
  have hr : compile s d o = .ok ⟨s, d, o, body, p.groups + 1, !body.hasBackref, rfl⟩ := by
    rw [compile, hs.compile hd]
  have hr' : compile s' d' o = .ok ⟨s', d', o, body, p.groups + 1, !body.hasBackref, rfl⟩ := by
    rw [compile, hs'.compile hd', h.anyTest_eq]
  exact ⟨_, _, hr, hr', program_congr rfl rfl, ⟨rfl, rfl⟩, rfl, rfl⟩

theorem respelled_program_posix :
    ∃ r r' : Regex, compile "\\(a\\+\\|\\)\\\x7b2,3\\\x7d*\x7b1+." .posixBasic {} = .ok r ∧
      compile "(a+|)\x7b2,3\x7d*\\\x7b1\\+." (posixCommon.insert [.bareBraces, .bareParens, .bareBar]) {} = .ok r' ∧
      r'.program = r.program ∧ r.groupCount = 2 := by
  have hd : posixBasic.Conventional := by constructor <;> decide
  have h : posixBasic.Respelled (posixCommon.insert [.bareBraces, .bareParens, .bareBar]) := by
    intro f hf
    cases f <;> first | decide | exact absurd (by decide) hf
  let group : Phrase .item := .group (.alt (.cons (.repeated (.char 'a') .plus) .empty) (.last .empty))
  let p : Phrase .alternatives :=
    .last (.cons (.repeated (.repeated group (.between 2 3 (by decide) (by decide))) .star)
      (.cons (.char '\x7b') (.cons (.char '1') (.cons (.char '+') (.cons .dot .empty)))))
  have hs : p.Spells .posixBasic [] "\\(a\\+\\|\\)\\\x7b2,3\\\x7d*\x7b1+.".toList :=
    .last (.cons (.repeated (.repeated (.group (.alt (.cons (.repeated (.plain (by decide))) .empty) (.last .empty)))))
      (.cons (.bare (by decide) (by decide)) (.cons (.plain (by decide)) (.cons (.bare (by decide) (by decide))
        (.cons .dot .empty)))))
  have hs' : p.Spells (posixCommon.insert [.bareBraces, .bareParens, .bareBar]) []
      "(a+|)\x7b2,3\x7d*\\\x7b1\\+.".toList :=
    .last (.cons (.repeated (.repeated (.group (.alt (.cons (.repeated (.plain (by decide))) .empty) (.last .empty)))))
      (.cons (.escaped (by decide) (by decide)) (.cons (.plain (by decide)) (.cons (.escaped (by decide) (by decide))
        (.cons .dot .empty)))))
  obtain ⟨_, _, hcompile⟩ := respelled_program hd h {} p
  obtain ⟨r, r', hr, hr', hprogram, _, hgroups, _⟩ := hcompile _ _ hs hs'
  exact ⟨r, r', hr, hr', hprogram, hgroups⟩

end Regex

end DialectRegex
