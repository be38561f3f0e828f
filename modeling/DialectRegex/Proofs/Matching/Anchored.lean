import DialectRegex.Proofs.Grammar.Counting
import DialectRegex.Proofs.Matching.Captures
import DialectRegex.Proofs.Pattern.Reread

namespace DialectRegex

def anchoredText (x : String) : String := "\\A" ++ groupText x ++ "\\Z"

def Pattern.anchored (p : Pattern) : Pattern :=
  .seq (.test (.anchor .start false)) (.seq (.group none p) (.test (.anchor .stop false)))

section Compile

variable {o : Options} {x : String} {body : Pattern} {groups : Nat}

theorem toList_anchoredText (x : String) :
    (anchoredText x).toList = '\\' :: 'A' :: '(' :: '?' :: ':' :: (x.toList ++ ')' :: ['\\', 'Z']) := by
  have hstart : "\\A".toList = ['\\', 'A'] := rfl
  have hstop : "\\Z".toList = ['\\', 'Z'] := rfl
  rw [anchoredText, String.toList_append, String.toList_append, hstart, hstop, List.append_assoc, toList_groupText]
  rfl

theorem compile_anchored (h : compile .perl5 o x.toList = .ok (body, groups)) :
    compile .perl5 o (anchoredText x).toList = .ok (body.anchored, groups) := by
  have hstart (rest : List Char) (f : Frame) :
      Dialect.perl5.step o ⟨'\\' :: 'A' :: rest, 1, f, []⟩ '\\' ('A' :: rest) =
        .ok ⟨rest, 1, f.assert (.test (.anchor .start false)), []⟩ := rfl
  have hstop (f : Frame) :
      Dialect.perl5.step o ⟨['\\', 'Z'], groups, f, []⟩ '\\' ['Z'] =
        .ok ⟨[], groups, f.assert (.test (.anchor .stop false)), []⟩ := rfl
  apply compile_of_finish
  rw [Progress.start, toList_anchoredText, Dialect.finish_cons rfl (hstart _ _), Dialect.finish_group h,
    Dialect.finish_cons rfl (hstop _), Dialect.finish_nil rfl]
  rfl

end Compile

namespace Pattern

variable {e : Search Id} {c : Setting}

theorem ends_anchor (he : e.Sees c) (edge : Edge) (multiline : Bool) {s : State} (hs : s.origin = c.origin) {b : Bool}
    (hb : c.EdgeAt multiline edge s.offset ↔ b = true) :
    (test (.anchor edge multiline)).ends e s = if b then [s] else [] := by
  have hedge : (atEdge (m := Id) e.input.charAt e.flags multiline s edge : Bool) = b := by
    rw [Bool.eq_iff_iff, he.flags, atEdge_iff he.charAt multiline s hs edge, hb]
  have hmoves : (Test.anchor edge multiline).moves? e s = if b then some s.offset else none := by
    rw [← hedge]
    rfl
  rw [ends_test, hmoves]
  cases b <;> rfl

theorem ends_textStart (he : e.Sees c) (hf : c.flags = {}) {s : State} (hs : s.origin = c.origin) :
    (test (.anchor .start false)).ends e s = if s.offset = 0 ∧ c.origin = 0 then [s] else [] := by
  have hedge : c.EdgeAt false .start s.offset ↔ decide (s.offset = 0 ∧ c.origin = 0) = true := by
    simp [Setting.EdgeAt, hf]
  rw [ends_anchor he .start false hs hedge]
  simp only [decide_eq_true_eq]

theorem ends_textStop (he : e.Sees c) (hf : c.flags = {}) {s : State} (hs : s.origin = c.origin) :
    (test (.anchor .stop false)).ends e s = if c.text.length ≤ s.offset then [s] else [] := by
  have hedge : c.EdgeAt false .stop s.offset ↔ decide (c.text.length ≤ s.offset) = true := by
    simp [Setting.EdgeAt, hf]
  rw [ends_anchor he .stop false hs hedge]
  simp only [decide_eq_true_eq]

theorem ends_anchored (he : e.Sees c) (hf : c.flags = {}) (hc : c.origin = 0) (p : Pattern) (g : Option Nat) {s : State}
    (hs : s.origin = c.origin) :
    (group g p.anchored).ends e s =
      if s.offset = 0 then (seq (group g p) (test (.anchor .stop false))).ends e s else [] := by
  have hs' : (s.enter g).origin = c.origin := by rwa [enter_origin]
  rw [ends_group, anchored, ends_seq, ends_textStart he hf hs', enter_offset, hc]
  by_cases hz : s.offset = 0
  · rw [if_pos ⟨hz, rfl⟩, if_pos hz, List.flatMap_singleton, ends_seq, ends_group_none, ends_seq, ends_group,
      List.map_flatMap, List.flatMap_map]
    apply List.flatMap_congr
    intro t ht
    have ht' : t.origin = c.origin := (ends_origin p _ t ht).trans hs'
    have hleave : (t.leave g).origin = c.origin := by cases g <;> exact ht'
    rw [ends_textStop he hf ht', ends_textStop he hf hleave, leave_offset]
    split <;> rfl
  · rw [if_neg fun h => hz h.1, if_neg hz]
    rfl

end Pattern

namespace Regex

variable {r w : Regex} {o : Options} {x : String} {input : Input Id} {text : List Char}

theorem run_anchored (hbody : w.body = r.body.anchored) (hgroups : w.groupCount = r.groupCount)
    (h : input.Reads text) (i : Nat) :
    (w.run w.whole {} input 0 i : Option State) = if i = 0 then r.run r.wholeToEnd {} input 0 0 else none := by
  have hmerge : w.merge = r.merge := by
    rw [w.merge_eq, r.merge_eq, hbody]
    exact congrArg (!·) (Bool.or_false r.body.hasBackref)
  have hends := Pattern.ends_anchored (search_sees r {} h 0) rfl rfl r.body (some 0)
    (s := .initial r.groupCount 0 i) rfl
  rw [run_eq, whole, search, hbody, hmerge, hgroups]
  refine (congrArg List.head? hends).trans ?_
  by_cases hz : i = 0
  · subst hz
    have hoffset : (State.initial r.groupCount 0 0).offset = 0 := rfl
    rw [if_pos hoffset, if_pos rfl, run_eq]
    rfl
  · have hoffset : (State.initial r.groupCount 0 i).offset ≠ 0 := hz
    rw [if_neg hoffset, if_neg hz]
    rfl

theorem find_anchored (hbody : w.body = r.body.anchored) (hgroups : w.groupCount = r.groupCount) (s : String) :
    w.find (.ofString s) =
      (r.run r.wholeToEnd {} (Haystack.ofString s).input 0 0 : Option State).map Match.ofState := by
  have hread := Haystack.input_reads s
  have hrun := run_anchored hbody hgroups hread
  have hrest : ((List.range' (0 + 1) s.toList.length).findSome? fun i =>
      (w.run w.whole {} (Haystack.ofString s).input 0 i : Option State)) = none := by
    rw [List.findSome?_eq_none_iff]
    intro i hi
    have hpos := (List.mem_range'_1.mp hi).1
    rw [hrun, if_neg (by omega)]
  rw [find, findAt_eq hread, Nat.sub_zero, List.range'_succ, List.findSome?_cons, hrun, if_pos rfl]
  cases (r.run r.wholeToEnd {} (Haystack.ofString s).input 0 0 : Option State) with
  | some t => rfl
  | none => exact congrArg (Option.map Match.ofState) hrest

theorem run_wholeToEnd_offset (h : input.Reads text) {t : State}
    (ht : (r.run r.wholeToEnd {} input 0 0 : Option State) = some t) : t.offset = text.length := by
  have he : (r.search {} input).Sees ⟨text, {}, 0⟩ := search_sees r {} h 0
  rw [run_eq] at ht
  have hmem := List.mem_of_mem_head? ht
  have hadv := Pattern.ends_advances he r.wholeToEnd _ t hmem
  rw [wholeToEnd, Pattern.ends_seq] at hmem
  obtain ⟨u, hu, htu⟩ := List.mem_flatMap.mp hmem
  rw [Pattern.ends_textStop he rfl (Pattern.ends_origin r.whole _ u hu)] at htu
  split at htu
  · next hle =>
    obtain rfl := List.mem_singleton.mp htu
    simp only [Advances, State.initial] at hadv
    dsimp only at hle hadv
    omega
  · cases htu

theorem full_match_anchored (hr : compile x .perl5 o = .ok r) :
    ∃ w : Regex, compile (anchoredText x) .perl5 o = .ok w ∧ w.groupCount = r.groupCount ∧ ∀ s : String,
      w.isMatch (.ofString s) = r.isFullMatch (.ofString s) ∧
        w.find (.ofString s) =
          (r.run r.wholeToEnd {} (Haystack.ofString s).input 0 0 : Option State).map Match.ofState ∧
        ∀ m, w.find (.ofString s) = some m → m.start = 0 ∧ m.stop = s.toList.length := by
  have hbackref : r.body.anchored.hasBackref = r.body.hasBackref := Bool.or_false r.body.hasBackref
  let w : Regex := ⟨anchoredText x, .perl5, o, r.body.anchored, r.groupCount, r.merge, by rw [hbackref, r.merge_eq]⟩
  have hw : compile (anchoredText x) .perl5 o = .ok w := by
    rw [compile, compile_anchored (compile_eq_ok hr)]
    simp only [hbackref, ← r.merge_eq, w]
  refine ⟨w, hw, rfl, ?_⟩
  intro s
  have hread := Haystack.input_reads s
  have hfind := find_anchored (w := w) (r := r) rfl rfl s
  refine ⟨?_, hfind, ?_⟩
  · rw [isMatch, hfind, Option.isSome_map, isFullMatch_eq]
  · intro m hm
    rw [hfind] at hm
    obtain ⟨t, ht, rfl⟩ := Option.map_eq_some_iff.mp hm
    have htw : (w.run w.whole {} (Haystack.ofString s).input 0 0 : Option State) = some t :=
      (run_anchored (w := w) rfl rfl hread 0).trans ht
    rw [run_eq] at htw
    obtain ⟨hstart, hstop⟩ := ofState_range hw (search_sees w {} hread 0) (List.mem_of_mem_head? htw)
    exact ⟨hstart, hstop.trans (run_wholeToEnd_offset hread ht)⟩

theorem full_match_anchored_backref :
    ∃ r w : Regex, compile "(ab|a)(?#c)(?!c)(b*)\\1" .perl5 {} = .ok r ∧
      compile (anchoredText "(ab|a)(?#c)(?!c)(b*)\\1") .perl5 {} = .ok w ∧ r.isFullMatch (.ofString "abba") = true ∧
      w.isMatch (.ofString "abba") = true ∧ w.isMatch (.ofString "abbac") = false ∧
      w.find (.ofString "abba") = some ⟨0, 4, [some (0, 4), some (0, 1), some (1, 3)]⟩ := by
  let word (cs : List Char) : Pattern := .test (.literal cs false)
  let body : Pattern := .seq (.group (some 1) (.alt (word ['a', 'b']) (word ['a']))) (.seq (.look true (word ['c']))
    (.seq (.group (some 2) (.repeated (word ['b']) 0 none true)) (.test (.backref 1 false))))
  let r : Regex := ⟨"(ab|a)(?#c)(?!c)(b*)\\1", .perl5, {}, body, 3, false, rfl⟩
  have hr : compile "(ab|a)(?#c)(?!c)(b*)\\1" .perl5 {} = .ok r := by cbv
  have hfull : r.isFullMatch (.ofString "abba") = true := by decide +kernel
  have hnot : r.isFullMatch (.ofString "abbac") = false := by decide +kernel
  have hrun : @Eq (Option Match) ((r.run r.wholeToEnd {} (Haystack.ofString "abba").input 0 0 : Option State).map
      Match.ofState) (some ⟨0, 4, [some (0, 4), some (0, 1), some (1, 3)]⟩) := by decide +kernel
  obtain ⟨w, hw, _, h⟩ := full_match_anchored hr
  exact ⟨r, w, hr, hw, hfull, (h _).1.trans hfull, (h _).1.trans hnot, (h _).2.1.trans hrun⟩

end Regex

end DialectRegex
