import DialectRegex.Dialect.Named
import DialectRegex.Proofs.Grammar.Forms
import DialectRegex.Proofs.Matching.Iteration
import DialectRegex.Proofs.Matching.Likeness
import DialectRegex.Proofs.Text.Letters

namespace DialectRegex

section Respects

variable {o : Options} {t : Test}

theorem Test.Atom.respects {n : Nat} (h : t.Atom o n) (ho : o.ignoreCase = true) : t.Respects SameLetter := by
  cases h with
  | any newline nul =>
    intro a b h
    exact h.congr (dotAccepts_toLower newline nul)
  | @named k negated =>
    rw [ho]
    intro a b h
    exact h.congr (accepts_toLower k)
  | set hf =>
    intro a b h
    exact h.congr fun c hc => set_accepts_toLower c hc (hf.trans ho)
  | backref =>
    rw [ho]
    intro a b h a' b' h'
    rw [h.sameChar_eq, sameChar_comm, h'.sameChar_eq, sameChar_comm]

theorem Test.Assertion.respects (h : t.Assertion o) : t.Respects SameLetter := by
  cases h with
  | anchor =>
    intro a b h
    exact h.congr (f := (· == '\n')) isNewline_toLower
  | boundary =>
    intro a b h
    exact h.congr (accepts_toLower .word)

theorem compile_respects {d : Dialect} {pattern : List Char} {body : Pattern} {groups : Nat}
    (h : compile d o pattern = .ok (body, groups)) (ho : o.ignoreCase = true) :
    body.EveryTest (Test.Respects SameLetter) := by
  apply (compile_formed h).everyTest
  · exact fun n t ht => ht.respects ho
  · exact fun t ht => ht.respects
  · rw [ho]
    exact fun cs a b h => h.sameChar_eq

end Respects

theorem Setting.like_of_forall₂ {R : Char → Char → Prop} {text text' : List Char} (h : List.Forall₂ R text text')
    (flags : SearchFlags) (origin : Nat) : Setting.Like R 0 ⟨text, flags, origin⟩ ⟨text', flags, origin⟩ where
  char i := by
    rw [Nat.add_zero]
    induction h generalizing i with
    | nil => exact .none
    | cons hab _ ih =>
      cases i with
      | zero => exact .some hab
      | succ i => exact ih i
  notBol := rfl
  notEol := rfl
  begins _ := rfl
  outset h := absurd h (Nat.lt_irrefl 0)

theorem Match.shift_zero : shift 0 = id := by
  funext m
  simp [shift]

namespace Regex

variable {r : Regex} {source : String} {d : Dialect} {o : Options}

section Inputs

variable {input input' : Input Id} {text text' : List Char} (hi : input.Reads text) (hi' : input'.Reads text')
  (h : List.Forall₂ SameLetter text text')
include hi hi' h

theorem shifts_caseless {t : Test} (ht : t.Respects SameLetter) (flags : SearchFlags) (origin i : Nat) :
    t.Shifts 0 origin (r.search flags input) (r.search flags input') ⟨text, flags, origin⟩ i := by
  have hlike := Setting.like_of_forall₂ h flags origin
  apply Test.shifts_of_like (search_sees r flags hi origin) (search_sees r flags hi' origin) hlike ht
  exact fun _ _ hn => absurd hn (Nat.lt_irrefl 0)

variable (hr : r.body.EveryTest (Test.Respects SameLetter))
include hr

theorem findAt_caseless (flags : SearchFlags) (offset : Nat) :
    (r.findAt flags input' offset : Option Match) = r.findAt flags input offset := by
  have hfind := findAt_shift hi hi' h.length_eq.symm
    (hr.mono fun t ht i => shifts_caseless hi hi' h ht flags offset i)
  rwa [Match.shift_zero, Option.map_id] at hfind

theorem wholeToEnd_caseless :
    Option.isSome (r.run r.wholeToEnd {} input' 0 0 : Id (Option State)) =
      Option.isSome (r.run r.wholeToEnd {} input 0 0 : Id (Option State)) := by
  have hend : Test.Respects SameLetter (.anchor .stop false) :=
    Test.Assertion.respects (o := {}) (.anchor .stop fun hm => by cases hm)
  have hall : r.wholeToEnd.EveryTest (Test.Respects SameLetter) := ⟨hr, hend⟩
  have hrun := run_shift (r := r) hi hi' (Nat.le_of_eq h.length_eq)
    (hall.mono fun t ht => shifts_caseless hi hi' h ht {} 0 0)
  rw [Nat.add_zero] at hrun
  rw [hrun]
  exact Option.isSome_map

end Inputs

theorem same_letters_same_matches (hr : compile source d o = .ok r) (ho : o.ignoreCase = true) {s t : String}
    (h : List.Forall₂ SameLetter s.toList t.toList) :
    r.find (.ofString s) = r.find (.ofString t) ∧ r.findAll (.ofString s) = r.findAll (.ofString t) ∧
      r.isMatch (.ofString s) = r.isMatch (.ofString t) ∧ r.isFullMatch (.ofString s) = r.isFullMatch (.ofString t) := by
  have hs := Haystack.input_reads s
  have ht := Haystack.input_reads t
  have hletters := compile_respects (compile_eq_ok hr) ho
  have hfind := findAt_caseless hs ht h hletters {}
  refine ⟨(hfind 0).symm, ?_, ?_, ?_⟩
  · have hl : (Haystack.ofString t).length = (Haystack.ofString s).length := by
      rw [Haystack.length_ofString, Haystack.length_ofString, h.length_eq]
    exact (findAll_congr hl hfind).symm
  · exact congrArg Option.isSome (hfind 0).symm
  · exact (wholeToEnd_caseless hs ht h hletters).symm

theorem same_letters_same_matches_backref :
    ∃ r : Regex, compile "([H-n].)[^[:upper:]]\\1" .posixExtended { ignoreCase := true } = .ok r ∧
      List.Forall₂ SameLetter "KpKq1kQ".toList "kPkQ1KQ".toList ∧
      r.find (.ofString "kPkQ1KQ") = some ⟨2, 7, [some (2, 7), some (2, 4)]⟩ := by
  let range (lo hi : Char) : Test := .set ⟨[.range lo hi], false, true, false⟩
  let other : Test := .set ⟨[.named .upper false], true, true, false⟩
  let r : Regex := ⟨"([H-n].)[^[:upper:]]\\1", .posixExtended, { ignoreCase := true },
    .seq (.group (some 1) (.seq (.test (range 'H' 'n')) (.test (.any true false))))
      (.seq (.test other) (.test (.backref 1 true))), 2, false, rfl⟩
  have hbody : DialectRegex.compile .posixExtended { ignoreCase := true } r.source.toList = .ok (r.body, 2) := by
    decide +kernel
  have hr : compile r.source .posixExtended { ignoreCase := true } = .ok r := by rw [compile, hbody]; rfl
  have h : List.Forall₂ SameLetter "KpKq1kQ".toList "kPkQ1KQ".toList := by
    simp [SameLetter]
  have hfind : r.find (.ofString "KpKq1kQ") = some ⟨2, 7, [some (2, 7), some (2, 4)]⟩ := by decide +kernel
  obtain ⟨hsame, _⟩ := same_letters_same_matches hr rfl h
  exact ⟨r, hr, h, hsame.symm.trans hfind⟩

end Regex

end DialectRegex
