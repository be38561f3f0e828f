import DialectRegex.Proofs.Grammar.Embedding
import DialectRegex.Regex

namespace DialectRegex

def Pattern.copies (p : Pattern) : Nat → Pattern
  | 0 => .empty
  | n + 1 => p.before (p.copies n)

def groupText (x : String) : String := "(?:" ++ x ++ ")"

def countedText (x : String) (n : Nat) : String := groupText x ++ "\x7b" ++ toString n ++ "\x7d"

def repeatedText (x : String) (n : Nat) : String := String.join (List.replicate n (groupText x))

section Digits

theorem le_ofDigitChars (cs : List Char) (n : Nat) : n ≤ Nat.ofDigitChars 10 cs n := by
  induction cs generalizing n with
  | nil => exact Nat.le_of_eq Nat.ofDigitChars_nil.symm
  | cons c cs ih =>
    rw [Nat.ofDigitChars_cons]
    have := ih (10 * n + (c.toNat - '0'.toNat))
    omega

theorem readDigits_eq {cs rest : List Char} {n : Nat} (hcs : ∀ c ∈ cs, c.isDigit = true)
    (hrest : ∀ c ∈ rest.head?, c.isDigit = false) (hle : Nat.ofDigitChars 10 cs n ≤ greatestBound) :
    readDigits n (cs ++ rest) = some (Nat.ofDigitChars 10 cs n, rest) := by
  induction cs generalizing n with
  | nil =>
    rw [Nat.ofDigitChars_nil, List.nil_append]
    cases rest with
    | nil => rfl
    | cons c rest =>
      have hc : Text.digit? c = none := by
        rw [Text.digit?, hrest c rfl]
        rfl
      rw [readDigits, hc]
  | cons c cs ih =>
    have hc : Text.digit? c = some (c.toNat - '0'.toNat) := by
      rw [Text.digit?, hcs c List.mem_cons_self]
      rfl
    rw [Nat.ofDigitChars_cons] at hle ⊢
    have hstep := (le_ofDigitChars cs (10 * n + (c.toNat - '0'.toNat))).trans hle
    rw [List.cons_append, readDigits, hc]
    dsimp only
    rw [if_neg (Nat.not_lt.mpr hstep)]
    exact ih (fun a ha => hcs a (List.mem_cons_of_mem c ha)) hle

def numeral? (ds : List Char) : Option Nat := if ds = [] then none else some (Nat.ofDigitChars 10 ds 0)

theorem getD_numeral? (ds : List Char) : (numeral? ds).getD 0 = Nat.ofDigitChars 10 ds 0 := by
  rw [numeral?]
  split
  · next h => rw [h, Nat.ofDigitChars_nil, Option.getD_none]
  · rfl

theorem readBound_digits {ds rest : List Char} (hds : ∀ c ∈ ds, c.isDigit = true)
    (hrest : ∀ c ∈ rest.head?, c.isDigit = false) (hle : Nat.ofDigitChars 10 ds 0 ≤ greatestBound) :
    readBound (ds ++ rest) = some (numeral? ds, rest) := by
  have hread := readDigits_eq hds hrest hle
  cases ds with
  | nil =>
    cases rest with
    | nil => rfl
    | cons c rest => exact if_neg (by simp [hrest c rfl])
  | cons c ds =>
    change (if c.isDigit then (readDigits 0 (c :: ds ++ rest)).map _ else _) = _
    rw [if_pos (hds c List.mem_cons_self), hread]
    rfl

theorem isDigit_toDigits (n : Nat) : ∀ c ∈ Nat.toDigits 10 n, c.isDigit = true :=
  fun _ hc => Nat.isDigit_of_mem_toDigits (by decide) (by decide) hc

end Digits

section Interval

variable {d : Dialect}

theorem startsInterval_toDigits (hd : d.has .intervals = true) (n : Nat) (q : List Char) :
    d.startsInterval (Nat.toDigits 10 n ++ q) = true := by
  cases hcs : Nat.toDigits 10 n with
  | nil => exact absurd hcs Nat.toDigits_ne_nil
  | cons c cs =>
    rw [List.cons_append, Dialect.startsInterval, hd, isDigit_toDigits n c (hcs ▸ List.mem_cons_self)]
    rfl

variable {close rest : List Char} (hclose : closeInterval d close = some rest)
include hclose

theorem closeInterval_head : ∀ c ∈ close.head?, c.isDigit = false ∧ c ≠ ',' := by
  rw [closeInterval.eq_def] at hclose
  split at hclose
  · simp
  · simp
  · cases hclose

theorem readBound_close : readBound close = some (none, close) := by
  cases close with
  | nil => rfl
  | cons c cs =>
    have hc : ¬ c.isDigit = true := by simp [(closeInterval_head hclose c rfl).1]
    exact if_neg hc

section Digits

variable {lo hi : List Char} (hlo : ∀ c ∈ lo, c.isDigit = true) (hle : Nat.ofDigitChars 10 lo 0 ≤ greatestBound)
include hlo hle

theorem readInterval_exactly_digits : readInterval d (lo ++ close) =
    .ok (⟨Nat.ofDigitChars 10 lo 0, some (Nat.ofDigitChars 10 lo 0)⟩, rest) := by
  have hread := readBound_digits hlo (fun c hc => (closeInterval_head hclose c hc).1) hle
  have hcomma : ∀ r, close ≠ ',' :: r := by
    rintro r rfl
    exact (closeInterval_head hclose ',' rfl).2 rfl
  rw [readInterval_exact d hread hcomma, hclose, getD_numeral?]

theorem readInterval_atLeast_digits :
    readInterval d (lo ++ ',' :: close) = .ok (⟨Nat.ofDigitChars 10 lo 0, none⟩, rest) := by
  rw [readInterval_comma d (readBound_digits hlo (by simp) hle), readBound_close hclose]
  dsimp only
  rw [hclose, getD_numeral?]

theorem readInterval_between_digits (hhi : ∀ c ∈ hi, c.isDigit = true) (hne : hi ≠ [])
    (hle' : Nat.ofDigitChars 10 hi 0 ≤ greatestBound) :
    readInterval d (lo ++ ',' :: (hi ++ close)) =
      if Nat.ofDigitChars 10 hi 0 < Nat.ofDigitChars 10 lo 0 then
        .error (.reversedBounds (Nat.ofDigitChars 10 lo 0) (Nat.ofDigitChars 10 hi 0))
      else .ok (⟨Nat.ofDigitChars 10 lo 0, some (Nat.ofDigitChars 10 hi 0)⟩, rest) := by
  have hread := readBound_digits hhi (fun c hc => (closeInterval_head hclose c hc).1) hle'
  have hnum : numeral? hi = some (Nat.ofDigitChars 10 hi 0) := if_neg hne
  rw [readInterval_comma d (readBound_digits hlo (by simp) hle), hread]
  dsimp only
  rw [hclose, getD_numeral?, hnum]

end Digits

theorem readInterval_exactly {m : Nat} (hm : m ≤ greatestBound) :
    readInterval d (Nat.toDigits 10 m ++ close) = .ok (⟨m, some m⟩, rest) := by
  have h := readInterval_exactly_digits hclose (isDigit_toDigits m) (by rwa [Nat.ofDigitChars_ten_toDigits])
  rwa [Nat.ofDigitChars_ten_toDigits] at h

theorem readInterval_atLeast {m : Nat} (hm : m ≤ greatestBound) :
    readInterval d (Nat.toDigits 10 m ++ ',' :: close) = .ok (⟨m, none⟩, rest) := by
  have h := readInterval_atLeast_digits hclose (isDigit_toDigits m) (by rwa [Nat.ofDigitChars_ten_toDigits])
  rwa [Nat.ofDigitChars_ten_toDigits] at h

theorem readInterval_between {m n : Nat} (hmn : m ≤ n) (hn : n ≤ greatestBound) :
    readInterval d (Nat.toDigits 10 m ++ ',' :: (Nat.toDigits 10 n ++ close)) = .ok (⟨m, some n⟩, rest) := by
  have h := readInterval_between_digits hclose (isDigit_toDigits m)
    (by rw [Nat.ofDigitChars_ten_toDigits]; exact hmn.trans hn) (isDigit_toDigits n) Nat.toDigits_ne_nil
    (by rwa [Nat.ofDigitChars_ten_toDigits])
  rw [Nat.ofDigitChars_ten_toDigits, Nat.ofDigitChars_ten_toDigits, if_neg (Nat.not_lt.mpr hmn)] at h
  exact h

end Interval

section Compile

variable {o : Options} {x : String} {body : Pattern}

theorem toList_groupText (x : String) (q : List Char) :
    (groupText x).toList ++ q = '(' :: '?' :: ':' :: (x.toList ++ ')' :: q) := by
  have hopen : "(?:".toList = ['(', '?', ':'] := rfl
  have hclose : ")".toList = [')'] := rfl
  rw [groupText, String.toList_append, String.toList_append, hopen, hclose, List.append_assoc, List.append_assoc]
  rfl

theorem toList_countedText (x : String) (n : Nat) :
    (countedText x n).toList = '(' :: '?' :: ':' :: (x.toList ++ ')' :: '\x7b' :: (Nat.toDigits 10 n ++ ['\x7d'])) := by
  have hopen : "\x7b".toList = ['\x7b'] := rfl
  have hclose : "\x7d".toList = ['\x7d'] := rfl
  rw [countedText, String.toList_append, String.toList_append, String.toList_append, hopen, hclose,
    Nat.toString_eq_repr, Nat.toList_repr, List.append_assoc, List.append_assoc, toList_groupText]
  rfl

theorem toList_repeatedText_succ (x : String) (n : Nat) :
    (repeatedText x (n + 1)).toList = '(' :: '?' :: ':' :: (x.toList ++ ')' :: (repeatedText x n).toList) := by
  rw [repeatedText, List.replicate_succ, String.join_cons, String.toList_append, toList_groupText]
  rfl

theorem compile_of_finish {d : Dialect} {text : List Char} {groups : Nat}
    (h : d.finish o (.start text) = .ok (body, groups)) : compile d o text = .ok (body, groups) := by
  rw [compile, h]

theorem bareOperator?_toDigits (n : Nat) (q : List Char) :
    Dialect.perl5.bareOperator? '\x7b' (Nat.toDigits 10 n ++ q) = some .intervalOpen := by
  have hbraces : Dialect.perl5.has .bareBraces = true := by decide
  change (if Dialect.perl5.has .bareBraces && Dialect.perl5.startsInterval (Nat.toDigits 10 n ++ q) then _ else _) = _
  rw [hbraces, startsInterval_toDigits (by decide)]
  rfl

theorem compile_counted (h : compile .perl5 o x.toList = .ok (body, 1)) {n : Nat} (hn : n ≤ greatestBound) :
    compile .perl5 o (countedText x n).toList = .ok (.repeated (.group none body) n (some n) true, 1) := by
  have hstep (f : Frame) (hf : f.repeatable = true) :
      Dialect.perl5.step o ⟨'\x7b' :: (Nat.toDigits 10 n ++ ['\x7d']), 1, f, []⟩ '\x7b'
          (Nat.toDigits 10 n ++ ['\x7d']) =
        .ok ⟨[], 1, f.repeatLast o.ignoreCase n (some n) true, []⟩ := by
    rw [Dialect.step, Dialect.operator?_bare (by decide), bareOperator?_toDigits, Option.map_some]
    dsimp only [Dialect.applyOperator, List.drop]
    rw [readInterval_exactly rfl hn, Dialect.repetition_ok hf]
    rfl
  apply compile_of_finish
  rw [Progress.start, toList_countedText, Dialect.finish_group h, Dialect.finish_cons rfl (hstep _ rfl),
    Dialect.finish_nil rfl]
  rfl

theorem finish_copies (h : compile .perl5 o x.toList = .ok (body, 1)) (n : Nat) (f : Frame) :
    Dialect.perl5.finish o ⟨(repeatedText x n).toList, 1, f, []⟩ =
      .ok (Frame.body { f with nodes := List.replicate n (.piece (.group none body)) ++ f.nodes } o.ignoreCase, 1) := by
  induction n generalizing f with
  | zero => exact Dialect.finish_nil rfl
  | succ n ih =>
    rw [toList_repeatedText_succ, Dialect.finish_group h, ih, List.replicate_succ']
    rw [List.append_assoc]
    rfl

theorem sequence_replicate (fold : Bool) (p : Pattern) (k n : Nat) :
    Node.sequence fold [] (p.copies k) (List.replicate n (.piece p)) = p.copies (k + n) := by
  induction n generalizing k with
  | zero => rfl
  | succ n ih =>
    rw [List.replicate_succ, Node.sequence]
    have hnext := ih (k + 1)
    rw [Nat.add_right_comm] at hnext
    exact hnext

theorem compile_copies (h : compile .perl5 o x.toList = .ok (body, 1)) (n : Nat) :
    compile .perl5 o (repeatedText x n).toList = .ok ((Pattern.group none body).copies n, 1) := by
  apply compile_of_finish
  rw [Progress.start, finish_copies h]
  have hseq := sequence_replicate o.ignoreCase (.group none body) 0 n
  rw [Nat.zero_add] at hseq
  rw [← hseq, Frame.body, Frame.sequence]
  dsimp only [Frame.begin]
  rw [List.append_nil]
  rfl

end Compile

end DialectRegex
