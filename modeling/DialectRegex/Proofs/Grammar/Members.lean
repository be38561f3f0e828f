import DialectRegex.Proofs.Grammar.Suffix
import Mathlib.Data.List.Infix
import Mathlib.Logic.Relation

namespace DialectRegex

section ClassNames

def ClosesName (cs : List Char) : Prop := [':', ']'] <:+: cs

instance (cs : List Char) : Decidable (ClosesName cs) := inferInstanceAs (Decidable (_ <:+: _))

variable {c : Char} {cs ds name after : List Char}

theorem not_closesName_nil : ¬ ClosesName [] := by decide

theorem closesName_cons : ClosesName (c :: cs) ↔ (c = ':' ∧ ∃ after, cs = ']' :: after) ∨ ClosesName cs := by
  rw [ClosesName, List.infix_cons_iff, List.cons_prefix_cons]
  apply or_congr_left
  rw [eq_comm]
  apply and_congr_right
  intro _
  cases cs with
  | nil => simp
  | cons c cs => simp [List.cons_prefix_cons, eq_comm]

theorem ClosesName.append_left (h : ClosesName ds) (cs : List Char) : ClosesName (cs ++ ds) :=
  h.trans (List.suffix_append cs ds).isInfix

theorem closesName_append_bracket : ClosesName (cs ++ ']' :: ds) ↔ ClosesName (cs ++ [']']) ∨ ClosesName ds := by
  induction cs with
  | nil =>
    rw [List.nil_append, List.nil_append, closesName_cons, closesName_cons]
    simp [not_closesName_nil]
  | cons c cs ih =>
    rw [List.cons_append, List.cons_append, closesName_cons, closesName_cons, ih, or_assoc]
    apply or_congr_left
    apply and_congr_right
    intro _
    cases cs <;> simp

theorem splitClassName_eq_none_iff : splitClassName cs = none ↔ ¬ ClosesName cs := by
  fun_induction splitClassName cs with
  | case1 rest => simp [closesName_cons]
  | case2 c rest hne ih =>
    rw [Option.map_eq_none_iff, ih, closesName_cons, not_or]
    refine (and_iff_right ?_).symm
    rintro ⟨rfl, after, rfl⟩
    exact hne after rfl rfl
  | case3 => simp [not_closesName_nil]

theorem splitClassName_spelled (hname : ¬ ClosesName name) (after : List Char) :
    splitClassName (name ++ ':' :: ']' :: after) = some (name, after) := by
  induction name with
  | nil => rfl
  | cons c name ih =>
    rw [closesName_cons, not_or] at hname
    rw [List.cons_append, splitClassName.eq_def]
    split
    · next h =>
      cases name with
      | nil => cases h
      | cons c' name =>
        cases h
        exact absurd ⟨rfl, name, rfl⟩ hname.1
    · next h =>
      cases h
      rw [ih hname.2]
      rfl
    · next h => cases h

theorem splitClassName_eq_some_iff :
    splitClassName cs = some (name, after) ↔ cs = name ++ ':' :: ']' :: after ∧ ¬ ClosesName name := by
  constructor
  · intro h
    refine ⟨splitClassName_eq_some h, ?_⟩
    fun_induction splitClassName cs generalizing name with
    | case1 rest =>
      cases h
      exact not_closesName_nil
    | case2 c rest hne ih =>
      obtain ⟨⟨name, after'⟩, hsplit, he⟩ := Option.map_eq_some_iff.mp h
      cases he
      rw [closesName_cons, not_or]
      refine ⟨?_, ih hsplit⟩
      rintro ⟨rfl, tail, rfl⟩
      rw [splitClassName_eq_some hsplit] at hne
      exact hne _ rfl rfl
    | case3 => cases h
  · rintro ⟨rfl, hname⟩
    exact splitClassName_spelled hname after

end ClassNames

section Members

variable {d : Dialect} {opened cs rest w : List Char} {m : Member}

def Dialect.escapesLists (d : Dialect) : Bool := d.has .escapesInLists || d.has .classEscapesInLists

def listEscape? (d : Dialect) (c : Char) : Option Member :=
  let plain := if d.has .escapesInLists then some (.char c) else none
  if d.has .classEscapesInLists then
    match CharClass.ofEscape? c, controlEscape? c with
    | some (k, negated), _ => some (.named k negated)
    | none, some control => some (.char control)
    | none, none => plain
  else plain

theorem escapedMember_eq (d : Dialect) (c : Char) (rest : List Char) :
    escapedMember d c rest =
      match listEscape? d c with
      | some m => (m, rest)
      | none => (.char '\\', c :: rest) := by
  rw [escapedMember, listEscape?]
  cases CharClass.ofEscape? c <;> cases controlEscape? c <;> cases d.has .classEscapesInLists <;>
    cases d.has .escapesInLists <;> rfl

theorem readMember_backslash (d : Dialect) (opened rest : List Char) :
    readMember d opened ('\\' :: rest) =
      if d.escapesLists then
        match rest with
        | [] => .error ⟨.unterminatedList, opened⟩
        | c :: rest => .ok (escapedMember d c rest)
      else .ok (.char '\\', rest) := by
  rfl

theorem escapesLists_of_listEscape? {c : Char} (h : listEscape? d c = some m) : d.escapesLists = true := by
  by_contra hd
  rw [Dialect.escapesLists, Bool.or_eq_true, not_or] at hd
  simp [listEscape?, hd] at h

inductive SpellsMember (d : Dialect) : List Char → Member → List Char → Prop where
  | named {name rest : List Char} {k : CharClass} (hd : d.has .charClasses = true) (hname : ¬ ClosesName name)
      (hk : CharClass.ofName? name = some k) : SpellsMember d ('[' :: ':' :: name ++ [':', ']']) (.named k false) rest
  | bracket {rest : List Char} (h : d.has .charClasses = true → ∀ tail, rest = ':' :: tail → ¬ ClosesName tail) :
      SpellsMember d ['['] (.char '[') rest
  | escaped {c : Char} {m : Member} {rest : List Char} (h : listEscape? d c = some m) :
      SpellsMember d ['\\', c] m rest
  | backslash {rest : List Char}
      (h : d.escapesLists = true → ∃ c tail, rest = c :: tail ∧ listEscape? d c = none) :
      SpellsMember d ['\\'] (.char '\\') rest
  | plain {c : Char} {rest : List Char} (hb : c ≠ '[') (hs : c ≠ '\\') : SpellsMember d [c] (.char c) rest

theorem SpellsMember.of_readMember (h : readMember d opened cs = .ok (m, rest)) :
    ∃ w, cs = w ++ rest ∧ SpellsMember d w m rest := by
  rw [readMember.eq_def] at h
  split at h
  · cases h
  · next tail =>
    split at h
    · next hd =>
      split at h
      · next hs =>
        cases h
        refine ⟨['['], rfl, .bracket ?_⟩
        rintro _ _ ⟨⟩
        exact splitClassName_eq_none_iff.mp hs
      · next hs =>
        obtain ⟨rfl, hname⟩ := splitClassName_eq_some_iff.mp hs
        split at h
        · cases h
        · next hk =>
          cases h
          exact ⟨_, by simp, .named hd hname hk⟩
    · next hd =>
      cases h
      exact ⟨['['], rfl, .bracket fun hd' => absurd hd' hd⟩
  · split at h
    · split at h
      · cases h
      · next c tail =>
        rw [escapedMember_eq, Except.ok.injEq] at h
        split at h
        · next hc =>
          cases h
          exact ⟨['\\', c], rfl, .escaped hc⟩
        · next hc =>
          cases h
          exact ⟨['\\'], rfl, .backslash fun _ => ⟨c, tail, rfl, hc⟩⟩
    · next hd =>
      cases h
      exact ⟨['\\'], rfl, .backslash fun hd' => absurd hd' hd⟩
  · next c tail hclass hs =>
    cases h
    by_cases hb : c = '['
    · subst hb
      refine ⟨['['], rfl, .bracket ?_⟩
      rintro _ tail rfl
      exact absurd rfl (hclass tail rfl)
    · exact ⟨[c], rfl, .plain hb hs⟩

theorem SpellsMember.readMember (h : SpellsMember d w m rest) (opened : List Char) :
    readMember d opened (w ++ rest) = .ok (m, rest) := by
  cases h with
  | @named name rest k hd hname hk =>
    have hsplit : splitClassName (name ++ [':', ']'] ++ rest) = some (name, rest) := by
      rw [List.append_assoc]
      exact splitClassName_spelled hname rest
    change readMember d opened ('[' :: ':' :: (name ++ [':', ']'] ++ rest)) = _
    rw [DialectRegex.readMember, if_pos hd, hsplit]
    dsimp only
    rw [hk]
  | bracket hc =>
    cases rest with
    | nil => rfl
    | cons c tail =>
      by_cases hcolon : c = ':'
      · subst hcolon
        change readMember d opened ('[' :: ':' :: tail) = _
        rw [DialectRegex.readMember]
        split
        · next hd => rw [splitClassName_eq_none_iff.mpr (hc hd tail rfl)]
        · rfl
      · rw [List.singleton_append, DialectRegex.readMember.eq_def]
        split
        · cases ‹_›
        · next h =>
          cases h
          exact absurd rfl hcolon
        · cases ‹_›
        · next h =>
          cases h
          rfl
  | @escaped c m rest hc =>
    change readMember d opened ('\\' :: c :: rest) = _
    rw [readMember_backslash, if_pos (escapesLists_of_listEscape? hc)]
    dsimp only
    rw [escapedMember_eq, hc]
  | backslash hc =>
    rw [List.singleton_append, readMember_backslash]
    split
    · next hd =>
      obtain ⟨c, tail, rfl, hn⟩ := hc hd
      dsimp only
      rw [escapedMember_eq, hn]
    · rfl
  | plain hb hs =>
    rw [List.singleton_append, DialectRegex.readMember.eq_def]
    split
    · cases ‹_›
    · next h =>
      cases h
      exact absurd rfl hb
    · next h =>
      cases h
      exact absurd rfl hs
    · next h =>
      cases h
      rfl

theorem readMember_eq_ok :
    readMember d opened cs = .ok (m, rest) ↔ ∃ w, cs = w ++ rest ∧ SpellsMember d w m rest := by
  refine ⟨SpellsMember.of_readMember, ?_⟩
  rintro ⟨w, rfl, h⟩
  exact h.readMember opened

theorem SpellsMember.unique {w' rest' : List Char} {m' : Member} (h : SpellsMember d w m rest)
    (h' : SpellsMember d w' m' rest') (he : w ++ rest = w' ++ rest') : rest = rest' := by
  have hread := h.readMember []
  rw [he, h'.readMember] at hread
  cases hread
  rfl

theorem readMember_eq_error {e : Fault} (h : readMember d opened cs = .error e) :
    e = ⟨.unterminatedList, opened⟩ ∧ (cs = [] ∨ cs = ['\\'] ∧ d.escapesLists = true) ∨
      ∃ name after, d.has .charClasses = true ∧ cs = '[' :: ':' :: name ++ ':' :: ']' :: after ∧
        CharClass.ofName? name = none ∧ e = ⟨.unknownClass (.ofList name), cs⟩ := by
  rw [readMember.eq_def] at h
  split at h
  · cases h
    exact .inl ⟨rfl, .inl rfl⟩
  · split at h
    · next hd =>
      split at h
      · cases h
      · next hs =>
        obtain ⟨rfl, _⟩ := splitClassName_eq_some_iff.mp hs
        split at h
        · next hk =>
          cases h
          exact .inr ⟨_, _, hd, rfl, hk, rfl⟩
        · cases h
    · cases h
  · split at h
    · next hd =>
      split at h
      · cases h
        exact .inl ⟨rfl, .inr ⟨rfl, hd⟩⟩
      · cases h
    · cases h
  · cases h

def NextMember (d : Dialect) (cs rest : List Char) : Prop :=
  rest.head? ≠ some ']' ∧ ∃ w m, cs = w ++ rest ∧ SpellsMember d w m rest

def Members (d : Dialect) : List Char → List Char → Prop := Relation.ReflTransGen (NextMember d)

def ReversedRange (d : Dialect) (cs : List Char) (lo hi : Char) : Prop :=
  ∃ w w' rest, cs = w ++ '-' :: w' ++ rest ∧ SpellsMember d w (.char lo) ('-' :: w' ++ rest) ∧
    SpellsMember d w' (.char hi) rest ∧ hi < lo

theorem head?_ne_some_iff {c : Char} : cs.head? ≠ some c ↔ ∀ tail, cs ≠ c :: tail := by
  rw [Ne, List.head?_eq_some_iff, not_exists]

theorem afterHyphen?_eq_some_iff :
    afterHyphen? cs = some rest ↔ cs = '-' :: rest ∧ rest ≠ [] ∧ rest.head? ≠ some ']' := by
  rw [afterHyphen?.eq_def]
  split
  · simp only [reduceCtorEq, List.cons.injEq, true_and, false_iff, not_and]
    exact fun hnil hne => absurd hnil.symm hne
  · simp only [reduceCtorEq, List.cons.injEq, true_and, false_iff, not_and, not_not]
    rintro rfl _
    rfl
  · next tail hnil hbracket =>
    rw [Option.some_inj, List.cons.injEq]
    constructor
    · rintro rfl
      exact ⟨⟨rfl, rfl⟩, hnil, head?_ne_some_iff.mpr hbracket⟩
    · exact fun h => h.1.2
  · next hne =>
    simp only [reduceCtorEq, false_iff, not_and]
    rintro rfl
    exact absurd rfl (hne rest)

theorem Members.hyphen {last : List Char} (hw : SpellsMember d w m ('-' :: last)) (hlast : last.head? ≠ some ']') :
    Members d (w ++ '-' :: last) last := by
  -- The hyphen between the ends of a range is a member too.
  have hhyphen : SpellsMember d ['-'] (.char '-') last := .plain (by decide) (by decide)
  have hfirst : NextMember d (w ++ '-' :: last) ('-' :: last) := ⟨by simp, w, m, rfl, hw⟩
  exact .head hfirst (.single ⟨hlast, ['-'], _, rfl, hhyphen⟩)

inductive SpellsItems (d : Dialect) : List Char → List SetItem → List Char → Prop where
  | named {w rest : List Char} {k : CharClass} {negated : Bool} (h : SpellsMember d w (.named k negated) rest) :
      SpellsItems d w [.named k negated] rest
  | char {w rest : List Char} {c : Char} (h : SpellsMember d w (.char c) rest) (hrest : afterHyphen? rest = none) :
      SpellsItems d w [.char c] rest
  | hyphen {w w' rest : List Char} {c : Char} {k : CharClass} {negated : Bool}
      (h : SpellsMember d w (.char c) ('-' :: w' ++ rest)) (hhead : (w' ++ rest).head? ≠ some ']')
      (h' : SpellsMember d w' (.named k negated) rest) :
      SpellsItems d (w ++ '-' :: w') [.char c, .char '-', .named k negated] rest
  | range {w w' rest : List Char} {lo hi : Char} (h : SpellsMember d w (.char lo) ('-' :: w' ++ rest))
      (hhead : (w' ++ rest).head? ≠ some ']') (h' : SpellsMember d w' (.char hi) rest)
      (horder : d.has .noEmptyRanges = true → lo ≤ hi) : SpellsItems d (w ++ '-' :: w') [.range lo hi] rest

inductive SpellsList (d : Dialect) : List Char → List SetItem → List Char → Prop where
  | last {w rest : List Char} {items : List SetItem} (h : SpellsItems d w items (']' :: rest)) :
      SpellsList d w items rest
  | more {w w' rest : List Char} {items items' : List SetItem} (h : SpellsItems d w items (w' ++ ']' :: rest))
      (hhead : w'.head? ≠ some ']') (h' : SpellsList d w' items' rest) : SpellsList d (w ++ w') (items ++ items') rest

variable {items : List SetItem}

theorem SpellsMember.ne_nil (h : SpellsMember d w m rest) : w ≠ [] := by
  cases h <;> simp

theorem SpellsItems.of_readItems (h : readItems d opened cs = .ok (items, rest)) :
    ∃ w, cs = w ++ rest ∧ SpellsItems d w items rest := by
  rw [readItems.eq_def] at h
  split at h
  · cases h
  · next hm =>
    cases h
    obtain ⟨w, rfl, hw⟩ := readMember_eq_ok.mp hm
    exact ⟨w, rfl, .named hw⟩
  · next hm =>
    obtain ⟨w, rfl, hw⟩ := readMember_eq_ok.mp hm
    split at h
    · next hy =>
      cases h
      exact ⟨w, rfl, .char hw hy⟩
    · next hy =>
      obtain ⟨rfl, _, hhead⟩ := afterHyphen?_eq_some_iff.mp hy
      split at h
      · cases h
      · next hm' =>
        cases h
        obtain ⟨w', rfl, hw'⟩ := readMember_eq_ok.mp hm'
        exact ⟨w ++ '-' :: w', by simp, .hyphen hw hhead hw'⟩
      · next hm' =>
        split at h
        · cases h
        · next horder =>
          cases h
          obtain ⟨w', rfl, hw'⟩ := readMember_eq_ok.mp hm'
          refine ⟨w ++ '-' :: w', by simp, .range hw hhead hw' ?_⟩
          intro hd
          simpa [hd] using horder

theorem SpellsItems.readItems (h : SpellsItems d w items rest) (opened : List Char) :
    readItems d opened (w ++ rest) = .ok (items, rest) := by
  have hsecond {w w' : List Char} {c : Char} {m' : Member} (h : SpellsMember d w (.char c) ('-' :: w' ++ rest))
      (hhead : (w' ++ rest).head? ≠ some ']') (h' : SpellsMember d w' m' rest) :
      readMember d opened (w ++ '-' :: w' ++ rest) = .ok (.char c, '-' :: w' ++ rest) ∧
        afterHyphen? ('-' :: w' ++ rest) = some (w' ++ rest) := by
    refine ⟨readMember_eq_ok.mpr ⟨w, by simp, h⟩, afterHyphen?_eq_some_iff.mpr ⟨rfl, ?_, hhead⟩⟩
    exact List.append_ne_nil_of_left_ne_nil h'.ne_nil rest
  rw [readItems.eq_def]
  cases h with
  | named h => rw [h.readMember]
  | char h hrest =>
    rw [h.readMember]
    dsimp only
    rw [hrest]
  | hyphen h hhead h' =>
    obtain ⟨hfirst, hy⟩ := hsecond h hhead h'
    rw [hfirst]
    dsimp only
    rw [hy]
    dsimp only
    rw [h'.readMember]
  | @range w w' _ lo hi h hhead h' horder =>
    obtain ⟨hfirst, hy⟩ := hsecond h hhead h'
    have hnot : ¬ (decide (hi < lo) && d.has .noEmptyRanges) = true := by
      rw [Bool.and_eq_true, decide_eq_true_eq]
      rintro ⟨hlt, hd⟩
      exact Char.not_lt.mpr (horder hd) hlt
    rw [hfirst]
    dsimp only
    rw [hy]
    dsimp only
    rw [h'.readMember]
    dsimp only
    rw [if_neg hnot]

theorem SpellsItems.ne_nil (h : SpellsItems d w items rest) : w ≠ [] := by
  cases h with
  | named h => exact h.ne_nil
  | char h => exact h.ne_nil
  | hyphen => simp
  | range => simp

theorem SpellsList.ne_nil (h : SpellsList d w items rest) : w ≠ [] := by
  cases h with
  | last h => exact h.ne_nil
  | more h => exact List.append_ne_nil_of_left_ne_nil h.ne_nil _

theorem SpellsList.of_readList (h : readList d opened cs = .ok (items, rest)) :
    ∃ w, cs = w ++ ']' :: rest ∧ SpellsList d w items rest := by
  fun_induction readList d opened cs generalizing items rest with
  | case1 => cases h
  | case2 cs items rest hi =>
    cases h
    obtain ⟨w, rfl, hw⟩ := SpellsItems.of_readItems hi
    exact ⟨w, rfl, .last hw⟩
  | case3 => cases h
  | case4 cs items mid hmid hi more last hl ih =>
    cases h
    obtain ⟨w, rfl, hw⟩ := SpellsItems.of_readItems hi
    obtain ⟨w', rfl, hw'⟩ := ih hl
    have hhead := head?_ne_some_iff.mpr hmid
    rw [List.head?_append_of_ne_nil _ hw'.ne_nil] at hhead
    exact ⟨w ++ w', by simp, .more hw hhead hw'⟩

theorem SpellsList.readList (h : SpellsList d w items rest) (opened : List Char) :
    readList d opened (w ++ ']' :: rest) = .ok (items, rest) := by
  induction h with
  | last h => exact readList_close (h.readItems opened)
  | @more w w' rest items items' h hhead h' ih =>
    have hmid : (w' ++ ']' :: rest).head? ≠ some ']' := by rwa [List.head?_append_of_ne_nil _ h'.ne_nil]
    rw [List.append_assoc]
    exact readList_more (h.readItems opened) (head?_ne_some_iff.mp hmid) ih

theorem SpellsItems.members (h : SpellsItems d w items rest) :
    ∃ u m, Members d (w ++ rest) (u ++ rest) ∧ SpellsMember d u m rest := by
  cases h with
  | named h => exact ⟨w, _, .refl, h⟩
  | char h => exact ⟨w, _, .refl, h⟩
  | hyphen h hhead h' =>
    rw [List.append_assoc]
    exact ⟨_, _, Members.hyphen h hhead, h'⟩
  | range h hhead h' =>
    rw [List.append_assoc]
    exact ⟨_, _, Members.hyphen h hhead, h'⟩

theorem SpellsItems.next (h : SpellsItems d w items rest) (hhead : rest.head? ≠ some ']') :
    Members d (w ++ rest) rest := by
  obtain ⟨u, m, hmembers, hu⟩ := h.members
  exact hmembers.tail ⟨hhead, u, m, rfl, hu⟩

theorem SpellsList.members (h : SpellsList d w items rest) :
    ∃ u m, Members d (w ++ ']' :: rest) (u ++ ']' :: rest) ∧ SpellsMember d u m (']' :: rest) := by
  induction h with
  | last h =>
    exact h.members
  | @more w w' rest items items' h hhead h' ih =>
    obtain ⟨u, m, hmembers, hu⟩ := ih
    have hnext : (w' ++ ']' :: rest).head? ≠ some ']' := by
      rwa [List.head?_append_of_ne_nil _ h'.ne_nil]
    rw [List.append_assoc]
    exact ⟨u, m, (h.next hnext).trans hmembers, hu⟩

def NextItems (d : Dialect) (cs rest : List Char) : Prop :=
  rest.head? ≠ some ']' ∧ ∃ w items, cs = w ++ rest ∧ SpellsItems d w items rest

def Items (d : Dialect) : List Char → List Char → Prop := Relation.ReflTransGen (NextItems d)

theorem Items.members (h : Items d cs rest) : Members d cs rest := by
  induction h with
  | refl => exact .refl
  | tail _ h ih =>
    obtain ⟨hhead, w, items, rfl, hw⟩ := h
    exact ih.trans (hw.next hhead)

section Errors

variable {e : Fault}

theorem readItems_eq_error (h : readItems d opened cs = .error e) :
    (∃ place, Members d cs place ∧ readMember d opened place = .error e) ∨
      ∃ lo hi, ReversedRange d cs lo hi ∧ e = ⟨.reversedRange lo hi, cs⟩ := by
  rw [readItems.eq_def] at h
  split at h
  · next hm =>
    cases h
    exact .inl ⟨cs, .refl, hm⟩
  · cases h
  · next hm =>
    obtain ⟨w, rfl, hw⟩ := readMember_eq_ok.mp hm
    split at h
    · cases h
    · next hy =>
      obtain ⟨rfl, _, hhead⟩ := afterHyphen?_eq_some_iff.mp hy
      split at h
      · next hm' =>
        cases h
        exact .inl ⟨_, Members.hyphen hw hhead, hm'⟩
      · cases h
      · next hm' =>
        split at h
        · next hlt =>
          cases h
          obtain ⟨w', rfl, hw'⟩ := readMember_eq_ok.mp hm'
          rw [Bool.and_eq_true, decide_eq_true_eq] at hlt
          exact .inr ⟨_, _, ⟨w, w', _, by simp, hw, hw', hlt.1⟩, rfl⟩
        · cases h

theorem readList_eq_error (h : readList d opened cs = .error e) :
    ∃ place, Items d cs place ∧ readItems d opened place = .error e := by
  fun_induction readList d opened cs with
  | case1 cs e' hi =>
    cases h
    exact ⟨cs, .refl, hi⟩
  | case2 => cases h
  | case3 cs items mid hmid hi e' hl ih =>
    cases h
    obtain ⟨w, rfl, hw⟩ := SpellsItems.of_readItems hi
    obtain ⟨place, hrest, hfails⟩ := ih hl
    exact ⟨place, .head ⟨head?_ne_some_iff.mpr hmid, w, items, rfl, hw⟩ hrest, hfails⟩
  | case4 => cases h

end Errors

def listed (cs : List Char) : List Char := if cs.head? == some '^' then cs.tail else cs

theorem readBracket_eq (d : Dialect) (fold : Bool) (cs : List Char) :
    readBracket d fold cs =
      match readList d ('[' :: cs) (listed cs) with
      | .error e => .error e
      | .ok (items, rest) =>
        let negated := cs.head? == some '^'
        .ok (⟨items, negated, fold, negated && d.has .negatedListsNotNewline⟩, rest) := rfl

end Members

end DialectRegex
