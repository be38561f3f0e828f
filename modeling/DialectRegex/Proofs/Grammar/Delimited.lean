import DialectRegex.Dialect.Named
import DialectRegex.Proofs.Grammar.Members

namespace DialectRegex

variable {d : Dialect} {cs w rest q : List Char} {m : Member} {items : List SetItem}

def OpensName (d : Dialect) (cs : List Char) : Prop :=
  d.has .charClasses = true ∧ ∃ name, cs = '[' :: ':' :: name ∧ ¬ ClosesName name

/-- A member of the list begins like a class, and the name of the class ends nowhere in the text. -/
def LeavesNameOpen (d : Dialect) (cs : List Char) : Prop := ∃ place, Members d cs place ∧ OpensName d place

theorem LeavesNameOpen.of_members (h : LeavesNameOpen d rest) (hm : Members d cs rest) : LeavesNameOpen d cs := by
  obtain ⟨place, hplace, hopen⟩ := h
  exact ⟨place, hm.trans hplace, hopen⟩

section Same

theorem SpellsMember.replace {tail : List Char} (h : SpellsMember d w m (tail ++ ']' :: rest))
    (hq : OpensName d (w ++ tail ++ [']']) → ¬ ClosesName q) : SpellsMember d w m (tail ++ ']' :: q) := by
  cases h with
  | named hd hname hk => exact .named hd hname hk
  | bracket hopen =>
    -- A name that begins here and does not end before the bracket would have to end behind it.
    refine .bracket fun hd after hafter => ?_
    cases tail with
    | nil => cases hafter
    | cons c tail =>
      rw [List.cons_append, List.cons.injEq] at hafter
      obtain ⟨rfl, rfl⟩ := hafter
      have hname : ¬ ClosesName (tail ++ ']' :: rest) := hopen hd _ rfl
      rw [closesName_append_bracket, not_or] at hname ⊢
      exact ⟨hname.1, hq ⟨hd, _, rfl, hname.1⟩⟩
  | escaped hc => exact .escaped hc
  | backslash hc =>
    refine .backslash fun hd => ?_
    obtain ⟨c, after, hafter, hplain⟩ := hc hd
    cases tail with
    | nil =>
      cases hafter
      exact ⟨_, _, rfl, hplain⟩
    | cons c tail =>
      cases hafter
      exact ⟨_, _, rfl, hplain⟩
  | plain hb hs => exact .plain hb hs

theorem head?_bracket (tail rest q : List Char) : (tail ++ ']' :: q).head? = (tail ++ ']' :: rest).head? := by
  cases tail <;> rfl

theorem afterHyphen?_bracket {tail : List Char} (h : afterHyphen? (tail ++ ']' :: rest) = none) (q : List Char) :
    afterHyphen? (tail ++ ']' :: q) = none := by
  by_contra hsome
  obtain ⟨after, hafter⟩ := Option.ne_none_iff_exists'.mp hsome
  obtain ⟨he, _, hhead⟩ := afterHyphen?_eq_some_iff.mp hafter
  cases tail with
  | nil => cases he
  | cons c tail =>
    rw [List.cons_append, List.cons.injEq] at he
    obtain ⟨rfl, rfl⟩ := he
    rw [head?_bracket tail rest q] at hhead
    have hsome' := afterHyphen?_eq_some_iff.mpr ⟨rfl, by simp, hhead⟩
    cases h.symm.trans hsome'

theorem SpellsItems.replace {tail : List Char} (h : SpellsItems d w items (tail ++ ']' :: rest))
    (hq : LeavesNameOpen d (w ++ tail ++ [']']) → ¬ ClosesName q) : SpellsItems d w items (tail ++ ']' :: q) := by
  have hsecond {w w' : List Char} {c : Char} {m' : Member}
      (h : SpellsMember d w (.char c) ('-' :: w' ++ (tail ++ ']' :: rest)))
      (hhead : (w' ++ (tail ++ ']' :: rest)).head? ≠ some ']') (h' : SpellsMember d w' m' (tail ++ ']' :: rest))
      (hq : LeavesNameOpen d (w ++ '-' :: w' ++ tail ++ [']']) → ¬ ClosesName q) :
      SpellsMember d w (.char c) ('-' :: w' ++ (tail ++ ']' :: q)) ∧
        (w' ++ (tail ++ ']' :: q)).head? ≠ some ']' ∧ SpellsMember d w' m' (tail ++ ']' :: q) := by
    rw [← List.append_assoc] at h hhead
    rw [List.append_assoc w, List.append_assoc w] at hq
    have hfirst (q : List Char) (hq : OpensName d (w ++ ('-' :: w' ++ tail) ++ [']']) → ¬ ClosesName q) :
        SpellsMember d w (.char c) ('-' :: w' ++ (tail ++ ']' :: q)) := by
      rw [← List.append_assoc]
      exact h.replace hq
    have hhead (q : List Char) : (w' ++ (tail ++ ']' :: q)).head? ≠ some ']' := by
      rwa [← List.append_assoc, head?_bracket _ rest]
    -- The second member is reached in the text that ends with the bracket too.
    have hmembers : Members d (w ++ ('-' :: w' ++ tail ++ [']'])) (w' ++ tail ++ [']']) := by
      rw [List.append_assoc, List.append_assoc]
      exact Members.hyphen (hfirst [] fun _ => not_closesName_nil) (hhead [])
    refine ⟨hfirst q fun hopen => hq ⟨_, .refl, by rwa [← List.append_assoc]⟩, hhead q, h'.replace ?_⟩
    exact fun hopen => hq ⟨_, hmembers, hopen⟩
  cases h with
  | named h => exact .named (h.replace fun hopen => hq ⟨_, .refl, hopen⟩)
  | char h hrest => exact .char (h.replace fun hopen => hq ⟨_, .refl, hopen⟩) (afterHyphen?_bracket hrest q)
  | hyphen h hhead h' =>
    obtain ⟨h, hhead, h'⟩ := hsecond h hhead h' hq
    exact .hyphen h hhead h'
  | range h hhead h' horder =>
    obtain ⟨h, hhead, h'⟩ := hsecond h hhead h' hq
    exact .range h hhead h' horder

theorem SpellsList.replace (h : SpellsList d w items rest) (hq : LeavesNameOpen d (w ++ [']']) → ¬ ClosesName q) :
    SpellsList d w items q := by
  induction h with
  | @last w rest items h =>
    have hend : SpellsItems d w items ([] ++ ']' :: rest) := h
    exact .last (hend.replace (by rwa [List.append_nil]))
  | @more w w' rest items items' h hhead h' ih =>
    have hlast : SpellsItems d w items (w' ++ [']']) := h.replace fun _ => not_closesName_nil
    have hnext : (w' ++ [']']).head? ≠ some ']' := by rwa [List.head?_append_of_ne_nil _ h'.ne_nil]
    rw [List.append_assoc] at hq
    refine .more (h.replace ?_) hhead (ih ?_)
    · rwa [List.append_assoc]
    · exact fun hopen => hq (hopen.of_members (hlast.next hnext))

end Same

section Different

theorem CharClass.bracket_not_mem {name : List Char} {k : CharClass} (h : CharClass.ofName? name = some k) :
    ']' ∉ name := by
  have hname : k.name.toList = name := by simpa using List.find?_some h
  rw [← hname]
  cases k <;> decide

theorem OpensName.not_spelled {body : List Char} (h : OpensName d (body ++ [']'])) (hq : ClosesName q)
    (hw : SpellsMember d w m rest) : body ++ ']' :: q ≠ w ++ rest := by
  obtain ⟨hd, name, he, hname⟩ := h
  obtain ⟨body, rfl, rfl⟩ : ∃ body', body = '[' :: ':' :: body' ∧ name = body' ++ [']'] := by
    match body, he with
    | _ :: _ :: body, he =>
      cases he
      exact ⟨body, rfl, rfl⟩
  intro htext
  -- The name runs over the bracket, and the name of no class has one in it.
  cases hw with
  | @named name _ k _ _ hk =>
    have hsplit : body ++ ']' :: q = name ++ ':' :: ']' :: rest := by simpa using htext
    obtain ⟨after, rfl, hafter⟩ | ⟨after, rfl, hafter⟩ := List.append_eq_append_iff.mp hsplit
    · cases after with
      | nil => cases hafter
      | cons c after =>
        cases hafter
        exact CharClass.bracket_not_mem hk (by simp)
    · match after, hafter with
      | [], hafter => cases hafter
      | [_], hafter =>
        cases hafter
        exact hname ⟨name, [], by simp⟩
      | _ :: _ :: after, hafter =>
        cases hafter
        exact hname ⟨name, after ++ [']'], by simp⟩
  | bracket hopen =>
    cases htext
    exact hopen hd _ rfl ((hq.append_left [']']).append_left body)
  | escaped => cases htext
  | backslash => cases htext
  | plain hb =>
    cases htext
    exact hb rfl

theorem Members.not_closed {place v : List Char} (h : Members d cs place) (hopen : OpensName d place)
    (hq : ClosesName q) (hv : SpellsMember d v m (']' :: rest)) {body : List Char} (hcs : cs = body ++ [']']) :
    ¬ Members d (body ++ ']' :: q) (v ++ ']' :: rest) := by
  -- Whatever is spelled where the name begins, it is not what stands there.
  have hstop {body : List Char} (hbody : OpensName d (body ++ [']'])) :
      ¬ Members d (body ++ ']' :: q) (v ++ ']' :: rest) := by
    intro hlast
    obtain he | ⟨next, ⟨_, w, m', he, hw⟩, _⟩ := hlast.cases_head
    · exact hbody.not_spelled hq hv he
    · exact hbody.not_spelled hq hw he
  induction h using Relation.ReflTransGen.head_induction_on generalizing body with
  | refl => exact hstop (hcs ▸ hopen)
  | @head cs next hnext hrest ih =>
    subst hcs
    by_cases hbody : OpensName d (body ++ [']'])
    · exact hstop hbody
    obtain ⟨hhead, w, m', he, hw⟩ := hnext
    obtain rfl | ⟨body', c, rfl⟩ := List.eq_nil_or_concat' next
    · obtain rfl | ⟨_, ⟨_, w', _, hnil, hw'⟩, _⟩ := hrest.cases_head
      · obtain ⟨_, _, hnil, _⟩ := hopen
        cases hnil
      · exact absurd (List.append_eq_nil_iff.mp hnil.symm).1 hw'.ne_nil
    obtain ⟨rfl, hc⟩ : body = w ++ body' ∧ [']'] = [c] := by
      rw [← List.append_assoc] at he
      exact List.append_inj' he rfl
    cases hc
    have hsame : SpellsMember d w m' (body' ++ ']' :: q) := hw.replace fun h => absurd h hbody
    intro hlast
    obtain hend | ⟨next, ⟨_, w', m'', hnext, hw'⟩, hrest'⟩ := hlast.cases_head
    · have hrest := hsame.unique hv (by rw [← hend, List.append_assoc])
      rw [head?_bracket body' q [], hrest] at hhead
      exact hhead rfl
    · obtain rfl := hsame.unique hw' (by rw [← hnext, List.append_assoc])
      exact ih rfl hrest'

theorem LeavesNameOpen.not_list {body : List Char} (h : LeavesNameOpen d (body ++ [']'])) (hq : ClosesName q)
    (hw : SpellsList d w items rest) : body ++ ']' :: q ≠ w ++ ']' :: rest := by
  intro he
  obtain ⟨place, hplace, hopen⟩ := h
  obtain ⟨v, m, hlast, hv⟩ := hw.members
  rw [← he] at hlast
  exact hplace.not_closed hopen hq hv rfl hlast

end Different

section Bracket

variable {fold : Bool} {s : CharSet}

theorem listed_append {cs : List Char} (h : cs ≠ []) (q : List Char) : listed (cs ++ q) = listed cs ++ q := by
  obtain ⟨c, cs, rfl⟩ := List.exists_cons_of_ne_nil h
  rw [listed, listed, List.cons_append, List.head?_cons, List.head?_cons]
  split <;> rfl

theorem exists_body {w : List Char} (h : listed cs = w ++ ']' :: rest) :
    ∃ body, body ≠ [] ∧ cs = body ++ rest ∧ listed body = w ++ [']'] := by
  rw [listed] at h
  split at h
  · next hhead =>
    cases cs with
    | nil => cases hhead
    | cons c cs =>
      obtain rfl : cs = w ++ ']' :: rest := h
      exact ⟨c :: (w ++ [']']), by simp, by simp, if_pos hhead⟩
  · next hhead =>
    subst h
    refine ⟨w ++ [']'], by simp, by simp, if_neg ?_⟩
    rwa [head?_bracket w rest []]

/-- What follows a bracket expression does not change it, unless a class name has been left open and is closed there.
Then there is no bracket expression any more. -/
theorem readBracket_delimited (h : readBracket d fold cs = .ok (s, rest)) :
    ∃ body, cs = body ++ rest ∧ ∀ q,
      (¬ (LeavesNameOpen d (listed body) ∧ ClosesName q) → readBracket d fold (body ++ q) = .ok (s, q)) ∧
        (LeavesNameOpen d (listed body) ∧ ClosesName q → ∃ e, readBracket d fold (body ++ q) = .error e) := by
  rw [readBracket_eq] at h
  split at h
  · cases h
  next items rest' hl =>
  cases h
  obtain ⟨w, he, hw⟩ := SpellsList.of_readList hl
  obtain ⟨body, hne, rfl, hbody⟩ := exists_body he
  have hhead (q : List Char) : (body ++ q).head? = body.head? := List.head?_append_of_ne_nil body hne
  have hlisted (q : List Char) : listed (body ++ q) = w ++ ']' :: q := by
    rw [listed_append hne, hbody, List.append_assoc, List.singleton_append]
  refine ⟨body, rfl, fun q => ⟨?_, ?_⟩⟩
  · intro hq
    have hsame : SpellsList d w items q := hw.replace fun hopen hclose => hq ⟨hbody ▸ hopen, hclose⟩
    rw [readBracket_eq, hlisted, hsame.readList, hhead, hhead]
  · rintro ⟨hopen, hclose⟩
    rw [hbody] at hopen
    rw [readBracket_eq, hlisted]
    split
    · exact ⟨_, rfl⟩
    · next hread =>
      obtain ⟨w', he', hw'⟩ := SpellsList.of_readList hread
      exact absurd he' (hopen.not_list hclose hw')

theorem readBracket_delimited_half :
    ∃ s : CharSet, readBracket .posixExtended false "^[:a]b".toList = .ok (s, ['b']) ∧
      readBracket .posixExtended false ("^[:a]".toList ++ "]:".toList) = .ok (s, "]:".toList) := by
  let s : CharSet := ⟨[.char '[', .char ':', .char 'a'], true, false, false⟩
  have hs : readBracket .posixExtended false "^[:a]b".toList = .ok (s, ['b']) := by decide +kernel
  obtain ⟨body, hbody, hq⟩ := readBracket_delimited hs
  obtain rfl : body = "^[:a]".toList := List.append_cancel_right hbody.symm
  exact ⟨s, hs, (hq "]:".toList).1 fun h => absurd h.2 (by decide)⟩

/-- The name that is closed behind the bracket has a bracket in it. -/
theorem readBracket_name_behind :
    ∃ s : CharSet, readBracket .posixExtended false "[:a]".toList = .ok (s, []) ∧
      readBracket .posixExtended false ("[:a]".toList ++ ":]".toList) =
        .error ⟨.unknownClass (.ofList "a]".toList), "[:a]:]".toList⟩ := by
  let s : CharSet := ⟨[.char '[', .char ':', .char 'a'], false, false, false⟩
  have hs : readBracket .posixExtended false "[:a]".toList = .ok (s, []) := by decide +kernel
  have htext : "[:a]".toList ++ ":]".toList = "[:a]:]".toList := rfl
  have hitems : readItems .posixExtended ('[' :: "[:a]:]".toList) (listed "[:a]:]".toList) =
      .error ⟨.unknownClass (.ofList "a]".toList), "[:a]:]".toList⟩ := rfl
  exact ⟨s, hs, by rw [htext, readBracket_eq, readList_fails hitems]⟩

end Bracket

end DialectRegex
