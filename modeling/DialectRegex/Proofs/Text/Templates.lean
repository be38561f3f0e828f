import DialectRegex.Proofs.Text.Slices
import DialectRegex.Template

namespace DialectRegex

def Match.groupChars (text : List Char) (m : Match) (g : Nat) : List Char :=
  ((m.group? g).map fun (start, stop) => text.extract start stop).getD []

inductive Expansion (text : List Char) (m : Match) : List Char → List Char → Prop where
  | nil : Expansion text m [] []
  | char {c : Char} {cs e : List Char} (hc : c ≠ '$') (h : Expansion text m cs e) : Expansion text m (c :: cs) (c :: e)
  | dollar {cs e : List Char} (h : Expansion text m cs e) : Expansion text m ('$' :: '$' :: cs) ('$' :: e)
  | group {c : Char} {cs e : List Char} (hc : c.isDigit) (h : Expansion text m cs e) :
      Expansion text m ('$' :: c :: cs) (m.groupChars text (c.toNat - '0'.toNat) ++ e)
  | lone {cs e : List Char} (hc : ∀ c ∈ cs.head?, c ≠ '$' ∧ c.isDigit = false) (h : Expansion text m cs e) :
      Expansion text m ('$' :: cs) ('$' :: e)

namespace Template

def expandPart? (h : Haystack) (m : Match) : TemplatePart → Option String
  | .char c => some c.toString
  | .group g =>
    match m.group? g with
    | some (start, stop) => h.slice? start stop
    | none => some ""

def expand? (h : Haystack) (m : Match) (t : Template) : Option String :=
  t.foldlM (fun s p => (expandPart? h m p).map (s ++ ·)) ""

def chars (text : List Char) (m : Match) : TemplatePart → List Char
  | .char c => [c]
  | .group g => m.groupChars text g

def escape (cs : List Char) : List Char := cs.flatMap fun c => if c = '$' then ['$', '$'] else [c]

theorem ofList_char {c : Char} (hc : c ≠ '$') (cs : List Char) : ofList (c :: cs) = .char c :: ofList cs := by
  rw [ofList]
  all_goals simp_all

theorem ofList_group {c : Char} (hc : c.isDigit) (cs : List Char) :
    ofList ('$' :: c :: cs) = .group (c.toNat - '0'.toNat) :: ofList cs := by
  have hne : c ≠ '$' := by
    rintro rfl
    exact absurd hc (by decide)
  rw [ofList, Text.digit?, if_pos hc]
  exact hne

theorem ofList_lone {cs : List Char} (hc : ∀ c ∈ cs.head?, c ≠ '$' ∧ c.isDigit = false) :
    ofList ('$' :: cs) = .char '$' :: ofList cs := by
  cases cs with
  | nil => rfl
  | cons c cs =>
    obtain ⟨hne, hd⟩ := hc c rfl
    rw [ofList, Text.digit?, if_neg (by simp [hd])]
    exact hne

variable {text : List Char} {m : Match}

theorem expansion_iff {cs e : List Char} : Expansion text m cs e ↔ e = (ofList cs).flatMap (chars text m) := by
  constructor
  · intro h
    induction h with
    | nil => rfl
    | char hc h ih => rw [ofList_char hc, List.flatMap_cons, ih]; rfl
    | dollar h ih => rw [ofList, List.flatMap_cons, ih]; rfl
    | group hc h ih => rw [ofList_group hc, List.flatMap_cons, ih]; rfl
    | lone hc h ih => rw [ofList_lone hc, List.flatMap_cons, ih]; rfl
  · rintro rfl
    fun_induction ofList cs with
    | case1 => exact .nil
    | case2 cs ih => exact .dollar ih
    | case3 c cs hne g hg ih =>
      rw [Text.digit?, Option.ite_none_right_eq_some] at hg
      obtain ⟨hd, hg⟩ := hg
      cases hg
      exact .group hd ih
    | case4 c cs hne hg ih =>
      have hd : c.isDigit = false := by
        simpa [Text.digit?] using hg
      refine .lone ?_ ih
      intro b hb
      obtain rfl := Option.mem_some_iff.mp hb
      exact ⟨hne, hd⟩
    | case5 c cs hdollar hlone ih =>
      by_cases hc : c = '$'
      · obtain rfl : cs = [] := by
          cases cs with
          | nil => rfl
          | cons b cs => exact (hlone b cs hc rfl).elim
        subst hc
        exact .lone (fun _ h => by cases h) ih
      · exact .char hc ih

theorem ofList_escape (cs : List Char) : ofList (escape cs) = cs.map .char := by
  induction cs with
  | nil => rfl
  | cons c cs ih =>
    rw [escape, List.flatMap_cons, ← escape, List.map_cons]
    split
    · next hc =>
      rw [List.cons_append, List.cons_append, ofList, List.nil_append, ih, hc]
    · next hc => rw [List.cons_append, List.nil_append, ofList_char hc, ih]

theorem expansion_escape (cs e : List Char) : Expansion text m (escape cs) e ↔ e = cs := by
  rw [expansion_iff, ofList_escape, List.flatMap_map]
  exact Eq.congr_right (List.flatMap_singleton' cs)

theorem expansion_zero {e : List Char} {a b : Nat} (h : m.group? 0 = some (a, b)) :
    Expansion text m ['$', '0'] e ↔ e = text.extract a b := by
  have hparts : ofList ['$', '0'] = [.group 0] := ofList_group (by decide) []
  rw [expansion_iff, hparts, List.flatMap_singleton, chars, Match.groupChars, h]
  rfl

section Checked

variable {s : String} (hm : ∀ g a b, m.group? g = some (a, b) → a ≤ b)
include hm

theorem expandPart?_ofString (p : TemplatePart) :
    expandPart? (.ofString s) m p = some (.ofList (chars s.toList m p)) ∧
      expandPart (.ofString s) m p = .ofList (chars s.toList m p) := by
  cases p with
  | char c => exact ⟨rfl, rfl⟩
  | group g =>
    rw [expandPart?, expandPart, Match.groupText?, chars, Match.groupChars]
    cases hg : m.group? g with
    | none => exact ⟨rfl, rfl⟩
    | some range =>
      obtain ⟨a, b⟩ := range
      have hle := hm g a b hg
      exact ⟨Haystack.slice?_ofString s hle, Haystack.slice_ofString s hle⟩

theorem expand?_ofString (t : Template) :
    expand? (.ofString s) m t = some (.ofList (t.flatMap (chars s.toList m))) ∧
      expand (.ofString s) m t = .ofList (t.flatMap (chars s.toList m)) := by
  rw [expand?, expand]
  suffices h : ∀ out : String,
      t.foldlM (fun s' p => (expandPart? (.ofString s) m p).map (s' ++ ·)) out =
          some (out ++ .ofList (t.flatMap (chars s.toList m))) ∧
        t.foldl (fun s' p => s' ++ expandPart (.ofString s) m p) out =
          out ++ .ofList (t.flatMap (chars s.toList m)) by
    simpa using h ""
  induction t with
  | nil => simp
  | cons p t ih =>
    intro out
    obtain ⟨hpart?, hpart⟩ := expandPart?_ofString (s := s) hm p
    rw [List.foldlM_cons, List.foldl_cons, hpart?, hpart, List.flatMap_cons, String.ofList_append,
      ← String.append_assoc]
    exact ih _

end Checked

end Template

end DialectRegex
