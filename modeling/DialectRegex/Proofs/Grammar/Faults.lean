import DialectRegex.Dialect.Named
import DialectRegex.Proofs.Grammar.Lexemes
import DialectRegex.Proofs.Grammar.Members
import DialectRegex.Regex
import Mathlib.Data.List.TakeWhile

namespace DialectRegex

open Lexeme

namespace Dialect

def Spells (d : Dialect) (op : Operator) (text after : List Char) : Prop :=
  ∃ n, d.operator? text = some (op, n) ∧ text.drop n = after

inductive Cause (d : Dialect) (pattern : List Char) : Flaw → List Char → Prop where
  | unmatchedOpen {text after : List Char} (reached : d.Reaches pattern text)
      (hop : d.Spells .groupOpen text after)
      (hopen : after = ['?'] ∧ d.hasGroupFlags = true ∨ ∃ depth, d.OpenAt text [] depth) :
      Cause d pattern .unmatchedOpen text
  | unterminatedComment {text body : List Char} (reached : d.Reaches pattern text)
      (hop : d.Spells .groupOpen text ('?' :: '#' :: body)) (hd : d.has .comments = true) (hbody : ')' ∉ body) :
      Cause d pattern .unterminatedComment text
  | unmatchedClose {text after : List Char} {ls : List Lexeme} (hscans : d.Scans pattern ls text)
      (hop : d.Spells .groupClose text after) (hdepth : depthAfter 0 ls = some 0) :
      Cause d pattern .unmatchedClose text
  | unterminatedList {cs rest : List Char} (reached : d.Reaches pattern ('[' :: cs))
      (hmembers : Members d (listed cs) rest) (hend : rest = [] ∨ rest = ['\\'] ∧ d.escapesLists = true) :
      Cause d pattern .unterminatedList ('[' :: cs)
  | malformedInterval {text after : List Char} (reached : d.Reaches pattern text)
      (hop : d.Spells .intervalOpen text after) : Cause d pattern .malformedInterval text
  | reversedBounds {text after mid rest : List Char} {lo hi : Nat} (reached : d.Reaches pattern text)
      (hop : d.Spells .intervalOpen text after) (hlo : readBound after = some (some lo, ',' :: mid))
      (hhi : readBound mid = some (some hi, rest)) (horder : hi < lo) : Cause d pattern (.reversedBounds lo hi) text
  | unknownClass {cs name after : List Char} (reached : d.Reaches pattern ('[' :: cs))
      (hmembers : Members d (listed cs) ('[' :: ':' :: name ++ ':' :: ']' :: after))
      (hd : d.has .charClasses = true) (hname : CharClass.ofName? name = none) :
      Cause d pattern (.unknownClass (.ofList name)) ('[' :: ':' :: name ++ ':' :: ']' :: after)
  | trailingBackslash (reached : d.Reaches pattern ['\\']) : Cause d pattern .trailingBackslash ['\\']
  | reversedRange {cs text : List Char} {lo hi : Char} (reached : d.Reaches pattern ('[' :: cs))
      (hitems : Items d (listed cs) text) (hrange : ReversedRange d text lo hi) :
      Cause d pattern (.reversedRange lo hi) text
  | nothingToRepeat {text after : List Char} {op : Operator} (reached : d.Reaches pattern text)
      (hop : d.Spells op text after) (hrepeats : op ∈ [.star, .plus, .question, .intervalOpen]) :
      Cause d pattern .nothingToRepeat text
  | undefinedGroup {c : Char} {rest : List Char} {ls : List Lexeme} {g : Nat}
      (hscans : d.Scans pattern ls ('\\' :: c :: rest)) (hdigit : Text.digit? c = some g) (hlt : captures ls < g) :
      Cause d pattern (.undefinedGroup g) ('\\' :: c :: rest)
  | unknownGroupFlag {text rest : List Char} {c : Char} (reached : d.Reaches pattern text)
      (hop : d.Spells .groupOpen text ('?' :: c :: rest)) (hd : d.hasGroupFlags = true) :
      Cause d pattern (.unknownGroupFlag c) (c :: rest)

variable {d : Dialect} {o : Options} {p : Progress} {pattern text after cs rest : List Char} {op : Operator} {n : Nat}
  {f : Flaw} {e : Fault}

theorem Spells.ne_nil (h : d.Spells op text after) : text ≠ [] := by
  rintro rfl
  obtain ⟨n, hop, _⟩ := h
  cases hop

theorem Cause.ne_nil (h : d.Cause pattern f text) : text ≠ [] := by
  cases h with
  | unmatchedOpen _ hop => exact hop.ne_nil
  | unterminatedComment _ hop => exact hop.ne_nil
  | unmatchedClose _ hop => exact hop.ne_nil
  | malformedInterval _ hop => exact hop.ne_nil
  | reversedBounds _ hop => exact hop.ne_nil
  | nothingToRepeat _ hop => exact hop.ne_nil
  | reversedRange _ _ hrange =>
    obtain ⟨w, w', rest, rfl, _⟩ := hrange
    simp
  | unterminatedList => exact List.cons_ne_nil _ _
  | unknownClass => exact List.cons_ne_nil _ _
  | trailingBackslash => exact List.cons_ne_nil _ _
  | undefinedGroup => exact List.cons_ne_nil _ _
  | unknownGroupFlag => exact List.cons_ne_nil _ _

theorem spells_of_opening {opens : Bool} (h : d.lexeme? text = some (.opening opens, rest)) :
    ∃ after, d.Spells .groupOpen text after := by
  rw [lexeme?] at h
  split at h
  · next n hop => exact ⟨_, n, hop, rfl⟩
  · cases h
  · cases h
  · obtain ⟨_, _, he⟩ := Option.map_eq_some_iff.mp h
    cases he

theorem readInterval_eq_error (h : readInterval d cs = .error f) :
    f = .malformedInterval ∨ ∃ lo hi mid rest, readBound cs = some (some lo, ',' :: mid) ∧
      readBound mid = some (some hi, rest) ∧ hi < lo ∧ f = .reversedBounds lo hi := by
  rw [readInterval.eq_def] at h
  split at h
  · cases h
    exact .inl rfl
  · next lo? mid hlo =>
    split at h
    · cases h
      exact .inl rfl
    · next hhi =>
      split at h
      · cases h
        exact .inl rfl
      · dsimp only at h
        split at h
        · cases h
        · split at h
          · next hlt =>
            cases h
            cases lo? with
            | none => exact absurd hlt (Nat.not_lt_zero _)
            | some lo => exact .inr ⟨lo, _, mid, _, hlo, hhi, hlt, rfl⟩
          · cases h
  · split at h
    · cases h
      exact .inl rfl
    · cases h

namespace Traced

theorem reaches (h : d.Traced pattern p) : d.Reaches pattern p.rest := by
  obtain ⟨ls, hscans, _⟩ := h.scans
  exact ⟨ls, hscans⟩

theorem openGroup_cause (h : d.Traced pattern p) (hop : d.operator? p.rest = some (.groupOpen, n))
    (he : d.openGroup p (p.rest.drop n) = .error e) : d.Cause pattern e.flaw e.rest := by
  have hspells : d.Spells .groupOpen p.rest (p.rest.drop n) := ⟨n, hop, rfl⟩
  generalize p.rest.drop n = after at he hspells
  rw [openGroup.eq_def] at he
  split at he
  · split at he
    · next hflags =>
      split at he
      · cases he
        exact .unmatchedOpen h.reaches hspells (.inl ⟨rfl, hflags⟩)
      · split at he
        · cases he
        split at he
        · cases he
        split at he
        · cases he
        split at he
        · next hc =>
          obtain ⟨rfl, hcomments⟩ := hc
          split at he
          · next hdrop =>
            cases he
            refine .unterminatedComment h.reaches hspells hcomments fun hmem => ?_
            have hne := List.dropWhile_eq_nil_iff.mp hdrop _ hmem
            exact absurd hne (by decide)
          · cases he
        · cases he
          exact .unknownGroupFlag h.reaches hspells hflags
    · cases he
  · cases he

theorem closeGroup_cause (h : d.Traced pattern p) (hop : d.operator? p.rest = some (.groupClose, n))
    (he : d.closeGroup o p (p.rest.drop n) = .error e) : d.Cause pattern e.flaw e.rest := by
  obtain ⟨ls, hscans, _, hdepth⟩ := h.scans
  rw [closeGroup.eq_def] at he
  split at he
  · cases he
  · next houter =>
    split at he
    · cases he
    · next hd =>
      cases he
      rw [houter] at hdepth
      exact .unmatchedClose hscans ⟨n, hop, rfl⟩ (hdepth (Bool.not_eq_true _ ▸ hd))

theorem repetition_cause {c : Char} {bounds : Except Flaw (Bounds × List Char)} (h : d.Traced pattern p)
    (hop : d.Spells op p.rest after) (hrepeats : op ∈ [.star, .plus, .question, .intervalOpen])
    (hbounds : ∀ f, bounds = .error f → d.Cause pattern f p.rest)
    (he : d.repetition o p c after bounds = .error e) : d.Cause pattern e.flaw e.rest := by
  rw [repetition.eq_def] at he
  split at he
  · split at he
    · next f =>
      cases he
      exact hbounds f rfl
    · cases he
  · split at he
    · cases he
      exact .nothingToRepeat h.reaches hop hrepeats
    · cases he

theorem interval_cause (h : d.Traced pattern p) (hop : d.Spells .intervalOpen p.rest after)
    (he : readInterval d after = .error f) : d.Cause pattern f p.rest := by
  rcases readInterval_eq_error he with rfl | ⟨lo, hi, mid, rest, hlo, hhi, horder, rfl⟩
  · exact .malformedInterval h.reaches hop
  · exact .reversedBounds h.reaches hop hlo hhi horder

theorem applyOperator_cause (h : d.Traced pattern p) (hop : d.operator? p.rest = some (op, n))
    (he : d.applyOperator o p (p.rest.drop n) op = .error e) : d.Cause pattern e.flaw e.rest := by
  have hspells : d.Spells op p.rest (p.rest.drop n) := ⟨n, hop, rfl⟩
  have hfixed (b : Bounds × List Char) (f : Flaw) (hf : (.ok b : Except Flaw _) = .error f) :
      d.Cause pattern f p.rest := by
    cases hf
  rw [applyOperator.eq_def] at he
  cases op with
  | bar => cases he
  | groupOpen => exact h.openGroup_cause hop he
  | groupClose => exact h.closeGroup_cause hop he
  | star => exact h.repetition_cause hspells (by decide) (hfixed _) he
  | plus => exact h.repetition_cause hspells (by decide) (hfixed _) he
  | question => exact h.repetition_cause hspells (by decide) (hfixed _) he
  | intervalOpen => exact h.repetition_cause hspells (by decide) (fun _ => h.interval_cause hspells) he

theorem bracket_cause {fold : Bool} (h : d.Traced pattern p) (hr : p.rest = '[' :: cs)
    (he : readBracket d fold cs = .error e) : d.Cause pattern e.flaw e.rest := by
  have hreached : d.Reaches pattern ('[' :: cs) := hr ▸ h.reaches
  rw [readBracket_eq] at he
  split at he
  · next hl =>
    cases he
    obtain ⟨text, hitems, hfails⟩ := readList_eq_error hl
    rcases readItems_eq_error hfails with ⟨place, hmembers, hm⟩ | ⟨lo, hi, hrange, rfl⟩
    · have hplace := hitems.members.trans hmembers
      rcases readMember_eq_error hm with ⟨rfl, hend⟩ | ⟨name, after, hd, rfl, hname, rfl⟩
      · exact .unterminatedList hreached hplace hend
      · exact .unknownClass hreached hplace hd hname
    · exact .reversedRange hreached hitems hrange
  · cases he

theorem escape_cause (h : d.Traced pattern p) (hr : p.rest = '\\' :: cs) (he : d.escape o p cs = .error e) :
    d.Cause pattern e.flaw e.rest := by
  cases cs with
  | nil =>
    cases he
    rw [hr]
    exact .trailingBackslash (hr ▸ h.reaches)
  | cons c rest =>
    obtain ⟨ls, hscans, hgroups, _⟩ := h.scans
    rw [escape] at he
    split at he
    · next r hback =>
      rw [backref.eq_def] at hback
      split at hback
      · cases hback
      next g hdigit =>
      split at hback
      · cases hback
      split at hback
      · next hle =>
        cases hback
        cases he
        rw [hr] at hscans ⊢
        exact .undefinedGroup hscans hdigit (by omega)
      · cases hback
        cases he
    · split at he
      · cases he
      · cases he

theorem atom_cause {c : Char} (h : d.Traced pattern p) (hr : p.rest = c :: rest)
    (he : d.atom o p c rest = .error e) : d.Cause pattern e.flaw e.rest := by
  rw [atom.eq_def] at he
  split at he
  · cases he
  split at he
  · cases he
  split at he
  · cases he
  split at he
  · next hc =>
    subst hc
    split at he
    · next hread =>
      cases he
      exact h.bracket_cause hr hread
    · cases he
  split at he
  · next hc =>
    subst hc
    exact h.escape_cause hr he
  · cases he

theorem step_cause {c : Char} (h : d.Traced pattern p) (hr : p.rest = c :: rest)
    (he : d.step o p c rest = .error e) : d.Cause pattern e.flaw e.rest := by
  rw [Dialect.step, ← hr] at he
  split at he
  · next hop => exact h.applyOperator_cause hop he
  · exact h.atom_cause hr he

theorem end_cause (h : d.Traced pattern p) (hr : p.rest = []) (ho : p.outer ≠ []) :
    d.Cause pattern .unmatchedOpen p.frame.opened := by
  -- The group to report is the innermost one: no other is open inside it.
  obtain ⟨g, outer, houter⟩ := List.exists_cons_of_ne_nil ho
  have hfirst : (openings p.frame p.outer)[0]? = some p.frame.opened := by rw [houter, openings, List.getElem?_cons_zero]
  obtain ⟨hreached, hopen⟩ := h.opened 0 _ hfirst
  rw [hr] at hopen
  obtain ⟨opens, inner, ls, hlex, hinner⟩ := hopen
  obtain ⟨after, hspells⟩ := spells_of_opening hlex
  exact .unmatchedOpen hreached hspells (.inr ⟨0, opens, inner, ls, hlex, hinner⟩)

end Traced

theorem finish_cause (h : d.finish o (.start pattern) = .error e) :
    e.rest <:+ pattern ∧ d.Cause pattern e.flaw e.rest := by
  obtain ⟨q, hq, hend⟩ := finish_stops d o (.start pattern)
  have hstart : Along pattern (.start pattern) := ⟨List.suffix_rfl, List.forall_mem_singleton.mpr List.suffix_rfl⟩
  have halong := hstart.run hq
  have htraced := (Traced.start d pattern).run hq
  rw [h] at hend
  rcases hend with ⟨hr, ho, rfl⟩ | ⟨c, rest, hr, hs⟩
  · exact ⟨halong.opened q.frame List.mem_cons_self, htraced.end_cause hr ho⟩
  · have hstays := step_stays (d := d) (o := o) hr
    rw [hs] at hstays
    exact ⟨hstays.trans halong.rest, htraced.step_cause hr hs⟩

end Dialect

theorem Fault.locate_pos {e : Fault} {pattern : List Char} (h : e.rest <:+ pattern) (hne : e.rest ≠ []) :
    (e.locate pattern).pos < pattern.length ∧ pattern.drop (e.locate pattern).pos = e.rest := by
  refine ⟨?_, (List.suffix_iff_eq_drop.mp h).symm⟩
  have hpos := List.length_pos_iff.mpr hne
  have hle := h.length_le
  change pattern.length - e.rest.length < pattern.length
  omega

namespace Regex

variable {source : String} {d : Dialect} {o : Options} {e : PatternError}

theorem compile_error_cause (h : compile source d o = .error e) :
    e.pos < source.toList.length ∧ d.Cause source.toList e.flaw (source.toList.drop e.pos) := by
  rw [compile, DialectRegex.compile] at h
  split at h
  · next hc =>
    split at hc
    · next fault hf =>
      cases hc
      cases h
      obtain ⟨hsuffix, hcause⟩ := Dialect.finish_cause hf
      obtain ⟨hlt, hdrop⟩ := Fault.locate_pos hsuffix hcause.ne_nil
      rw [hdrop]
      exact ⟨hlt, hcause⟩
    · cases hc
  · cases h

theorem compile_error_cause_unmatched :
    compile "a(b\\(c(?:d)" .perl5 {} = .error ⟨.unmatchedOpen, 1⟩ ∧
      Dialect.perl5.Cause "a(b\\(c(?:d)".toList .unmatchedOpen "(b\\(c(?:d)".toList := by
  have h : compile "a(b\\(c(?:d)" .perl5 {} = .error ⟨.unmatchedOpen, 1⟩ := by cbv
  exact ⟨h, (compile_error_cause h).2⟩

end Regex

end DialectRegex
