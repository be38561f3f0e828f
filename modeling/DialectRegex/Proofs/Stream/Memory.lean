import DialectRegex.Dialect.Named
import DialectRegex.Proofs.Matching.Ranges
import DialectRegex.Proofs.Stream.Enumeration

namespace DialectRegex

namespace Source

inductive InMemory (text : List Char) : Source → Prop where
  | text (s : String) (h : s.toList = text) : InMemory text (.text (.ofString s))
  | chars (cs : Array Char) (h : cs.toList = text) : InMemory text (.chars cs)

def still (src : Source) : Coupling Reading Id where
  Joins n Q x y := x src = (.ok y, src) ∧ Q n y
  pure h := ⟨rfl, h⟩
  bind hx hf := by
    obtain ⟨hb, hr⟩ := hf _ _ (Nat.le_refl _) hx.2
    exact ⟨(Reading.bind_apply hx.1).trans hb, hr⟩
  mono hx h := ⟨hx.1, h _ _ (Nat.le_refl _) hx.2⟩

/-- The reference: what is found from the offset on, followed by what is found from its end on, or one character further
if it is empty. -/
inductive Enumerates (src : Source) (r : Regex) (flags : SearchFlags) : Nat → List Match → Prop where
  | nil {offset : Nat} (h : (src.findAt r flags offset).1 = .ok none) : Enumerates src r flags offset []
  | cons {offset : Nat} {m : Match} {ms : List Match} (h : (src.findAt r flags offset).1 = .ok (some m))
      (hrest : Enumerates src r flags (if m.isEmpty then m.stop + 1 else m.stop) ms) :
      Enumerates src r flags offset (m :: ms)

theorem Enumerates.unique {src : Source} {r : Regex} {flags : SearchFlags} {offset : Nat} {ms ms' : List Match}
    (h : src.Enumerates r flags offset ms) (h' : src.Enumerates r flags offset ms') : ms' = ms := by
  induction h generalizing ms' with
  | nil h =>
    cases h' with
    | nil => rfl
    | cons h' => cases h.symm.trans h'
  | cons h _ ih =>
    cases h' with
    | nil h' => cases h.symm.trans h'
    | cons h' hrest =>
      cases h.symm.trans h'
      rw [ih hrest]

section InMemory

variable {text : List Char} {src : Source} {r : Regex} {flags : SearchFlags} {ms : List Match}
  (hs : src.InMemory text)
include hs

theorem InMemory.charAt (i : Nat) : src.charAt i = (.ok text[i]?, src) := by
  cases hs with
  | text s h => exact Prod.ext (congrArg Except.ok (h ▸ Haystack.charAt_ofString s i)) rfl
  | chars cs h => exact Prod.ext (congrArg Except.ok (h ▸ (Array.getElem?_toList).symm)) rfl

theorem InMemory.release (i : Nat) : src.release i = src := by
  cases hs <;> rfl

theorem InMemory.holds : src.Holds ⟨none, text, 0⟩ 0 := by
  cases hs with
  | text s h => exact .text rfl (h ▸ Haystack.charAt_ofString s) (Nat.le_of_eq (h ▸ (Haystack.length_ofString s).symm))
  | chars cs h => exact .chars rfl h

theorem InMemory.findAt (r : Regex) (flags : SearchFlags) (offset : Nat) :
    src.findAt r flags offset = (.ok (r.findAt (m := Id) flags (.ofList text) offset), src) := by
  have hreads : (still src).Reads .unbounded (input src.bound).charAt ((Input.ofList text).upTo src.bound).charAt := by
    intro _ i _
    exact ⟨hs.charAt i, fun _ => trivial⟩
  obtain ⟨hrun, _⟩ := Coupling.findAt_unbounded (n := 0) hreads rfl r flags offset
  rwa [Regex.findAt_upTo (Input.ofList_reads text) hs.holds.length_le] at hrun

variable {source : String} {d : Dialect} {o : Options} (hr : Regex.compile source d o = .ok r)
include hr

theorem InMemory.enumerates_listing {fuel offset : Nat} (hf : text.length + 1 - offset < fuel) :
    src.Enumerates r flags offset (Matches.listing (.ofList text) fuel (.start r offset flags)) := by
  induction fuel generalizing offset with
  | zero => cases hf
  | succ fuel ih =>
    have hrun := congrArg Prod.fst (hs.findAt r flags offset)
    rw [Matches.listing_unknown rfl]
    dsimp only [Matches.start] at hrun ⊢
    cases hfind : (r.findAt flags (.ofList text) offset : Option Match) with
    | none => exact .nil (hrun.trans (congrArg Except.ok hfind))
    | some m =>
      obtain ⟨hle, hlt⟩ := Regex.findAt_resume hr (Input.ofList_reads text) hfind
      have hfuel : text.length + 1 - m.resume < fuel := by omega
      exact .cons (hrun.trans (congrArg Except.ok hfind)) (ih hfuel)

theorem InMemory.findAt_reports {offset : Nat} {m : Match} (h : (src.findAt r flags offset).1 = .ok (some m)) :
    offset ≤ m.start ∧ ∃ t, r.Reports text.length t m := by
  have hread := Input.ofList_reads text
  rw [hs.findAt] at h
  obtain ⟨i, t, hle, hi, ht, rfl⟩ := Regex.findAt_run hread (Except.ok.inj h)
  obtain ⟨hstart, hreports⟩ := Regex.run_reports hr hread hi ht
  exact ⟨hstart ▸ hle, t, hreports⟩

theorem InMemory.findAt_range {offset : Nat} {m : Match} (h : (src.findAt r flags offset).1 = .ok (some m)) :
    offset ≤ m.start ∧ m.start ≤ m.stop ∧ m.stop ≤ text.length := by
  obtain ⟨hle, t, hm⟩ := hs.findAt_reports hr h
  exact ⟨hle, hm.start_le, hm.stop_le⟩

theorem Enumerates.ordered {offset : Nat} (h : src.Enumerates r flags offset ms) :
    (∀ m ∈ ms, offset ≤ m.start ∧ m.start ≤ m.stop ∧ m.stop ≤ text.length) ∧
      ms.Pairwise (fun m m' => m.stop ≤ m'.start ∧ (m.start = m.stop → m.stop < m'.start)) ∧
      ms.length ≤ text.length + 1 - offset := by
  induction h with
  | nil => simp
  | @cons offset m ms h _ ih =>
    -- The other matches begin where the search after this one does, or later.
    rw [← Match.resume_eq] at ih
    obtain ⟨hwithin, hpairs, hlength⟩ := ih
    have hm := hs.findAt_range hr h
    have hstop := m.stop_le_resume
    have hempty := m.stop_lt_resume
    refine ⟨?_, ?_, ?_⟩
    · intro m' hm'
      rcases List.mem_cons.mp hm' with rfl | hm'
      · exact hm
      · have := hwithin m' hm'
        omega
    · refine List.pairwise_cons.mpr ⟨?_, hpairs⟩
      intro m' hm'
      have := hwithin m' hm'
      omega
    · rw [List.length_cons]
      omega

end InMemory

end Source

theorem Regex.matches_in_order {r : Regex} {source : String} {d : Dialect} {o : Options}
    (hr : compile source d o = .ok r) {text : List Char} {src : Source} (hs : src.InMemory text) (offset : Nat)
    (flags : SearchFlags) :
    let it := Matches.start r offset flags
    ∃ found, (src.rest it).1 = .ok found ∧
      (∀ k, ((src.proceed k it).1.next (src.proceed k it).2).1 = .ok found[k]?) ∧
      (∀ m ∈ found, offset ≤ m.start ∧ m.start ≤ m.stop ∧ m.stop ≤ text.length) ∧
      found.Pairwise (fun m m' => m.stop ≤ m'.start ∧ (m.start = m.stop → m.stop < m'.start)) ∧
      found.length ≤ text.length + 1 - offset ∧ (text.length < offset → found = []) := by
  intro it
  have hready : src.Ready r none text it := ⟨rfl, .inl rfl, 0, 0, Nat.zero_le _, hs.holds⟩
  have hfound : src.Enumerates r flags offset (Matches.listing (.ofList text) (it.fuel text.length) it) :=
    hs.enumerates_listing hr (Nat.lt_succ_self _)
  obtain ⟨hwithin, hpairs, hlength⟩ := hfound.ordered hs hr
  refine ⟨_, hready.rest hr rfl, ?_, hwithin, hpairs, hlength, ?_⟩
  · intro k
    rw [← hready.next_proceed hr (fun _ => Nat.le_refl _) k]
    obtain ⟨src', hnext, _⟩ := (hready.proceed hr k).next hr rfl
    exact congrArg Prod.fst hnext
  · intro hpast
    apply List.eq_nil_of_length_eq_zero
    omega

theorem Regex.matches_in_order_nullable :
    ∃ r : Regex, compile "(?=(a*))(a?)(b?)\\3" .perl5 {} = .ok r ∧
      ∃ src : Source, src.InMemory "xabba".toList ∧
        ∃ found, (src.rest (Matches.start r 1 {})).1 = .ok found ∧
          found.Pairwise (fun m m' => m.stop ≤ m'.start ∧ (m.start = m.stop → m.stop < m'.start)) ∧
          found.map (fun m => (m.start, m.stop)) = [(1, 4), (4, 5), (5, 5)] := by
  let word (cs : List Char) : Pattern := .test (.literal cs false)
  let ahead : Pattern := .look false (.group (some 1) (.repeated (word ['a']) 0 none true))
  let body : Pattern := .seq ahead (.seq (.group (some 2) (.repeated (word ['a']) 0 (some 1) true))
    (.seq (.group (some 3) (.repeated (word ['b']) 0 (some 1) true)) (.test (.backref 3 false))))
  let r : Regex := ⟨"(?=(a*))(a?)(b?)\\3", .perl5, {}, body, 4, false, rfl⟩
  have hr : compile "(?=(a*))(a?)(b?)\\3" .perl5 {} = .ok r := by cbv
  have hs : (Source.chars "xabba".toList.toArray).InMemory "xabba".toList := .chars _ rfl
  obtain ⟨found, hrest, _, _, hpairs, _⟩ := matches_in_order hr hs 1 {}
  have hspans : (((Source.chars "xabba".toList.toArray).rest (Matches.start r 1 {})).1.map
      (List.map fun m => (m.start, m.stop))) = .ok [(1, 4), (4, 5), (5, 5)] := by decide +kernel
  rw [hrest] at hspans
  exact ⟨r, hr, _, hs, found, hrest, hpairs, Except.ok.inj hspans⟩

end DialectRegex
