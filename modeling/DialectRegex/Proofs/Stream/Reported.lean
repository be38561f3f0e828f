import DialectRegex.Proofs.Matching.Guarded
import DialectRegex.Proofs.Matching.Limits
import DialectRegex.Proofs.Matching.Ranges
import DialectRegex.Proofs.Stream.Contents
import DialectRegex.Source

namespace DialectRegex

inductive Source.Has (text : List Char) : Source → Prop where
  | text (s : String) (h : s.toList = text) : Has text (.text (.ofString s))
  | chars (cs : Array Char) (h : cs.toList = text) : Has text (.chars cs)
  | stream {s : Stream} (h : s.Has text) : Has text (.stream s)

theorem Source.Has.length_le {text : List Char} {src : Source} (h : src.Has text) : text.length ≤ src.bound := by
  cases h with
  | text s h => exact h ▸ Nat.le_of_eq (Haystack.length_ofString s).symm
  | chars cs h => exact h ▸ Nat.le_refl _
  | stream h => exact h.bounded

theorem Source.Has.charAt {text : List Char} {src : Source} (h : src.Has text) (i : Nat) :
    (src.charAt i).2.Has text ∧ ∀ c, (src.charAt i).1 = .ok c → c = text[i]? := by
  cases h with
  | text s h =>
    refine ⟨.text s h, ?_⟩
    rintro _ ⟨⟩
    exact h ▸ Haystack.charAt_ofString s i
  | chars cs h =>
    refine ⟨.chars cs h, ?_⟩
    rintro _ ⟨⟩
    rw [← h, Array.getElem?_toList]
  | @stream s h =>
    obtain ⟨hnext, hchar⟩ := h.charAt i
    refine ⟨.stream hnext, ?_⟩
    intro c hc
    change (s.charAt i).1 = .ok c at hc
    rcases hchar with hchar | hchar
    · rw [hchar] at hc
      cases hc
      rfl
    · rw [hchar] at hc
      cases hc

theorem Reading.bind_eq_ok {α β : Type} {x : Reading α} {f : α → Reading β} {src src' : Source} {b : β}
    (h : (x >>= f) src = (.ok b, src')) : ∃ a mid, x src = (.ok a, mid) ∧ f a mid = (.ok b, src') := by
  cases hx : x src with
  | mk result mid =>
    have hbind : (x >>= f) src = (ExceptT.bindCont f result : StateM Source _) mid := by
      change (ExceptT.bindCont f (x src).1 : StateM Source _) (x src).2 = _
      rw [hx]
    rw [hbind] at h
    cases result with
    | error e => cases h
    | ok a => exact ⟨a, mid, rfl, h⟩

def agreed (text : List Char) : Coupling Reading Id where
  Joins n Q x y := ∀ src : Source, src.Has text → ∀ a src', x src = (.ok a, src') → a = y ∧ Q n a ∧ src'.Has text
  pure ha := by
    rintro src hs _ _ ⟨⟩
    exact ⟨rfl, ha, hs⟩
  bind {α β n Q R x y f g} hx hf := by
    intro src hs b src' hb
    obtain ⟨a, mid, ha, hb⟩ := Reading.bind_eq_ok hb
    obtain ⟨rfl, hq, hmid⟩ := hx src hs a mid ha
    exact hf n a (Nat.le_refl n) hq mid hmid b src' hb
  mono {α n Q R x y} hx h := by
    intro src hs a src' ha
    obtain ⟨rfl, hq, hs'⟩ := hx src hs a src' ha
    exact ⟨rfl, h n a (Nat.le_refl n) hq, hs'⟩

theorem agreed_reads (text : List Char) (limit : Nat) :
    (agreed text).Reads .unbounded (Source.input limit).charAt ((Input.ofList text).upTo limit).charAt := by
  intro _ i _ src hs c src' hc
  obtain ⟨hnext, hchar⟩ := hs.charAt i
  have hrun : src.charAt i = (.ok c, src') := hc
  rw [hrun] at hnext hchar
  exact ⟨hchar c rfl, fun _ => trivial, hnext⟩

namespace Source

variable {text : List Char} {src : Source} {found : Option Match}

theorem Has.matchAt_eq (h : src.Has text) (r : Regex) (flags : SearchFlags) (offset : Nat)
    (hm : (src.matchAt r flags offset).1 = .ok found) : r.matchAt (m := Id) flags (.ofList text) offset = found := by
  have hagreed : (agreed text).Joins 0 (fun _ _ => True) (r.matchAt flags (input src.bound) offset)
      (r.matchAt flags ((Input.ofList text).upTo src.bound) offset) :=
    Coupling.matchAt (agreed_reads text src.bound) rfl r flags trivial
  rw [Regex.matchAt_upTo (Input.ofList_reads text) h.length_le] at hagreed
  exact (hagreed src h found _ (Prod.ext hm rfl)).1.symm

theorem Has.findAt_eq (h : src.Has text) (r : Regex) (flags : SearchFlags) (offset : Nat)
    (hm : (src.findAt r flags offset).1 = .ok found) : r.findAt (m := Id) flags (.ofList text) offset = found := by
  have hagreed : (agreed text).Joins 0 (fun _ _ => True) (r.findAt flags (input src.bound) offset)
      (r.findAt flags ((Input.ofList text).upTo src.bound) offset) :=
    Coupling.findAt_unbounded (agreed_reads text src.bound) rfl r flags offset
  rw [Regex.findAt_upTo (Input.ofList_reads text) h.length_le] at hagreed
  exact (hagreed src h found _ (Prod.ext hm rfl)).1.symm

end Source

namespace Regex

variable {r : Regex} {source : String} {d : Dialect} {o : Options} {text : List Char} {src : Source}

/-- Every match lies in the text, not before the offset, with all its groups in order, and those outside lookaheads
inside the match. Nothing that the matcher takes for granted on the way fails to hold. -/
theorem reported_in_range (hr : compile source d o = .ok r) (hs : src.Has text) (flags : SearchFlags) (offset : Nat) :
    (∀ m, (src.matchAt r flags offset).1 = .ok (some m) → m.start = offset) ∧
      (∀ m, (src.matchAt r flags offset).1 = .ok (some m) ∨ (src.findAt r flags offset).1 = .ok (some m) →
        offset ≤ m.start ∧ ∃ t, (r.run r.whole flags (.ofList text) offset m.start : Option State) = some t ∧
          r.Reports text.length t m) ∧
      r.matchAtGuarded flags (Source.input src.bound).guarded offset =
        .lift (r.matchAt flags (Source.input src.bound) offset) ∧
      r.findAtGuarded flags (Source.input src.bound).guarded offset =
        .lift (r.findAt flags (Source.input src.bound) offset) := by
  have hread := Input.ofList_reads text
  have hmatch (m : Match) (hm : (src.matchAt r flags offset).1 = .ok (some m)) :
      m.start = offset ∧ ∃ t, (r.run r.whole flags (.ofList text) offset offset : Option State) = some t ∧
        r.Reports text.length t m := by
    obtain ⟨hle, t, ht, rfl⟩ := matchAt_run hread (hs.matchAt_eq r flags offset hm)
    obtain ⟨hstart, hreports⟩ := run_reports hr hread hle ht
    exact ⟨hstart, t, ht, hreports⟩
  refine ⟨fun m hm => (hmatch m hm).1, ?_, guarded_eq hr flags (Source.input src.bound) offset⟩
  rintro m (hm | hm)
  · obtain ⟨hstart, hreports⟩ := hmatch m hm
    rw [hstart]
    exact ⟨Nat.le_refl offset, hreports⟩
  · obtain ⟨i, t, hle, hi, ht, rfl⟩ := findAt_run hread (hs.findAt_eq r flags offset hm)
    obtain ⟨hstart, hreports⟩ := run_reports hr hread hi ht
    rw [hstart]
    exact ⟨hle, t, ht, hreports⟩

theorem reported_in_range_lookahead :
    ∃ (r : Regex) (src : Source) (m : Match) (t : State), compile "(?=(a+b))(a)\\2" .perl5 {} = .ok r ∧
      src.Has "xaab".toList ∧ (src.findAt r {} 1).1 = .ok (some m) ∧ r.Reports 4 t m ∧ m.stop = 3 ∧
      t.captures[1]? = some ⟨some 1, some 4⟩ ∧ 1 ∈ r.body.lookNumbers ∧ t.captures[2]? = some ⟨some 1, some 2⟩ := by
  let word (cs : List Char) : Pattern := .test (.literal cs false)
  let ahead : Pattern := .look false (.group (some 1) (.seq (.repeated (word ['a']) 1 none true) (word ['b'])))
  let body : Pattern := .seq ahead (.seq (.group (some 2) (word ['a'])) (.test (.backref 2 false)))
  let r : Regex := ⟨"(?=(a+b))(a)\\2", .perl5, {}, body, 3, false, rfl⟩
  let ds : List Delivery :=
    [.bytes [120, 97], .interrupted, .bytes [97, 98, 226], .failed ⟨⟨"BrokenPipe", by decide⟩, ""⟩, .bytes [97]]
  let src : Source := .stream (((Stream.ofDeliveries ds).charAt 1).2.release 1)
  let m : Match := ⟨1, 3, [some (1, 3), some (1, 4), some (1, 2)]⟩
  have hr : compile "(?=(a+b))(a)\\2" .perl5 {} = .ok r := by cbv
  have htext : Stream.contents none ds = "xaab".toList := by decide +kernel
  have hs : src.Has "xaab".toList := htext ▸ .stream (((Stream.has_ofDeliveries ds).charAt 1).1.release 1)
  have hm : (src.findAt r {} 1).1 = .ok (some m) := by decide +kernel
  obtain ⟨_, hreported, _⟩ := reported_in_range hr hs {} 1
  obtain ⟨_, t, _, hreports⟩ := hreported m (.inr hm)
  exact ⟨r, src, m, t, hr, hs, hm, hreports, rfl, (hreports.group_iff 1 1 4).mp rfl, by decide,
    (hreports.group_iff 2 1 2).mp rfl⟩

end Regex

end DialectRegex
