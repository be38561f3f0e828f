import DialectRegex.Proofs.Stream.Memory

namespace DialectRegex

namespace Source

inductive Call where
  | peek
  | take
deriving DecidableEq

def after : List Call → Source → Matches → Source × Matches
  | [], src, it => (src, it)
  | .peek :: calls, src, it =>
    let (_, it, src) := src.hasNext it
    after calls src it
  | .take :: calls, src, it =>
    let (_, it, src) := src.next it
    after calls src it

def answers (now : Source × Matches) : Except Released Bool × Except Released (Option Match) :=
  ((now.1.hasNext now.2).1, (now.1.next now.2).1)

inductive Due (src : Source) (r : Regex) (flags : SearchFlags) : Matches → List Match → Prop where
  | unknown {offset : Nat} {ms : List Match} (h : src.Enumerates r flags offset ms) :
      Due src r flags ⟨r, flags, offset, .unknown⟩ ms
  | found (offset : Nat) {m : Match} {ms : List Match} (h : src.Enumerates r flags m.resume ms) :
      Due src r flags ⟨r, flags, offset, .found m⟩ (m :: ms)
  | exhausted (offset : Nat) : Due src r flags ⟨r, flags, offset, .exhausted⟩ []

section InMemory

variable {text : List Char} {src : Source} {r : Regex} {flags : SearchFlags} {it : Matches} {ms : List Match}
  (hs : src.InMemory text)
include hs

theorem Due.look (h : src.Due r flags it ms) :
    ∃ it', (it.look (input src.bound)) src = (.ok it', src) ∧ it'.offset = it.offset ∧ src.Due r flags it' ms ∧
      it'.upcoming = (ms.head?.map Upcoming.found).getD .exhausted := by
  have hsearch {offset : Nat} {found : Option Match} (h : (src.findAt r flags offset).1 = .ok found) :
      (r.findAt flags (input src.bound) offset) src = (.ok found, src) := by
    rw [hs.findAt] at h
    exact (hs.findAt r flags offset).trans (Prod.ext h rfl)
  cases h with
  | @unknown offset _ h =>
    cases h with
    | nil h => exact ⟨_, look_unknown rfl (hsearch h), rfl, .exhausted offset, rfl⟩
    | cons h hrest => exact ⟨_, look_unknown rfl (hsearch h), rfl, .found offset hrest, rfl⟩
  | found offset h => exact ⟨_, look_known (by simp), rfl, .found offset h, rfl⟩
  | exhausted offset => exact ⟨_, look_known (by simp), rfl, .exhausted offset, rfl⟩

theorem Due.hasNext (h : src.Due r flags it ms) :
    ∃ it', src.hasNext it = (.ok (!ms.isEmpty), it', src) ∧ it'.offset = it.offset ∧ src.Due r flags it' ms := by
  obtain ⟨it', hlook, hoffset, hdue, hu⟩ := h.look hs
  refine ⟨it', ?_, hoffset, hdue⟩
  cases ms with
  | nil => exact hasNext_exhausted hlook hu
  | cons m ms => exact hasNext_found hlook hu

theorem Due.next (h : src.Due r flags it ms) :
    ∃ it', src.next it = (.ok ms.head?, it', src) ∧ src.Due r flags it' ms.tail := by
  obtain ⟨it', hlook, _, hdue, hu⟩ := h.look hs
  cases ms with
  | nil => exact ⟨it', next_exhausted hlook hu, hdue⟩
  | cons m ms =>
    have hnext := next_found hlook hu
    rw [hs.release] at hnext
    cases hdue with
    | unknown => cases hu
    | found offset hrest =>
      cases hu
      exact ⟨_, hnext, .unknown hrest⟩

theorem Due.after (h : src.Due r flags it ms) (calls : List Call) :
    (Source.after calls src it).1 = src ∧
      src.Due r flags (Source.after calls src it).2 (ms.drop (calls.count .take)) := by
  -- Call by call, what is due is all that carries over: asking leaves it, taking removes the first.
  induction calls generalizing it ms with
  | nil => exact ⟨rfl, h⟩
  | cons call calls ih =>
    cases call with
    | peek =>
      obtain ⟨it', hpeek, _, hdue⟩ := h.hasNext hs
      rw [Source.after, hpeek]
      exact ih hdue
    | take =>
      obtain ⟨it', htake, hdue⟩ := h.next hs
      rw [Source.after, htake]
      rw [List.count_cons_self, ← List.drop_tail]
      exact ih hdue

theorem Due.answers (h : src.Due r flags it ms) (calls : List Call) :
    Source.answers (Source.after calls src it) =
      (.ok (decide (calls.count .take < ms.length)), .ok ms[calls.count .take]?) := by
  obtain ⟨hsrc, hnow⟩ := h.after hs calls
  obtain ⟨_, hpeek, _⟩ := hnow.hasNext hs
  obtain ⟨_, htake, _⟩ := hnow.next hs
  have hmore : (!(ms.drop (calls.count .take)).isEmpty) = decide (calls.count .take < ms.length) := by
    rw [Bool.eq_iff_iff]
    simp
  rw [Source.answers, hsrc, hpeek, htake, List.head?_drop, hmore]

end InMemory

end Source

/-- In whatever order the iterator is called, it gives the matches that one search after the other finds, and tells
whether there are more. Being asked this changes nothing, and after the last match nothing follows. -/
theorem Regex.interleaved_calls {r : Regex} {source : String} {d : Dialect} {o : Options}
    (hr : compile source d o = .ok r) {text : List Char} {src : Source} (hs : src.InMemory text) (offset : Nat)
    (flags : SearchFlags) :
    let it := Matches.start r offset flags
    ∃ found, (∀ ms, src.Enumerates r flags offset ms ↔ ms = found) ∧
      ∀ calls, let now := Source.after calls src it
        let k := calls.count .take
        Source.answers now = (.ok (decide (k < found.length)), .ok found[k]?) ∧
          (now.1.hasNext now.2).2.1.offset = now.2.offset ∧
          ∀ more,
            Source.answers (Source.after (calls ++ .peek :: more) src it) =
                Source.answers (Source.after (calls ++ more) src it) ∧
              ((now.1.next now.2).1 = .ok none →
                Source.answers (Source.after (calls ++ .take :: more) src it) = (.ok false, .ok none)) := by
  intro it
  have hfound : src.Enumerates r flags offset (Matches.listing (.ofList text) (it.fuel text.length) it) :=
    hs.enumerates_listing hr (Nat.lt_succ_self _)
  generalize Matches.listing (.ofList text) (it.fuel text.length) it = found at hfound
  have hdue : src.Due r flags it found := .unknown hfound
  have hanswers := hdue.answers hs
  refine ⟨found, fun ms => ⟨hfound.unique, ?_⟩, ?_⟩
  · rintro rfl
    exact hfound
  · intro calls
    refine ⟨hanswers calls, ?_, ?_⟩
    · obtain ⟨hsrc, hnow⟩ := hdue.after hs calls
      obtain ⟨_, hpeek, hoffset, _⟩ := hnow.hasNext hs
      rw [hsrc, hpeek]
      exact hoffset
    · intro more
      constructor
      · rw [hanswers, hanswers, List.count_append, List.count_append, List.count_cons_of_ne (by decide)]
      · intro hnone
        have hlast := (congrArg Prod.snd (hanswers calls)).symm.trans hnone
        have hle : found.length ≤ calls.count .take := List.getElem?_eq_none_iff.mp (Except.ok.inj hlast)
        have hle' : found.length ≤ (calls ++ .take :: more).count .take := by
          rw [List.count_append]
          exact Nat.le_add_right_of_le hle
        rw [hanswers, decide_eq_false (Nat.not_lt.mpr hle'), List.getElem?_eq_none hle']

theorem Regex.interleaved_calls_empty :
    ∃ r : Regex, compile "b*" .perl5 {} = .ok r ∧ (Source.text (.ofString "abb")).InMemory "abb".toList ∧
      ∃ found, (∀ ms, (Source.text (.ofString "abb")).Enumerates r {} 1 ms ↔ ms = found) ∧
        let now := Source.after [.peek, .take, .peek, .peek] (.text (.ofString "abb")) (Matches.start r 1 {})
        Source.answers now = (.ok true, .ok (some ⟨3, 3, [some (3, 3)]⟩)) ∧ found[1]? = some ⟨3, 3, [some (3, 3)]⟩ ∧
        ∀ more, Source.answers (Source.after ([.peek, .take, .peek, .peek, .take] ++ .take :: more)
            (.text (.ofString "abb")) (Matches.start r 1 {})) = (.ok false, .ok none) := by
  let r : Regex := ⟨"b*", .perl5, {}, .repeated (.test (.literal ['b'] false)) 0 none true, 1, true, rfl⟩
  have hr : compile "b*" .perl5 {} = .ok r := by cbv
  have hs : (Source.text (.ofString "abb")).InMemory "abb".toList := .text "abb" rfl
  obtain ⟨found, hfound, hcalls⟩ := interleaved_calls hr hs 1 {}
  obtain ⟨hanswers, _⟩ := hcalls [.peek, .take, .peek, .peek]
  obtain ⟨_, _, hmore⟩ := hcalls [.peek, .take, .peek, .peek, .take]
  have hlast : Source.answers (Source.after [.peek, .take, .peek, .peek] (.text (.ofString "abb"))
      (Matches.start r 1 {})) = (.ok true, .ok (some ⟨3, 3, [some (3, 3)]⟩)) := by decide +kernel
  have hnone : (Source.answers (Source.after [.peek, .take, .peek, .peek, .take] (.text (.ofString "abb"))
      (Matches.start r 1 {}))).2 = .ok none := by decide +kernel
  have hsecond := congrArg Prod.snd (hanswers.symm.trans hlast)
  exact ⟨r, hr, hs, found, hfound, hlast, Except.ok.inj hsecond, fun more => (hmore more).2 hnone⟩

end DialectRegex
