import DialectRegex.Proofs.Matching.Iteration
import DialectRegex.Proofs.Stream.Reading

namespace DialectRegex

theorem Haystack.input_ofString (t : String) : (ofString t).input = .ofList t.toList := by
  have hchar : (ofString t).charAt = (t.toList[·]?) := funext (charAt_ofString t)
  rw [input, Input.ofList, hchar, length_ofString]

namespace Source

def proceed : Nat → Source → Matches → Source × Matches
  | 0, src, it => (src, it)
  | k + 1, src, it =>
    let (_, it, src) := src.next it
    src.proceed k it

structure Ready (r : Regex) (ds : Option (List Delivery)) (text : List Char) (it : Matches) (src : Source) :
    Prop where
  regex : it.regex = r
  idle : it.upcoming = .unknown ∨ it.upcoming = .exhausted
  holds : ∃ base m, base ≤ it.offset - 1 ∧ src.Holds ⟨ds, text, base⟩ m

theorem Holds.release {w : Window} {m : Nat} {src : Source} (h : src.Holds w m) {i : Nat} (hb : w.base ≤ i - 1)
    (hi : i - 1 ≤ m) : (src.release i).Holds { w with base := i - 1 } m := by
  cases h with
  | text hd hc hl => exact .text hd hc hl
  | chars hd hc => exact .chars hd hc
  | stream hd hs h =>
    obtain ⟨hconv, hbase⟩ := h.release hi
    refine .stream hd ?_ hconv
    rw [hbase, hs]
    exact Nat.max_eq_right hb

theorem Holds.buffer_eq {ds : List Delivery} {text : List Char} {base m : Nat} {src : Source}
    (h : src.Holds ⟨some ds, text, base⟩ m) :
    ∃ s past, src = .stream s ∧ s.base = base ∧ past ++ s.unread = ds ∧
      (Text.decode none (past.flatMap Delivery.payload)).1 <+: text ∧
      s.buffer.toList = (Text.decode none (past.flatMap Delivery.payload)).1.drop s.base := by
  cases h with
  | text hd => cases hd
  | chars hd => cases hd
  | @stream s _ hd hb h =>
    cases hd
    obtain ⟨past, hpast, hdec⟩ := h.past
    refine ⟨s, past, rfl, hb, hpast, ?_, ?_⟩
    · rw [hdec]
      exact List.take_prefix m text
    · rw [hdec]
      exact h.buffer_eq

variable {src src' : Source} {it : Matches}

theorem look_unknown (hu : it.upcoming = .unknown) {found : Option Match}
    (hrun : (it.regex.findAt it.flags (input src.bound) it.offset) src = (.ok found, src')) :
    (it.look (input src.bound)) src =
      (.ok { it with upcoming := (found.map Upcoming.found).getD .exhausted }, src') := by
  rw [Matches.look, hu]
  apply (Reading.bind_apply hrun).trans
  cases found <;> rfl

theorem look_known (hu : it.upcoming ≠ .unknown) : (it.look (input src.bound)) src = (.ok it, src) := by
  obtain ⟨regex, flags, offset, upcoming⟩ := it
  cases upcoming with
  | unknown => exact absurd rfl hu
  | found m => rfl
  | exhausted => rfl

section Look

variable {it' : Matches} (hlook : (it.look (input src.bound)) src = (.ok it', src'))
include hlook

theorem hasNext_found {m : Match} (hu : it'.upcoming = .found m) : src.hasNext it = (.ok true, it', src') := by
  have hnext : (it.hasNext (input src.bound)) src = _ := Reading.bind_apply hlook
  rw [hasNext, run, hnext, hu]
  rfl

theorem hasNext_exhausted (hu : it'.upcoming = .exhausted) : src.hasNext it = (.ok false, it', src') := by
  have hnext : (it.hasNext (input src.bound)) src = _ := Reading.bind_apply hlook
  rw [hasNext, run, hnext, hu]
  rfl

theorem next_found {m : Match} (hu : it'.upcoming = .found m) :
    src.next it =
      (.ok (some m), { it' with offset := m.resume, upcoming := .unknown }, src'.release m.resume) := by
  have hnext : (it.next (input src.bound)) src = _ := Reading.bind_apply hlook
  rw [next, run, hnext, hu]
  rfl

theorem next_exhausted (hu : it'.upcoming = .exhausted) : src.next it = (.ok none, it', src') := by
  have hnext : (it.next (input src.bound)) src = _ := Reading.bind_apply hlook
  rw [next, run, hnext, hu]
  rfl

end Look

namespace Ready

variable {ds : Option (List Delivery)} {text : List Char} {r : Regex} {source : String} {d : Dialect} {o : Options}

section Step

variable (hr : Regex.compile source d o = .ok r) (h : src.Ready r ds text it)
include hr h

theorem search :
    ∃ src' base m,
      (it.regex.findAt it.flags (input src.bound) it.offset) src =
          (.ok (it.regex.findAt (m := Id) it.flags (.ofList text) it.offset), src') ∧
        src'.Holds ⟨ds, text, base⟩ m ∧ base ≤ it.offset - 1 ∧
        ∀ found, it.regex.findAt (m := Id) it.flags (.ofList text) it.offset = some found →
          base ≤ found.resume - 1 ∧ found.resume - 1 ≤ m := by
  obtain rfl := h.regex
  obtain ⟨base, m, hb, hs⟩ := h.holds
  obtain ⟨src', n, hrun, hs', _, hstop⟩ := Window.findAt_yields hr hs.length_le hb src hs
  refine ⟨src', base, n, hrun, hs', hb, ?_⟩
  intro found hf
  obtain ⟨_, hlt⟩ := Regex.findAt_resume hr (Input.ofList_reads text) hf
  have hle : found.stop ≤ n := hstop found hf
  have hresume := found.resume_le
  omega

theorem hasNext : (src.hasNext it).1 = .ok (it.next (m := Id) (.ofList text)).1.isSome := by
  rcases h.idle with hu | hu
  · obtain ⟨_, _, _, hrun, _⟩ := h.search hr
    have hlook := look_unknown hu hrun
    rw [Matches.next_unknown hu]
    generalize it.regex.findAt (m := Id) it.flags (.ofList text) it.offset = found at hlook
    cases found with
    | none => rw [hasNext_exhausted hlook rfl]; rfl
    | some m => rw [hasNext_found hlook rfl]; rfl
  · have hlook : (it.look (input src.bound)) src = (.ok it, src) := look_known (by simp [hu])
    rw [hasNext_exhausted hlook hu, Matches.next_exhausted hu]
    rfl

theorem next {found : Option Match} {it' : Matches} (hn : it.next (m := Id) (.ofList text) = (found, it')) :
    ∃ src', src.next it = (.ok found, it', src') ∧ src'.Ready r ds text it' ∧
      (found.isSome → ∃ m, src'.Holds ⟨ds, text, it'.offset - 1⟩ m) := by
  rcases h.idle with hu | hu
  · obtain ⟨src', base, m, hrun, hs, hb, hresume⟩ := h.search hr
    have hlook := look_unknown hu hrun
    rw [Matches.next_unknown hu] at hn
    generalize it.regex.findAt (m := Id) it.flags (.ofList text) it.offset = answer at hlook hresume hn
    cases answer with
    | none =>
      cases hn
      exact ⟨src', Source.next_exhausted hlook rfl, ⟨h.regex, .inr rfl, base, m, hb, hs⟩, fun hsome => by cases hsome⟩
    | some f =>
      obtain ⟨hle, hm⟩ := hresume f rfl
      have hrel := hs.release hle hm
      cases hn
      exact ⟨src'.release f.resume, next_found hlook rfl, ⟨h.regex, .inl rfl, f.resume - 1, m, Nat.le_refl _, hrel⟩,
        fun _ => ⟨m, hrel⟩⟩
  · rw [Matches.next_exhausted hu] at hn
    cases hn
    have hlook : (it.look (input src.bound)) src = (.ok it, src) := look_known (by simp [hu])
    exact ⟨src, Source.next_exhausted hlook hu, h, fun hsome => by cases hsome⟩

end Step

theorem drain (hr : Regex.compile source d o = .ok r) (h : src.Ready r ds text it) (fuel : Nat)
    (found : List Match) :
    (drain fuel found it src).1 = .ok (found.reverse ++ Matches.listing (.ofList text) fuel it) := by
  induction fuel generalizing src it found with
  | zero => exact congrArg Except.ok (List.append_nil _).symm
  | succ fuel ih =>
    rw [Source.drain, Matches.listing]
    cases hn : (it.next (m := Id) (.ofList text) : Option Match × Matches) with
    | mk answer it' =>
    obtain ⟨src', hnext, h', _⟩ := h.next hr hn
    rw [hnext]
    cases answer with
    | none => exact congrArg Except.ok (List.append_nil _).symm
    | some m =>
      have hrest := ih h' (m :: found)
      rw [List.reverse_cons, List.append_assoc] at hrest
      exact hrest

theorem proceed (hr : Regex.compile source d o = .ok r) (h : src.Ready r ds text it) (k : Nat) :
    (src.proceed k it).1.Ready r ds text (src.proceed k it).2 := by
  induction k generalizing src it with
  | zero => exact h
  | succ k ih =>
    obtain ⟨src', hnext, h', _⟩ := h.next hr rfl
    rw [Source.proceed, hnext]
    exact ih h'

theorem next_proceed (hr : Regex.compile source d o = .ok r) (h : src.Ready r ds text it) {fuel : Nat}
    (hf : it.upcoming = .unknown → it.fuel text.length ≤ fuel) (k : Nat) :
    ((src.proceed k it).2.next (m := Id) (.ofList text)).1 = (Matches.listing (.ofList text) fuel it)[k]? := by
  induction k generalizing src it fuel with
  | zero =>
    obtain rfl := h.regex
    exact (Matches.listing_next hr (Input.ofList_reads text) h.idle hf rfl).1.symm
  | succ k ih =>
    obtain ⟨src', hnext, h', _⟩ := h.next hr rfl
    obtain rfl := h.regex
    obtain ⟨_, fuel', hf', hrest⟩ := Matches.listing_next hr (Input.ofList_reads text) h.idle hf rfl
    rw [Source.proceed, hnext, hrest]
    exact ih h' hf'

theorem rest (hr : Regex.compile source d o = .ok r) (h : src.Ready r ds text it) (hu : it.upcoming = .unknown) :
    (src.rest it).1 = .ok (Matches.listing (.ofList text) (it.fuel text.length) it) := by
  obtain rfl := h.regex
  obtain ⟨base, m, _, hs⟩ := h.holds
  have hle : it.fuel text.length ≤ it.fuel src.bound := by
    have : text.length ≤ src.bound := hs.length_le
    rw [Matches.fuel, Matches.fuel]
    omega
  rw [Source.rest, h.drain hr, Matches.listing_fuel hr (Input.ofList_reads text) hu hle (Nat.le_refl _)]
  rfl

end Ready

end Source

/-- However the bytes of a text are served, the matches in the stream are those in the text. Each call answers with
the next one, so that nothing is ever asked for that has been given up, and after each match the stream begins one
character before the next search and has all that has been read from there on. -/
theorem Regex.streamed_matches {r : Regex} {source : String} {d : Dialect} {o : Options}
    (hr : compile source d o = .ok r) {t : String} {ds : List Delivery} (hd : Serves ds t.toUTF8.toList)
    (offset : Nat) (flags : SearchFlags) :
    let it := Matches.start r offset flags
    let src := Source.stream (.ofDeliveries ds)
    let found : List Match := it.toList (m := Id) (Haystack.ofString t).input
    ((Source.text (.ofString t)).rest it).1 = .ok found ∧
    ((Source.chars t.toList.toArray).rest it).1 = .ok found ∧
    (src.rest it).1 = .ok found ∧
    ∀ k, ((src.proceed k it).1.hasNext (src.proceed k it).2).1 = .ok (decide (k < found.length)) ∧
      ∃ it' src', (src.proceed k it).1.next (src.proceed k it).2 = (.ok found[k]?, it', src') ∧
        (k < found.length → ∃ s past, src' = .stream s ∧ s.base = it'.offset - 1 ∧
          past ++ s.unread = ds.flatMap Delivery.split ∧
          (Text.decode none (past.flatMap Delivery.payload)).1 <+: t.toList ∧
          s.buffer.toList = (Text.decode none (past.flatMap Delivery.payload)).1.drop s.base) := by
  intro it src found
  have hlist : found = Matches.listing (.ofList t.toList) (it.fuel t.toList.length) it := by
    change it.toList (m := Id) (Haystack.ofString t).input = _
    rw [Haystack.input_ofString]
    exact Matches.collect_eq _ [] it
  have hready {ds : Option (List Delivery)} {src : Source} (h : src.Holds ⟨ds, t.toList, 0⟩ 0) :
      src.Ready r ds t.toList it ∧ (src.rest it).1 = .ok found := by
    have hrest : src.Ready r ds t.toList it := ⟨rfl, .inl rfl, 0, 0, Nat.zero_le _, h⟩
    refine ⟨hrest, ?_⟩
    rw [hrest.rest hr rfl, hlist]
  obtain ⟨_, htext⟩ :=
    hready (.text rfl (Haystack.charAt_ofString t) (Nat.le_of_eq (Haystack.length_ofString t).symm))
  obtain ⟨_, hchars⟩ := hready (.chars rfl List.toList_toArray)
  obtain ⟨h, hstream⟩ := hready (.stream rfl rfl (Stream.conveys_ofDeliveries hd))
  refine ⟨htext, hchars, hstream, ?_⟩
  intro k
  have hk := h.proceed hr k
  have hpeek := hk.hasNext hr
  have hanswer := h.next_proceed hr (fun _ => Nat.le_refl _) k
  rw [← hlist] at hanswer
  have hsome : found[k]?.isSome = decide (k < found.length) := by
    rw [Bool.eq_iff_iff, decide_eq_true_iff, isSome_getElem?]
  generalize hcall : (src.proceed k it).2.next (m := Id) (.ofList t.toList) = call at hpeek hanswer
  obtain ⟨answer, it'⟩ := call
  obtain rfl : answer = found[k]? := hanswer
  obtain ⟨src', hnext, _, hheld⟩ := hk.next hr hcall
  refine ⟨hpeek.trans (congrArg Except.ok hsome), it', src', hnext, ?_⟩
  intro hlt
  obtain ⟨m, hs⟩ := hheld (hsome.trans (decide_eq_true hlt))
  exact hs.buffer_eq

theorem Regex.streamed_matches_cut :
    ∃ r : Regex, compile "(é?)\\b" .perl5 {} = .ok r ∧
      ∃ ds, Serves ds "aé€b".toUTF8.toList ∧ 3 < ds.length ∧
        ((Source.stream (.ofDeliveries ds)).rest (Matches.start r 1 {})).1 =
          .ok [⟨1, 2, [some (1, 2), some (1, 2)]⟩, ⟨2, 2, [some (2, 2), some (2, 2)]⟩,
            ⟨3, 3, [some (3, 3), some (3, 3)]⟩, ⟨4, 4, [some (4, 4), some (4, 4)]⟩] := by
  let r : Regex := ⟨"(é?)\\b", .perl5, {},
    .seq (.group (some 1) (.repeated (.test (.literal ['é'] false)) 0 (some 1) true)) (.test (.boundary .either)),
    2, true, rfl⟩
  have hr : compile "(é?)\\b" .perl5 {} = .ok r := by cbv
  let ds : List Delivery := [.bytes [97, 195], .interrupted, .bytes [169, 226, 130], .bytes [172, 98]]
  have hbytes : "aé€b".toUTF8.toList = [97, 195] ++ ([169, 226, 130] ++ ([172, 98] ++ [])) := by
    rw [Text.toList_toUTF8]
    decide +kernel
  have hd : Serves ds "aé€b".toUTF8.toList := by
    rw [hbytes]
    exact .read (by decide) (.retry (.read (by decide) (.read (by decide) .done)))
  obtain ⟨_, _, hstream, _⟩ := streamed_matches hr hd 1 {}
  refine ⟨r, hr, ds, hd, by decide, hstream.trans (congrArg Except.ok ?_)⟩
  decide +kernel

end DialectRegex
