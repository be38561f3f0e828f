import DialectRegex.Proofs.Stream.Contents

namespace DialectRegex

def Delivery.Continues : Delivery → Prop
  | bytes bs => bs ≠ []
  | interrupted => True
  | failed _ => False

theorem Delivery.Continues.split {d : Delivery} (hd : d.Continues) : ∀ d' ∈ d.split, d'.Continues := by
  have hportions (n : Nat) (bs : List UInt8) (hle : bs.length ≤ n * readSize)
      (hlt : n * readSize < bs.length + readSize) : ∀ d' ∈ (portions bs n).map bytes, d'.Continues := by
    induction n generalizing bs with
    | zero => simp [portions]
    | succ n ih =>
      obtain ⟨hne, hle, hlt⟩ := portions_step hle hlt
      rw [portions, List.map_cons, List.forall_mem_cons]
      exact ⟨hne, ih _ hle hlt⟩
  cases d with
  | bytes bs =>
    have hpos : 0 < bs.length := List.length_pos_iff.mpr hd
    apply hportions
    all_goals
      rw [readSize]
      omega
  | interrupted => simp [Delivery.split, Continues]
  | failed e => exact absurd hd id

namespace Stream

theorem contents_append {ds : List Delivery} (hds : ∀ d ∈ ds, d.Continues) (p : Option Text.Partial)
    (es : List Delivery) :
    contents p (ds ++ es) = (Text.decode p (ds.flatMap Delivery.payload)).1 ++
      contents (Text.decode p (ds.flatMap Delivery.payload)).2 es := by
  induction ds generalizing p with
  | nil => rfl
  | cons d ds ih =>
    rw [List.forall_mem_cons] at hds
    cases d with
    | bytes bs =>
      rw [List.cons_append, contents_bytes p hds.1, ih hds.2, List.flatMap_cons, Delivery.payload, Text.decode_append]
      exact (List.append_assoc _ _ _).symm
    | interrupted => exact ih hds.2 p
    | failed e => exact absurd hds.1 id

inductive Request where
  | charAt (i : Nat)
  | release (i : Nat)
  | takeFailure
deriving DecidableEq

namespace Request

def apply (s : Stream) : Request → Stream
  | charAt i => (s.charAt i).2
  | release i => s.release i
  | takeFailure => s.takeFailure.2

def handsOut (s : Stream) : Request → List ReadFailure
  | takeFailure => s.takeFailure.1.toList
  | _ => []

def asksPast (n : Nat) : Request → Bool
  | charAt i => n ≤ i
  | _ => false

end Request

def after (s : Stream) : List Request → Stream
  | [] => s
  | r :: rs => (r.apply s).after rs

def handedOut (s : Stream) : List Request → List ReadFailure
  | [] => []
  | r :: rs => r.handsOut s ++ (r.apply s).handedOut rs

variable {f g s : Stream} {e : ReadFailure} {text text' : List Char}

namespace Has

theorem apply (h : s.Has text) (r : Request) : (r.apply s).Has text := by
  cases r with
  | charAt i => exact (h.charAt i).1
  | release i => exact h.release i
  | takeFailure => exact ⟨h.base_le, h.rest_eq, h.bounded⟩

theorem after (h : s.Has text) (rs : List Request) : (s.after rs).Has text := by
  induction rs generalizing s with
  | nil => exact h
  | cons r rs ih => exact ih (h.apply r)

theorem charAt_of_le (h : s.Has text) {i : Nat} (hi : s.base ≤ i) : (s.charAt i).1 = .ok text[i]? := by
  obtain ⟨_, hchar | hchar⟩ := h.charAt i
  · exact hchar
  · rw [Stream.charAt, if_neg (Nat.not_lt.mpr hi)] at hchar
    cases hchar

theorem buffered_of_ended (h : s.Has text) (he : s.ended = true) : s.base + s.buffered = text.length := by
  have hlen := h.buffered_add
  rwa [toCome, if_pos he, List.length_nil, Nat.add_zero] at hlen

theorem base_charAt (h : s.Has text) (i : Nat) : (s.charAt i).2.base = s.base := by
  rw [Stream.charAt]
  split
  · rfl
  · exact (h.fillTo i s.unread).2.1

end Has

def LacksAt (i : Nat) (s : Stream) : Prop := s.ended = false ∧ s.base + s.buffered ≤ i

theorem lacksAt_or (i : Nat) (s : Stream) : LacksAt i s ∨ s.ended = true ∨ i < s.base + s.buffered := by
  rcases Nat.lt_or_ge i (s.base + s.buffered) with hi | hi
  · exact .inr (.inr hi)
  · cases he : s.ended with
    | false => exact .inl ⟨he, hi⟩
    | true => exact .inr (.inl rfl)

section Reading

variable {i : Nat} {ds : List Delivery}

theorem fillTo_full (hi : i < s.base + s.buffered) : fillTo i ds s = { s with unread := ds } := by
  rw [fillTo.eq_def]
  exact if_pos (Bool.or_eq_true_iff.mpr (.inr (decide_eq_true hi)))

theorem fillTo_ended (he : s.ended = true) : fillTo i ds s = { s with unread := ds } := by
  rw [fillTo.eq_def]
  exact if_pos (Bool.or_eq_true_iff.mpr (.inl he))

theorem LacksAt.fillTo_eq (h : LacksAt i s) : ¬ (s.ended || decide (i < s.base + s.buffered)) = true := by
  simp [h.1, h.2]

theorem fillTo_nil (h : LacksAt i s) : fillTo i [] s =
    { s with
      unread := [], buffer := s.buffer.append (Text.flush s.unfinished), unfinished := none, ended := true } := by
  rw [fillTo.eq_def]
  exact if_neg h.fillTo_eq

theorem fillTo_failed (h : LacksAt i s) :
    fillTo i (.failed e :: ds) s = { s with unread := ds, failure := some e, ended := true } := by
  rw [fillTo.eq_def]
  exact if_neg h.fillTo_eq

theorem fillTo_stop (h : LacksAt i s) : fillTo i (.bytes [] :: ds) s =
    { s with
      unread := ds, buffer := s.buffer.append (Text.flush s.unfinished), unfinished := none, ended := true } := by
  rw [fillTo.eq_def]
  exact if_neg h.fillTo_eq

theorem fillTo_interrupted (h : LacksAt i s) : fillTo i (.interrupted :: ds) s = fillTo i ds s := by
  rw [fillTo.eq_def]
  exact if_neg h.fillTo_eq

theorem fillTo_bytes (h : LacksAt i s) {bs : List UInt8} (hbs : bs ≠ []) : fillTo i (.bytes bs :: ds) s =
    fillTo i ds { s with
      buffer := s.buffer.append (Text.decode s.unfinished bs).1, unfinished := (Text.decode s.unfinished bs).2 } := by
  cases bs with
  | nil => exact absurd rfl hbs
  | cons b bs =>
    rw [fillTo.eq_def]
    exact if_neg h.fillTo_eq

end Reading

structure Level (f g : Stream) : Prop where
  base_eq : f.base = g.base
  buffer_eq : f.buffer = g.buffer
  unfinished_eq : f.unfinished = g.unfinished
  ended : f.ended = false ∧ g.ended = false
  failure : f.failure = none ∧ g.failure = none

/-- After the same reads, the first stream will meet a failure and the second one the end of the input. -/
structure Heading (e : ReadFailure) (f g : Stream) : Prop extends Level f g where
  unread : ∃ ds more more', (∀ d ∈ ds, d.Continues) ∧ f.unread = ds ++ .failed e :: more ∧
    g.unread = ds ++ .bytes [] :: more'

structure Over (f g : Stream) : Prop where
  ended : f.ended = true ∧ g.ended = true
  failure : g.failure = none

namespace Level

variable {ds more more' : List Delivery} {i : Nat}

theorem buffered_eq (h : Level f g) : f.buffered = g.buffered := congrArg CharQueue.size h.buffer_eq

theorem lacksAt (h : Level f g) (hi : f.base + f.buffered ≤ i) : LacksAt i f ∧ LacksAt i g :=
  ⟨⟨h.ended.1, hi⟩, h.ended.2, by rw [← h.base_eq, ← h.buffered_eq]; exact hi⟩

theorem fillTo_of_lt (h : Level f g) (hds : ∀ d ∈ ds, d.Continues) (hi : i < f.base + f.buffered) :
    Heading e (fillTo i (ds ++ .failed e :: more) f) (fillTo i (ds ++ .bytes [] :: more') g) := by
  rw [fillTo_full hi, fillTo_full (by rwa [← h.base_eq, ← h.buffered_eq])]
  exact { h with unread := ⟨ds, more, more', hds, rfl, rfl⟩ }

theorem fillTo (h : Level f g) (hds : ∀ d ∈ ds, d.Continues) (i : Nat) (more more' : List Delivery) :
    let f' := Stream.fillTo i (ds ++ .failed e :: more) f
    let g' := Stream.fillTo i (ds ++ .bytes [] :: more') g
    (i < f'.base + f'.buffered ∧ Heading e f' g') ∨ (f'.base + f'.buffered ≤ i ∧ f'.failure = some e ∧ Over f' g') := by
  dsimp only
  -- a read leaves the two level, so that the induction goes over all streams that are
  induction ds generalizing f g with
  | nil =>
    rcases Nat.lt_or_ge i (f.base + f.buffered) with hi | hi
    · refine .inl ⟨?_, h.fillTo_of_lt hds hi⟩
      rwa [fillTo_full hi]
    · obtain ⟨hf, hg⟩ := h.lacksAt hi
      rw [List.nil_append, List.nil_append, fillTo_failed hf, fillTo_stop hg]
      exact .inr ⟨hi, rfl, ⟨rfl, rfl⟩, h.failure.2⟩
  | cons d ds ih =>
    rcases Nat.lt_or_ge i (f.base + f.buffered) with hi | hi
    · refine .inl ⟨?_, h.fillTo_of_lt hds hi⟩
      rwa [fillTo_full hi]
    obtain ⟨hf, hg⟩ := h.lacksAt hi
    rw [List.forall_mem_cons] at hds
    rw [List.cons_append, List.cons_append]
    cases d with
    | bytes bs =>
      rw [fillTo_bytes hf hds.1, fillTo_bytes hg hds.1, h.buffer_eq, h.unfinished_eq]
      exact ih { h with buffer_eq := rfl, unfinished_eq := rfl } hds.2
    | interrupted =>
      rw [fillTo_interrupted hf, fillTo_interrupted hg]
      exact ih h hds.2
    | failed e => exact absurd hds.1 id

end Level

theorem Heading.charAt (h : Heading e f g) (hf : f.Has text) (i : Nat) :
    (i < text.length ∧ Heading e (f.charAt i).2 (g.charAt i).2) ∨
      (text.length ≤ i ∧ (f.charAt i).2.failure = some e ∧ Over (f.charAt i).2 (g.charAt i).2) := by
  have hlen := (hf.charAt i).1.buffered_add
  have hended := (hf.charAt i).1.buffered_of_ended
  obtain ⟨ds, more, more', hds, hfu, hgu⟩ := h.unread
  rcases Nat.lt_or_ge i f.base with hi | hi
  · refine .inl ⟨Nat.lt_of_lt_of_le hi hf.base_le, ?_⟩
    rw [Stream.charAt, Stream.charAt, if_pos hi, if_pos (h.base_eq ▸ hi)]
    exact h
  rw [Stream.charAt, if_neg (Nat.not_lt.mpr hi), hfu] at hlen hended ⊢
  rw [Stream.charAt, if_neg (Nat.not_lt.mpr (h.base_eq ▸ hi)), hgu]
  -- what is buffered lies in the text while more may come, and reaches its end after the failure
  rcases h.fillTo hds i more more' with ⟨hlt, hnext⟩ | ⟨hle, hfail, hover⟩
  · refine .inl ⟨?_, hnext⟩
    dsimp only at hlen
    omega
  · have := hended hover.ended.1
    exact .inr ⟨by dsimp only at this; omega, hfail, hover⟩

theorem handsOut_of_failure {r : Request} (hr : s.failure = none) : r.handsOut s = [] := by
  cases r with
  | takeFailure => exact congrArg Option.toList hr
  | charAt i => rfl
  | release i => rfl

theorem Heading.apply (h : Heading e f g) (hf : f.Has text) (r : Request) :
    (r.asksPast text.length = false ∧ Heading e (r.apply f) (r.apply g)) ∨
      (r.asksPast text.length = true ∧ (r.apply f).failure = some e ∧ Over (r.apply f) (r.apply g)) := by
  cases r with
  | charAt i =>
    rcases h.charAt hf i with ⟨hi, hnext⟩ | ⟨hi, hover⟩
    · exact .inl ⟨decide_eq_false (Nat.not_le.mpr hi), hnext⟩
    · exact .inr ⟨decide_eq_true hi, hover⟩
  | release i =>
    have hbase : (f.release i).base = (g.release i).base := by
      rw [base_release, base_release, h.base_eq, h.buffered_eq]
    have hbuffer : (f.release i).buffer = (g.release i).buffer := by
      rw [buffer_release, buffer_release, h.base_eq, h.buffered_eq, h.buffer_eq]
    exact .inl ⟨rfl, { h with base_eq := hbase, buffer_eq := hbuffer }⟩
  | takeFailure => exact .inl ⟨rfl, { h with failure := ⟨rfl, rfl⟩ }⟩

theorem charAt_of_ended (he : s.ended = true) (i : Nat) : (s.charAt i).2 = s := by
  rw [Stream.charAt]
  split
  · rfl
  · exact fillTo_ended he

theorem apply_ended {r : Request} (he : s.ended = true) : (r.apply s).ended = true := by
  cases r with
  | charAt i => rwa [Request.apply, charAt_of_ended he]
  | release i => exact he
  | takeFailure => exact he

theorem handedOut_of_ended (he : s.ended = true) (rs : List Request) :
    s.handedOut rs = if .takeFailure ∈ rs then s.failure.toList else [] := by
  induction rs generalizing s with
  | nil => rfl
  | cons r rs ih =>
    rw [handedOut, ih (apply_ended he)]
    cases r with
    | charAt i => simp [Request.handsOut, Request.apply, charAt_of_ended he]
    | release i => simp [Request.handsOut, Request.apply, release]
    | takeFailure => simp [Request.handsOut, Request.apply, takeFailure]

theorem base_after_of_ended (hf : f.Has text) (hg : g.Has text) (hef : f.ended = true) (heg : g.ended = true)
    (hb : f.base = g.base) (rs : List Request) : (f.after rs).base = (g.after rs).base := by
  induction rs generalizing f g with
  | nil => exact hb
  | cons r rs ih =>
    apply ih (hf.apply r) (hg.apply r) (apply_ended hef) (apply_ended heg)
    cases r with
    | charAt i => exact (hf.base_charAt i).trans (hb.trans (hg.base_charAt i).symm)
    | release i =>
      have hlen := (hf.buffered_of_ended hef).trans (hg.buffered_of_ended heg).symm
      rw [Request.apply, Request.apply, base_release, base_release]
      omega
    | takeFailure => exact hb

theorem Heading.base_after (h : Heading e f g) (hf : f.Has text) (hg : g.Has text) (rs : List Request) :
    (f.after rs).base = (g.after rs).base := by
  induction rs generalizing f g with
  | nil => exact h.base_eq
  | cons r rs ih =>
    rcases h.apply hf r with ⟨_, hnext⟩ | ⟨hpast, _, hover⟩
    · exact ih hnext (hf.apply r) (hg.apply r)
    · apply base_after_of_ended (hf.apply r) (hg.apply r) hover.ended.1 hover.ended.2
      cases r with
      | charAt i => exact (hf.base_charAt i).trans (h.base_eq.trans (hg.base_charAt i).symm)
      | release i => cases hpast
      | takeFailure => cases hpast

theorem Heading.handedOut (h : Heading e f g) (hf : f.Has text) (rs : List Request) :
    f.handedOut rs = (if .takeFailure ∈ rs.dropWhile (!·.asksPast text.length) then [e] else []) ∧
      g.handedOut rs = [] := by
  induction rs generalizing f g with
  | nil => exact ⟨rfl, rfl⟩
  | cons r rs ih =>
    rw [Stream.handedOut, Stream.handedOut, handsOut_of_failure h.failure.1, handsOut_of_failure h.failure.2,
      List.nil_append, List.nil_append]
    rcases h.apply hf r with ⟨hpast, hnext⟩ | ⟨hpast, hfail, hover⟩
    · rw [List.dropWhile_cons_of_pos (by rw [hpast]; rfl)]
      exact ih hnext (hf.apply r)
    · rw [List.dropWhile_cons_of_neg (by rw [hpast]; decide), handedOut_of_ended hover.ended.1,
        handedOut_of_ended hover.ended.2, hfail, hover.failure]
      -- the request that meets the end is for a character, so a failure is taken later if at all
      have hne : .takeFailure ≠ r := by
        rintro rfl
        cases hpast
      simp [hne]

variable {ds : List Delivery} {cs : List Char} {unfinished : Option Text.Partial}

theorem heading_ofDeliveries (hds : ∀ d ∈ ds, d.Continues) (e : ReadFailure) (more more' : List Delivery) :
    Heading e (ofDeliveries (ds ++ .failed e :: more)) (ofDeliveries (ds ++ .bytes [] :: more')) where
  base_eq := rfl
  buffer_eq := rfl
  unfinished_eq := rfl
  ended := ⟨rfl, rfl⟩
  failure := ⟨rfl, rfl⟩
  unread := by
    refine ⟨ds.flatMap Delivery.split, more.flatMap Delivery.split, more'.flatMap Delivery.split, ?_,
      List.flatMap_append, List.flatMap_append⟩
    intro d hd
    obtain ⟨d', hmem, hd⟩ := List.mem_flatMap.mp hd
    exact (hds d' hmem).split d hd

/-- The characters of an input that fails are those of the one that ends there, less the replacement of a character
that is left unfinished. If there is none, the same requests are answered alike, refused ones too; but the failure is
handed out once, to the first that takes it after a character past the text has been asked for. -/
theorem failing_beside_ending (hds : ∀ d ∈ ds, d.Continues)
    (hread : Text.decode none (ds.flatMap Delivery.payload) = (cs, unfinished)) (e : ReadFailure)
    (more more' : List Delivery) (rs : List Request) :
    let failing := ofDeliveries (ds ++ .failed e :: more)
    let ending := ofDeliveries (ds ++ .bytes [] :: more')
    (∀ i, (failing.after rs).base ≤ i → ((failing.after rs).charAt i).1 = .ok cs[i]?) ∧
    (∀ i, (ending.after rs).base ≤ i →
      ((ending.after rs).charAt i).1 = .ok (cs ++ Text.flush unfinished)[i]?) ∧
    (unfinished = none → ∀ i, ((failing.after rs).charAt i).1 = ((ending.after rs).charAt i).1) ∧
    failing.handedOut rs = (if .takeFailure ∈ rs.dropWhile (!·.asksPast cs.length) then [e] else []) ∧
    ending.handedOut rs = [] := by
  intro failing ending
  have hfailing : failing.Has cs := by
    have h := has_ofDeliveries (ds ++ .failed e :: more)
    rwa [contents_append hds, hread, contents, List.append_nil] at h
  have hending : ending.Has (cs ++ Text.flush unfinished) := by
    have h := has_ofDeliveries (ds ++ .bytes [] :: more')
    rwa [contents_append hds, hread, contents] at h
  have hheading := heading_ofDeliveries hds e more more'
  refine ⟨fun i => (hfailing.after rs).charAt_of_le, fun i => (hending.after rs).charAt_of_le, ?_,
    hheading.handedOut hfailing rs⟩
  rintro rfl i
  have hending : ending.Has cs := by rwa [Text.flush, if_neg (by decide), List.append_nil] at hending
  have hbase : (failing.after rs).base = (ending.after rs).base := hheading.base_after hfailing hending rs
  rcases Nat.lt_or_ge i (failing.after rs).base with hi | hi
  · rw [Stream.charAt, Stream.charAt, if_pos hi, if_pos (hbase ▸ hi), hbase]
  · rw [(hfailing.after rs).charAt_of_le hi, (hending.after rs).charAt_of_le (hbase ▸ hi)]

theorem failing_beside_ending_whole :
    ∃ (e : ReadFailure) (failing ending : Stream) (rs : List Request),
      failing = ofDeliveries [.bytes [97, 226], .interrupted, .bytes [130, 172], .failed e, .bytes [98]] ∧
      ending = ofDeliveries [.bytes [97, 226], .interrupted, .bytes [130, 172], .bytes []] ∧
      rs = [.takeFailure, .charAt 1, .takeFailure, .charAt 2, .release 2, .takeFailure, .takeFailure] ∧
      ((failing.after rs).charAt 0).1 = .error ⟨0, 1⟩ ∧ ((ending.after rs).charAt 0).1 = .error ⟨0, 1⟩ ∧
      ((failing.after rs).charAt 1).1 = .ok (some '€') ∧ ((ending.after rs).charAt 2).1 = .ok none ∧
      failing.handedOut rs = [e] ∧ ending.handedOut rs = [] := by
  let e : ReadFailure := ⟨⟨"BrokenPipe", by decide⟩, "gone"⟩
  let ds : List Delivery := [.bytes [97, 226], .interrupted, .bytes [130, 172]]
  let rs : List Request :=
    [.takeFailure, .charAt 1, .takeFailure, .charAt 2, .release 2, .takeFailure, .takeFailure]
  let failing := ofDeliveries (ds ++ .failed e :: [.bytes [98]])
  let ending := ofDeliveries (ds ++ .bytes [] :: [])
  have hds : ∀ d ∈ ds, d.Continues := by simp [ds, Delivery.Continues]
  have hread : Text.decode none (ds.flatMap Delivery.payload) = (['a', '€'], none) := by decide +kernel
  obtain ⟨hfail, hend, hsame, htaken, hnone⟩ := failing_beside_ending hds hread e [.bytes [98]] [] rs
  have hgone : ((failing.after rs).charAt 0).1 = .error ⟨0, 1⟩ := by decide +kernel
  have hfbase : (failing.after rs).base = 1 := by decide +kernel
  have hebase : (ending.after rs).base = 1 := by decide +kernel
  exact ⟨e, failing, ending, rs, rfl, rfl, rfl, hgone, (hsame rfl 0).symm.trans hgone, hfail 1 (Nat.le_of_eq hfbase),
    hend 2 (by rw [hebase]; decide), htaken, hnone⟩

/-- Two of three bytes of a character have come when the input fails. -/
theorem failing_drops_unfinished :
    ∃ (ds : List Delivery) (e : ReadFailure), (∀ d ∈ ds, d.Continues) ∧
      ((ofDeliveries (ds ++ [.failed e])).charAt 1).1 = .ok none ∧
      ((ofDeliveries (ds ++ [.bytes []])).charAt 1).1 = .ok (some '\ufffd') := by
  refine ⟨[.bytes [97, 226, 130]], ⟨⟨"BrokenPipe", by decide⟩, "gone"⟩, ?_, by decide +kernel, by decide +kernel⟩
  simp [Delivery.Continues]

end Stream

end DialectRegex
