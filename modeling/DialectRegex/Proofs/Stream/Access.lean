import DialectRegex.Proofs.Stream.Serving

namespace DialectRegex.Stream

inductive Calls : Stream → Stream → Prop where
  | refl (s : Stream) : Calls s s
  | charAt {s t : Stream} (h : Calls s t) {i : Nat} (hi : t.base ≤ i) : Calls s (t.charAt i).2
  | release {s t : Stream} (h : Calls s t) (i : Nat) : Calls s (t.release i)

variable {s t : Stream} {ds : List Delivery} {bs : List UInt8} {reach : Nat}

theorem Represents.calls (h : s.Represents ds bs reach) (hc : Calls s t) : ∃ reach', t.Represents ds bs reach' := by
  induction hc with
  | refl => exact ⟨reach, h⟩
  | charAt _ hi ih =>
    obtain ⟨_, ht⟩ := ih
    obtain ⟨reach', _, _, _, hnext, _⟩ := ht.charAt hi
    exact ⟨reach', hnext⟩
  | release _ i ih =>
    obtain ⟨reach', ht⟩ := ih
    exact ⟨reach', ht.release i⟩

/-- Whatever bytes are served, and however they are cut, after any calls the buffer has the text of the whole of them
from the base on. Any character that has not been given up can be asked for, which gives up nothing, and a release
gives up no character from the one before its offset on. -/
theorem represents_bytes (hd : Serves ds bs) :
    ∃ text, (∀ cs, Text.Lossy bs cs ↔ cs = text) ∧ ∀ s, Calls (ofDeliveries ds) s →
      s.base + s.buffered ≤ text.length ∧ s.buffer.toList = (text.drop s.base).take s.buffered ∧
      (∀ i, s.base ≤ i → (s.charAt i).1 = .ok text[i]? ∧ (s.charAt i).2.base = s.base) ∧
      ∀ i, s.base ≤ (s.release i).base ∧ ∀ j, s.base ≤ j → j < (s.release i).base → j < i - 1 := by
  refine ⟨Text.lossy bs, fun cs => Text.lossy_iff, ?_⟩
  intro s hs
  obtain ⟨reach, h⟩ := (represents_ofDeliveries hd).calls hs
  have hsum := h.buffered_eq
  refine ⟨hsum ▸ h.reach_le, ?_, ?_, ?_⟩
  · rw [h.buffer_eq, ← hsum, List.drop_take, Nat.add_sub_cancel_left]
  · intro i hi
    obtain ⟨_, _, _, hchar, _, hbase⟩ := h.charAt hi
    exact ⟨hchar, hbase⟩
  · intro i
    have hbase : (s.release i).base = s.base + min (i - 1 - s.base) s.buffered := rfl
    refine ⟨by omega, ?_⟩
    intro j hj hlt
    omega

theorem represents_bytes_truncated :
    ∃ ds, Serves ds [97, 255, 98, 226, 130] ∧ ∃ s, Calls (ofDeliveries ds) s ∧ s.base = 2 ∧
      s.buffer.toList = ['b'] ∧ (s.charAt 3).1 = .ok (some '\ufffd') ∧ (s.charAt 4).1 = .ok none := by
  let ds : List Delivery := [.bytes [97, 255], .interrupted, .bytes [98, 226], .bytes [130], .bytes []]
  have hd : Serves ds [97, 255, 98, 226, 130] :=
    .read (by decide) (.retry (.read (by decide) (.read (by decide) (.stop []))))
  obtain ⟨text, htext, h⟩ := represents_bytes hd
  obtain rfl : ['a', '\ufffd', 'b', '\ufffd'] = text := (htext _).mp (Text.lossy_iff.mpr (by decide +kernel))
  let s := ((ofDeliveries ds).charAt 2).2.release 3
  have hs : Calls (ofDeliveries ds) s := .release (.charAt (.refl _) (Nat.zero_le _)) 3
  obtain ⟨_, _, hchar, _⟩ := h s hs
  have hbase : s.base = 2 := by decide +kernel
  exact ⟨ds, hd, s, hs, hbase, by decide +kernel, (hchar 3 (by omega)).1, (hchar 4 (by omega)).1⟩

end DialectRegex.Stream
