import DialectRegex.Proofs.Stream.Failing
import DialectRegex.Proofs.Text.Redecoding
import DialectRegex.Stream.Pending

namespace DialectRegex

/-- The two have read the same. What the one keeps as bytes the other keeps as a character that is not complete. -/
structure ByteStream.Tracks (b : ByteStream) (ds : List Delivery) (s : Stream) : Prop where
  unread_eq : b.unread = ds
  buffer_eq : b.buffer = s.buffer
  base_eq : b.base = s.base
  ended_eq : b.ended = s.ended
  failure_eq : b.failure = s.failure
  pending : Text.Holds b.pending s.unfinished

namespace ByteStream

variable {b : ByteStream} {s : Stream} {ds : List Delivery} {i : Nat} (v : Text.Utf8Check)

theorem fill_unread (b : ByteStream) (unread ds : List Delivery) :
    { b with unread }.fill v ds = b.fill v ds := by
  induction ds with
  | nil => rfl
  | cons d ds ih =>
    match d with
    | .interrupted => exact ih
    | .failed e => rfl
    | .bytes [] => rfl
    | .bytes (b :: bs) => rfl

theorem fillTo_ended (he : b.ended = true) : b.fillTo v i = b := by
  rw [fillTo, if_pos (Bool.or_eq_true_iff.mpr (.inl he))]

namespace Tracks

theorem lacking (h : b.Tracks ds s) (hl : s.LacksAt i) : b.fillTo v i = (b.fill v ds).fillTo v i := by
  obtain ⟨he, hi⟩ := hl
  have hsize : b.buffer.size = s.buffered := congrArg CharQueue.size h.buffer_eq
  rw [fillTo, h.ended_eq, h.base_eq, hsize, h.unread_eq, if_neg (by simp [he, hi])]

theorem done (h : b.Tracks ds s) (hd : s.ended = true ∨ i < s.base + s.buffered) :
    b.fillTo v i = b ∧ Stream.fillTo i ds s = { s with unread := ds } := by
  have hsize : b.buffer.size = s.buffered := congrArg CharQueue.size h.buffer_eq
  constructor
  · rw [fillTo, h.ended_eq, h.base_eq, hsize, if_pos (by simpa using hd)]
  · rcases hd with he | hi
    · exact Stream.fillTo_ended he
    · exact Stream.fillTo_full hi

theorem finish (h : b.Tracks ds s) (unread : List Delivery) : (b.finish unread).Tracks unread
    { s with
      unread, buffer := s.buffer.append (Text.flush s.unfinished), unfinished := none, ended := true } where
  unread_eq := rfl
  buffer_eq := by rw [h.pending.flush, ← h.buffer_eq]; rfl
  base_eq := h.base_eq
  ended_eq := rfl
  failure_eq := h.failure_eq
  pending := .nil

theorem fillTo (h : b.Tracks ds s) (i : Nat) :
    (b.fillTo v i).Tracks (Stream.fillTo i ds s).unread (Stream.fillTo i ds s) := by
  induction ds generalizing b s with
  | nil =>
    rcases s.lacksAt_or i with hl | hd
    · rw [h.lacking v hl, Stream.fillTo_nil hl, fill, fillTo_ended v rfl]
      exact h.finish []
    · obtain ⟨hb, hs⟩ := h.done v hd
      rw [hb, hs]
      exact { h with }
  | cons d ds ih =>
    rcases s.lacksAt_or i with hl | hd
    · rw [h.lacking v hl]
      match d with
      | .interrupted =>
        have hnext : { b with unread := ds }.Tracks ds s := { h with unread_eq := rfl }
        rw [Stream.fillTo_interrupted hl, fill, ← fill_unread v b ds, ← hnext.lacking v hl]
        exact ih hnext
      | .failed e =>
        rw [Stream.fillTo_failed hl, fill, fillTo_ended v rfl]
        exact { h with unread_eq := rfl, ended_eq := rfl, failure_eq := rfl }
      | .bytes [] =>
        rw [Stream.fillTo_stop hl, fill, fillTo_ended v rfl]
        exact h.finish ds
      | .bytes (x :: bs) =>
        obtain ⟨hcs, hpending⟩ := h.pending.redecode v (x :: bs)
        rw [Stream.fillTo_bytes hl (List.cons_ne_nil x bs)]
        apply ih
        exact { h with unread_eq := rfl, buffer_eq := by rw [← hcs, ← h.buffer_eq]; rfl, pending := hpending }
    · obtain ⟨hb, hs⟩ := h.done v hd
      rw [hb, hs]
      exact { h with }

theorem charAt (h : b.Tracks s.unread s) (i : Nat) :
    (b.charAt v i).1 = (s.charAt i).1 ∧ (b.charAt v i).2.Tracks (s.charAt i).2.unread (s.charAt i).2 := by
  rw [ByteStream.charAt, Stream.charAt, h.base_eq]
  split
  · exact ⟨rfl, h⟩
  · have hfill := h.fillTo v i
    dsimp only
    rw [hfill.buffer_eq, hfill.base_eq]
    exact ⟨rfl, hfill⟩

theorem release (h : b.Tracks s.unread s) (i : Nat) : (b.release i).Tracks (s.release i).unread (s.release i) := by
  have hsize : b.buffer.size = s.buffered := congrArg CharQueue.size h.buffer_eq
  rw [ByteStream.release, Stream.release, h.base_eq, hsize, h.buffer_eq]
  exact { h with buffer_eq := rfl, base_eq := rfl }

theorem takeFailure (h : b.Tracks s.unread s) :
    b.takeFailure.1 = s.takeFailure.1 ∧ b.takeFailure.2.Tracks s.takeFailure.2.unread s.takeFailure.2 :=
  ⟨h.failure_eq, { h with failure_eq := rfl }⟩

end Tracks

def apply (b : ByteStream) : Stream.Request → ByteStream
  | .charAt i => (b.charAt v i).2
  | .release i => b.release i
  | .takeFailure => b.takeFailure.2

def after (b : ByteStream) : List Stream.Request → ByteStream
  | [] => b
  | r :: rs => (b.apply v r).after rs

theorem Tracks.after (h : b.Tracks s.unread s) (rs : List Stream.Request) :
    (b.after v rs).Tracks (s.after rs).unread (s.after rs) := by
  induction rs generalizing b s with
  | nil => exact h
  | cons r rs ih =>
    apply ih
    cases r with
    | charAt i => exact (h.charAt v i).2
    | release i => exact h.release i
    | takeFailure => exact h.takeFailure.2

/-- A stream that checks its pending bytes over and over answers all requests as one that decodes byte by byte. -/
theorem ofDeliveries_answers (ds : List Delivery) (rs : List Stream.Request) :
    let bytes := (ofDeliveries ds).after v rs
    let chars := (Stream.ofDeliveries ds).after rs
    (∀ i, (bytes.charAt v i).1 = (chars.charAt i).1) ∧ bytes.takeFailure.1 = chars.takeFailure.1 ∧
      bytes.buffer = chars.buffer ∧ bytes.unread = chars.unread := by
  have hstart : (ofDeliveries ds).Tracks (Stream.ofDeliveries ds).unread (Stream.ofDeliveries ds) :=
    ⟨rfl, rfl, rfl, rfl, rfl, .nil⟩
  have h := hstart.after v rs
  exact ⟨fun i => (h.charAt v i).1, h.takeFailure.1, h.buffer_eq, h.unread_eq⟩

end ByteStream

end DialectRegex
