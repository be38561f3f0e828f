import DialectRegex.Stream.Basic

namespace DialectRegex

/-- A stream that keeps the bytes of a character that is not complete, and checks them again with those that follow. -/
structure ByteStream where
  unread : List Delivery
  buffer : CharQueue
  base : Nat
  pending : List UInt8
  ended : Bool
  failure : Option ReadFailure

namespace ByteStream

variable (v : Text.Utf8Check)

def ofDeliveries (ds : List Delivery) : ByteStream := ⟨ds.flatMap Delivery.split, .empty, 0, [], false, none⟩

def finish (s : ByteStream) (unread : List Delivery) : ByteStream :=
  { s with
    unread
    buffer := s.buffer.append (if s.pending.isEmpty then [] else [Text.replacement])
    pending := []
    ended := true }

def fill (s : ByteStream) : List Delivery → ByteStream
  | [] => s.finish []
  | .interrupted :: ds => s.fill ds
  | .failed e :: ds => { s with unread := ds, failure := some e, ended := true }
  | .bytes [] :: ds => s.finish ds
  | .bytes bs :: ds =>
    let (cs, pending) := Text.redecode v (s.pending ++ bs)
    { s with unread := ds, buffer := s.buffer.append cs, pending }

theorem fill_shorter (s : ByteStream) (ds : List Delivery) :
    (s.fill v ds).ended = true ∨ (s.fill v ds).unread.length < ds.length := by
  fun_induction fill v s ds with
  | case1 => exact .inl rfl
  | case2 ds ih => exact ih.imp_right Nat.lt_succ_of_lt
  | case3 => exact .inl rfl
  | case4 => exact .inl rfl
  | case5 bs ds => exact .inr (Nat.lt_succ_self _)

def fillTo (offset : Nat) (s : ByteStream) : ByteStream :=
  if s.ended || offset < s.base + s.buffer.size then s else fillTo offset (s.fill v s.unread)
termination_by if s.ended then 0 else s.unread.length + 1
decreasing_by
  rename_i h
  rw [Bool.or_eq_true, not_or, Bool.not_eq_true] at h
  rcases s.fill_shorter v s.unread with hfill | hfill
  · simp [h.1, hfill]
  · rw [h.1]
    split
    · exact Nat.succ_pos _
    · exact Nat.succ_lt_succ hfill

def charAt (s : ByteStream) (offset : Nat) : Except Released (Option Char) × ByteStream :=
  if offset < s.base then (.error ⟨offset, s.base⟩, s)
  else
    let s := s.fillTo v offset
    (.ok (s.buffer.get? (offset - s.base)), s)

def release (s : ByteStream) (offset : Nat) : ByteStream :=
  let n := min (offset - 1 - s.base) s.buffer.size
  { s with buffer := s.buffer.drop n, base := s.base + n }

def takeFailure (s : ByteStream) : Option ReadFailure × ByteStream := (s.failure, { s with failure := none })

end ByteStream

end DialectRegex
