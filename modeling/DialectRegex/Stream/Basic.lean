import DialectRegex.Stream.CharQueue
import DialectRegex.Text.Utf8

namespace DialectRegex

/-- Any kind but the one after which a read is tried again. -/
structure FailureKind where
  name : String
  not_interrupted : name ≠ "Interrupted"
deriving DecidableEq, Repr

structure ReadFailure where
  kind : FailureKind
  message : String
deriving DecidableEq, Repr

inductive Delivery where
  /-- No bytes mean the end of the input. -/
  | bytes (bs : List UInt8)
  | interrupted
  | failed (e : ReadFailure)
deriving DecidableEq, Repr

namespace Delivery

def readSize : Nat := 8192

def portions : List UInt8 → Nat → List (List UInt8)
  | _, 0 => []
  | bs, n + 1 => bs.take readSize :: portions (bs.drop readSize) n

def split : Delivery → List Delivery
  | bytes bs => (portions bs (max 1 ((bs.length + readSize - 1) / readSize))).map bytes
  | d => [d]

def byteCount : Delivery → Nat
  | bytes bs => bs.length
  | _ => 0

end Delivery

structure Stream where
  unread : List Delivery
  buffer : CharQueue
  base : Nat
  unfinished : Option Text.Partial
  ended : Bool
  failure : Option ReadFailure
  bound : Nat

structure Released where
  offset : Nat
  base : Nat
deriving DecidableEq, Repr

def Released.message (e : Released) : String :=
  "offset " ++ toString e.offset ++ " was released, the source is at " ++ toString e.base

namespace Stream

def byteCount (ds : List Delivery) : Nat := ds.foldl (fun n d => n + d.byteCount) 0

/-- Each byte completes at most one character, and the end of the input one more. -/
def ofDeliveries (ds : List Delivery) : Stream :=
  ⟨ds.flatMap Delivery.split, .empty, 0, none, false, none, byteCount ds + 1⟩

def buffered (s : Stream) : Nat := s.buffer.size

def unreadBytes (s : Stream) : Nat := byteCount s.unread

def fillTo (offset : Nat) : List Delivery → Stream → Stream
  | ds, s =>
    if s.ended || offset < s.base + s.buffered then { s with unread := ds }
    else
      match ds with
      | [] => { s with unread := [], buffer := s.buffer.append (Text.flush s.unfinished), unfinished := none, ended := true }
      | .interrupted :: ds => fillTo offset ds s
      | .failed e :: ds => { s with unread := ds, failure := some e, ended := true }
      | .bytes [] :: ds =>
        { s with unread := ds, buffer := s.buffer.append (Text.flush s.unfinished), unfinished := none, ended := true }
      | .bytes bs :: ds =>
        let (cs, unfinished) := Text.decode s.unfinished bs
        fillTo offset ds { s with buffer := s.buffer.append cs, unfinished }

def charAt (s : Stream) (offset : Nat) : Except Released (Option Char) × Stream :=
  if offset < s.base then (.error ⟨offset, s.base⟩, s)
  else
    let s := fillTo offset s.unread s
    (.ok (s.buffer.get? (offset - s.base)), s)

def release (s : Stream) (offset : Nat) : Stream :=
  let n := min (offset - 1 - s.base) s.buffered
  { s with buffer := s.buffer.drop n, base := s.base + n }

def takeFailure (s : Stream) : Option ReadFailure × Stream := (s.failure, { s with failure := none })

end Stream

end DialectRegex
