import DialectRegex.Proofs.Text.Lossy
import DialectRegex.Stream.Basic

namespace DialectRegex

inductive Serves : List Delivery → List UInt8 → Prop where
  | done : Serves [] []
  | stop (ds : List Delivery) : Serves (.bytes [] :: ds) []
  | retry {ds : List Delivery} {bs : List UInt8} (h : Serves ds bs) : Serves (.interrupted :: ds) bs
  | read {ds : List Delivery} {bs part : List UInt8} (hp : part ≠ []) (h : Serves ds bs) :
      Serves (.bytes part :: ds) (part ++ bs)

namespace Delivery

def payload : Delivery → List UInt8
  | bytes bs => bs
  | _ => []

theorem portions_step {bs : List UInt8} {n : Nat} (hle : bs.length ≤ (n + 1) * readSize)
    (hlt : (n + 1) * readSize < bs.length + readSize) :
    bs.take readSize ≠ [] ∧ (bs.drop readSize).length ≤ n * readSize ∧
      n * readSize < (bs.drop readSize).length + readSize := by
  rw [Nat.succ_mul] at hle hlt
  have hlen : (bs.drop readSize).length = bs.length - readSize := List.length_drop
  refine ⟨?_, by omega, by omega⟩
  rw [Ne, List.take_eq_nil_iff]
  rintro (hz | rfl)
  · cases hz
  · rw [List.length_nil] at hlt
    omega

end Delivery

theorem Stream.base_release (s : Stream) (i : Nat) :
    (s.release i).base = s.base + min (i - 1 - s.base) s.buffered := rfl

theorem Stream.buffer_release (s : Stream) (i : Nat) :
    (s.release i).buffer = s.buffer.drop (min (i - 1 - s.base) s.buffered) := rfl

theorem Stream.byteCount_cons (d : Delivery) (ds : List Delivery) :
    byteCount (d :: ds) = d.byteCount + byteCount ds := by
  have hfold (n : Nat) : ds.foldl (fun n d => n + d.byteCount) n = n + byteCount ds := by
    rw [byteCount]
    induction ds generalizing n with
    | nil => rfl
    | cons d ds ih => rw [List.foldl_cons, List.foldl_cons, ih, ih (0 + _), Nat.zero_add, Nat.add_assoc]
  rw [byteCount, List.foldl_cons, hfold, Nat.zero_add]

namespace Serves

open Delivery (readSize portions)

variable {ds : List Delivery} {bs : List UInt8}

theorem portions_append {part : List UInt8} {n : Nat} (hle : part.length ≤ n * readSize)
    (hlt : n * readSize < part.length + readSize) (h : Serves ds bs) :
    Serves ((portions part n).map .bytes ++ ds) (part ++ bs) := by
  induction n generalizing part with
  | zero =>
    obtain rfl : part = [] := List.eq_nil_of_length_eq_zero (by omega)
    exact h
  | succ n ih =>
    obtain ⟨hne, hle, hlt⟩ := Delivery.portions_step hle hlt
    have h := Serves.read hne (ih hle hlt)
    rwa [← List.append_assoc, List.take_append_drop] at h

theorem split (h : Serves ds bs) : Serves (ds.flatMap Delivery.split) bs := by
  induction h with
  | done => exact .done
  | stop ds => exact .stop _
  | retry _ ih => exact .retry ih
  | @read ds bs part hp _ ih =>
    have hpos : 0 < part.length := List.length_pos_iff.mpr hp
    rw [List.flatMap_cons, Delivery.split]
    apply portions_append _ _ ih
    all_goals
      rw [readSize]
      omega

theorem length_le (h : Serves ds bs) : bs.length ≤ Stream.byteCount ds := by
  induction h with
  | done => exact Nat.zero_le _
  | stop ds => exact Nat.zero_le _
  | retry _ ih =>
    rw [Stream.byteCount_cons]
    exact Nat.le_add_left_of_le ih
  | read _ _ ih =>
    rw [Stream.byteCount_cons, List.length_append]
    exact Nat.add_le_add_left ih _

end Serves

namespace Stream

/-- The stream has read the deliveries in `past`, out of `ds`, and in them the first `reach` characters of what `bs`
decodes to. -/
structure Represents (ds : List Delivery) (bs : List UInt8) (reach : Nat) (s : Stream) : Prop where
  base_le : s.base ≤ reach
  buffer_eq : s.buffer.toList = ((Text.lossy bs).take reach).drop s.base
  past : ∃ past more, past ++ s.unread = ds ∧ past.flatMap Delivery.payload ++ more = bs ∧
    if s.ended then more = [] ∧ s.unfinished = none ∧ reach = (Text.lossy bs).length
    else Serves s.unread more ∧
      Text.decode none (past.flatMap Delivery.payload) = ((Text.lossy bs).take reach, s.unfinished) ∧
      reach ≤ (Text.lossy bs).length
  bounded : (Text.lossy bs).length ≤ s.bound

variable {s : Stream} {ds rest unread : List Delivery} {bs : List UInt8} {d : Delivery} {reach : Nat}

theorem represents_ofDeliveries (h : Serves ds bs) :
    (ofDeliveries ds).Represents (ds.flatMap Delivery.split) bs 0 where
  base_le := Nat.le_refl 0
  buffer_eq := rfl
  past := ⟨[], bs, rfl, rfl, h.split, rfl, Nat.zero_le _⟩
  bounded := by
    have := (Text.lossy_lossy bs).length_le
    have := h.length_le
    change (Text.lossy bs).length ≤ byteCount ds + 1
    omega

namespace Represents

theorem reach_le (h : s.Represents ds bs reach) : reach ≤ (Text.lossy bs).length := by
  obtain ⟨past, more, _, _, hrest⟩ := h.past
  split at hrest
  · exact Nat.le_of_eq hrest.2.2
  · exact hrest.2.2

theorem buffered_eq (h : s.Represents ds bs reach) : s.base + s.buffered = reach := by
  have hlen := congrArg List.length h.buffer_eq
  have := h.reach_le
  have := h.base_le
  rw [CharQueue.length_toList, List.length_drop, List.length_take] at hlen
  rw [buffered]
  omega

theorem get?_eq (h : s.Represents ds bs reach) {i : Nat} (hi : s.base ≤ i)
    (hr : i < reach ∨ reach = (Text.lossy bs).length) : s.buffer.get? (i - s.base) = (Text.lossy bs)[i]? := by
  rw [← CharQueue.getElem?_toList, h.buffer_eq, List.getElem?_drop, Nat.add_sub_cancel' hi, List.getElem?_take]
  split
  · rfl
  · rw [List.getElem?_eq_none]
    omega

section Filling

theorem full (h : ({ s with unread } : Stream).Represents ds bs reach) {i : Nat}
    (hf : (s.ended || decide (i < s.base + s.buffered)) = true) : i < reach ∨ reach = (Text.lossy bs).length := by
  have hsum := h.buffered_eq
  obtain ⟨_, _, _, _, hrest⟩ := h.past
  rcases Bool.or_eq_true_iff.mp hf with he | hi
  · rw [if_pos he] at hrest
    exact .inr hrest.2.2
  · exact .inl (hsum ▸ of_decide_eq_true hi)

theorem to_come (h : ({ s with unread } : Stream).Represents ds bs reach) {i : Nat}
    (hf : ¬ (s.ended || decide (i < s.base + s.buffered)) = true) :
    s.ended = false ∧ ∃ past more, past ++ unread = ds ∧ past.flatMap Delivery.payload ++ more = bs ∧
      Serves unread more ∧
      Text.decode none (past.flatMap Delivery.payload) = ((Text.lossy bs).take reach, s.unfinished) := by
  obtain ⟨past, more, hds, hbs, hrest⟩ := h.past
  have he : s.ended = false := (Bool.or_eq_false_iff.mp (Bool.not_eq_true _ ▸ hf)).1
  rw [if_neg (by simp [he])] at hrest
  exact ⟨he, past, more, hds, hbs, hrest.1, hrest.2.1⟩

theorem next (h : ({ s with unread := d :: rest } : Stream).Represents ds bs reach) (he : s.ended = false)
    {past : List Delivery} {more : List UInt8} (hds : past ++ d :: rest = ds)
    (hbs : past.flatMap Delivery.payload ++ (d.payload ++ more) = bs) (hs : Serves rest more)
    (hdec : Text.decode none (past.flatMap Delivery.payload) = ((Text.lossy bs).take reach, s.unfinished))
    {buffer : CharQueue} (hb : buffer.toList = s.buffer.toList ++ (Text.decode s.unfinished d.payload).1) :
    ({ s with unread := rest, buffer, unfinished := (Text.decode s.unfinished d.payload).2 } : Stream).Represents ds bs
      (reach + (Text.decode s.unfinished d.payload).1.length) := by
  have hpayload : (past ++ [d]).flatMap Delivery.payload = past.flatMap Delivery.payload ++ d.payload := by
    rw [List.flatMap_append, List.flatMap_singleton]
  have hbs' : (past ++ [d]).flatMap Delivery.payload ++ more = bs := by rw [hpayload, List.append_assoc, hbs]
  have hdec' : Text.decode none ((past ++ [d]).flatMap Delivery.payload) =
      ((Text.lossy bs).take reach ++ (Text.decode s.unfinished d.payload).1,
        (Text.decode s.unfinished d.payload).2) := by
    rw [hpayload, Text.decode_append, hdec]
  have hprefix := Text.decode_prefix_lossy ((past ++ [d]).flatMap Delivery.payload) more
  have hbase : s.base ≤ reach := h.base_le
  have hold : s.buffer.toList = ((Text.lossy bs).take reach).drop s.base := h.buffer_eq
  have hreach : reach ≤ (Text.lossy bs).length := h.reach_le
  rw [hbs', hdec'] at hprefix
  change (Text.lossy bs).take reach ++ (Text.decode s.unfinished d.payload).1 <+: Text.lossy bs at hprefix
  generalize Text.decode s.unfinished d.payload = decoded at *
  have htake : (Text.lossy bs).take (reach + decoded.1.length) = (Text.lossy bs).take reach ++ decoded.1 := by
    rw [List.prefix_iff_eq_take.mp hprefix, List.length_append, List.length_take, Nat.min_eq_left hreach]
  have hle := hprefix.length_le
  rw [List.length_append, List.length_take] at hle
  refine ⟨Nat.le_add_right_of_le hbase, ?_, ?_, h.bounded⟩
  · rw [hb, htake, hold, ← List.drop_append_of_le_length]
    rw [List.length_take]
    omega
  · refine ⟨past ++ [d], more, by rwa [List.append_assoc], hbs', ?_⟩
    rw [if_neg (by simp [he]), htake]
    exact ⟨hs, hdec', by omega⟩

theorem finish (h : ({ s with unread } : Stream).Represents ds bs reach) (past : List Delivery)
    (hds : past ++ rest = ds) (hbs : past.flatMap Delivery.payload = bs)
    (hdec : Text.decode none bs = ((Text.lossy bs).take reach, s.unfinished)) :
    ({ s with
        unread := rest, buffer := s.buffer.append (Text.flush s.unfinished), unfinished := none,
        ended := true } : Stream).Represents ds bs (Text.lossy bs).length := by
  have htext : (Text.lossy bs).take reach ++ Text.flush s.unfinished = Text.lossy bs := by
    conv_rhs => rw [Text.lossy, hdec]
  have hbase : s.base ≤ reach := h.base_le
  have hreach : reach ≤ (Text.lossy bs).length := h.reach_le
  have hold : s.buffer.toList = ((Text.lossy bs).take reach).drop s.base := h.buffer_eq
  refine ⟨Nat.le_trans hbase hreach, ?_, ⟨past, [], hds, ?_, rfl, rfl, rfl⟩, h.bounded⟩
  · change (s.buffer.append (Text.flush s.unfinished)).toList = _
    rw [CharQueue.toList_append, hold, List.take_length, ← List.drop_append_of_le_length, htext]
    rw [List.length_take]
    omega
  · rw [List.append_nil, hbs]

theorem fillTo (offset : Nat) (unread : List Delivery)
    (h : ({ s with unread } : Stream).Represents ds bs reach) :
    ∃ reach', reach ≤ reach' ∧ (Stream.fillTo offset unread s).Represents ds bs reach' ∧
      (Stream.fillTo offset unread s).base = s.base ∧ (offset < reach' ∨ reach' = (Text.lossy bs).length) := by
  fun_induction Stream.fillTo offset unread s generalizing reach with
  | case1 unread s hf => exact ⟨reach, Nat.le_refl _, h, rfl, h.full hf⟩
  | case2 s hf =>
    obtain ⟨_, past, _, hds, hbs, hserves, hdec⟩ := h.to_come hf
    cases hserves
    rw [List.append_nil] at hbs
    rw [hbs] at hdec
    exact ⟨_, h.reach_le, h.finish past hds hbs hdec, rfl, .inr rfl⟩
  | case3 s hf rest ih =>
    obtain ⟨he, past, _, hds, hbs, hserves, hdec⟩ := h.to_come hf
    cases hserves with
    | retry hs => exact ih (h.next he hds hbs hs hdec (List.append_nil _).symm)
  | case4 s hf e rest =>
    obtain ⟨_, _, _, _, _, hserves, _⟩ := h.to_come hf
    cases hserves
  | case5 s hf rest =>
    obtain ⟨_, past, _, hds, hbs, hserves, hdec⟩ := h.to_come hf
    cases hserves with
    | stop =>
      rw [List.append_nil] at hbs
      rw [hbs] at hdec
      refine ⟨_, h.reach_le, h.finish (past ++ [.bytes []]) ?_ ?_ hdec, rfl, .inr rfl⟩
      · rwa [List.append_assoc]
      · rw [List.flatMap_append, hbs]
        exact List.append_nil bs
    | read hp _ => exact absurd rfl hp
  | case6 s hf part rest hne cs unfinished hdec ih =>
    obtain ⟨he, past, _, hds, hbs, hserves, hpast⟩ := h.to_come hf
    cases hserves with
    | stop => exact absurd rfl hne
    | read _ hs =>
      have hnext := h.next he hds hbs hs hpast (CharQueue.toList_append s.buffer _)
      change Stream.Represents _ _ (reach + (Text.decode s.unfinished part).1.length)
        ⟨_, s.buffer.append (Text.decode s.unfinished part).1, _, (Text.decode s.unfinished part).2, _, _, _⟩ at hnext
      rw [hdec] at hnext
      obtain ⟨reach', hle, hrest⟩ := ih hnext
      exact ⟨reach', by omega, hrest⟩

end Filling

theorem charAt (h : s.Represents ds bs reach) {i : Nat} (hi : s.base ≤ i) :
    ∃ reach', reach ≤ reach' ∧ (i < reach' ∨ (Text.lossy bs)[i]? = none) ∧
      (s.charAt i).1 = .ok (Text.lossy bs)[i]? ∧ (s.charAt i).2.Represents ds bs reach' ∧
      (s.charAt i).2.base = s.base := by
  obtain ⟨reach', hle, hfill, hbase, hreach⟩ := Represents.fillTo (s := s) i s.unread h
  rw [Stream.charAt, if_neg (Nat.not_lt.mpr hi)]
  have hget := hfill.get?_eq (by rwa [hbase]) hreach
  refine ⟨reach', hle, ?_, congrArg Except.ok hget, hfill, hbase⟩
  rw [List.getElem?_eq_none_iff]
  have := hfill.reach_le
  omega

theorem release (h : s.Represents ds bs reach) (i : Nat) : (s.release i).Represents ds bs reach := by
  have hsum := h.buffered_eq
  have hbase := s.base_release i
  refine ⟨by omega, ?_, h.past, h.bounded⟩
  rw [buffer_release, base_release, CharQueue.toList_drop, h.buffer_eq, List.drop_drop]

end Represents

def Conveys (ds : List Delivery) (text : List Char) (reach : Nat) (s : Stream) : Prop :=
  ∃ bs, Text.decode none bs = (text, none) ∧ s.Represents ds bs reach

theorem conveys_ofDeliveries {t : String} (h : Serves ds t.toUTF8.toList) :
    (ofDeliveries ds).Conveys (ds.flatMap Delivery.split) t.toList 0 :=
  ⟨_, Text.decode_toUTF8 t, represents_ofDeliveries h⟩

namespace Conveys

variable {text : List Char}

theorem represents (h : s.Conveys ds text reach) : ∃ bs, Text.lossy bs = text ∧ s.Represents ds bs reach := by
  obtain ⟨bs, hdec, h⟩ := h
  exact ⟨bs, Text.lossy_of_decode hdec, h⟩

theorem bounded (h : s.Conveys ds text reach) : text.length ≤ s.bound := by
  obtain ⟨bs, rfl, hs⟩ := h.represents
  exact hs.bounded

theorem buffer_eq (h : s.Conveys ds text reach) : s.buffer.toList = (text.take reach).drop s.base := by
  obtain ⟨bs, rfl, hs⟩ := h.represents
  exact hs.buffer_eq

theorem past (h : s.Conveys ds text reach) :
    ∃ past, past ++ s.unread = ds ∧
      Text.decode none (past.flatMap Delivery.payload) = (text.take reach, s.unfinished) := by
  obtain ⟨bs, hdec, h⟩ := h
  obtain ⟨past, more, hds, hbs, hrest⟩ := h.past
  refine ⟨past, hds, ?_⟩
  rw [Text.lossy_of_decode hdec] at hrest
  split at hrest
  · obtain ⟨rfl, hnone, hreach⟩ := hrest
    rw [List.append_nil] at hbs
    rw [hbs, hdec, hreach, hnone, List.take_length]
  · exact hrest.2.1

theorem charAt (h : s.Conveys ds text reach) {i : Nat} (hi : s.base ≤ i) :
    ∃ reach', reach ≤ reach' ∧ (i < reach' ∨ text[i]? = none) ∧ (s.charAt i).1 = .ok text[i]? ∧
      (s.charAt i).2.Conveys ds text reach' ∧ (s.charAt i).2.base = s.base := by
  obtain ⟨bs, hdec, h⟩ := h
  obtain ⟨reach', hle, hget, hchar, hnext, hbase⟩ := h.charAt hi
  rw [Text.lossy_of_decode hdec] at hget hchar
  exact ⟨reach', hle, hget, hchar, ⟨bs, hdec, hnext⟩, hbase⟩

theorem release (h : s.Conveys ds text reach) {i : Nat} (hi : i - 1 ≤ reach) :
    (s.release i).Conveys ds text reach ∧ (s.release i).base = max s.base (i - 1) := by
  obtain ⟨bs, hdec, h⟩ := h
  refine ⟨⟨bs, hdec, h.release i⟩, ?_⟩
  have hsum := h.buffered_eq
  rw [base_release]
  omega

end Conveys

end Stream

end DialectRegex
