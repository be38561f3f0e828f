import DialectRegex.Proofs.Stream.Serving

namespace DialectRegex

namespace Text

theorem length_decode_le (p : Option Partial) (bs : List UInt8) :
    (decode p bs).1.length + (flush (decode p bs).2).length ≤ bs.length + (flush p).length := by
  have hlead (b : UInt8) : (leadByte b).1.length + (flush (leadByte b).2).length ≤ 1 := by
    obtain ⟨_, h⟩ | h | ⟨p, h⟩ := leadByte_cases b <;> rw [h] <;> rfl
  have hbyte (p : Option Partial) (b : UInt8) :
      (decodeByte p b).1.length + (flush (decodeByte p b).2).length ≤ 1 + (flush p).length := by
    have hb := hlead b
    cases p with
    | none => exact hb
    | some p =>
      rw [decodeByte]
      split
      · dsimp only
        split
        · simp [flush]
        · simp [flush]
      · have hone : (flush (some p)).length = 1 := rfl
        dsimp only
        rw [List.length_cons]
        omega
  induction bs generalizing p with
  | nil => simp [decode]
  | cons b bs ih =>
    have hb := hbyte p b
    have hbs := ih (decodeByte p b).2
    rw [decode, List.length_cons]
    dsimp only
    rw [List.length_append]
    omega

end Text

namespace Stream

def contents (p : Option Text.Partial) : List Delivery → List Char
  | [] => Text.flush p
  | .interrupted :: ds => contents p ds
  | .failed _ :: _ => []
  | .bytes [] :: _ => Text.flush p
  | .bytes bs :: ds => (Text.decode p bs).1 ++ contents (Text.decode p bs).2 ds

theorem length_contents_le (p : Option Text.Partial) (ds : List Delivery) :
    (contents p ds).length ≤ byteCount ds + (Text.flush p).length := by
  fun_induction contents p ds with
  | case1 p => exact Nat.le_add_left _ _
  | case2 p ds ih =>
    rw [byteCount_cons]
    omega
  | case3 => exact Nat.zero_le _
  | case4 => exact Nat.le_add_left _ _
  | case5 p bs ds _ ih =>
    have := Text.length_decode_le p bs
    rw [List.length_append, byteCount_cons, Delivery.byteCount]
    omega

theorem contents_bytes (p : Option Text.Partial) {bs : List UInt8} (hbs : bs ≠ []) (ds : List Delivery) :
    contents p (.bytes bs :: ds) = (Text.decode p bs).1 ++ contents (Text.decode p bs).2 ds := by
  cases bs with
  | nil => exact absurd rfl hbs
  | cons b bs => rfl

theorem contents_portions (p : Option Text.Partial) {bs : List UInt8} {n : Nat}
    (hle : bs.length ≤ n * Delivery.readSize)
    (hlt : n * Delivery.readSize < bs.length + Delivery.readSize) (ds : List Delivery) :
    contents p ((Delivery.portions bs n).map .bytes ++ ds) =
      (Text.decode p bs).1 ++ contents (Text.decode p bs).2 ds := by
  induction n generalizing p bs with
  | zero =>
    obtain rfl : bs = [] := List.eq_nil_of_length_eq_zero (by omega)
    rfl
  | succ n ih =>
    obtain ⟨hne, hle, hlt⟩ := Delivery.portions_step hle hlt
    have hdec : Text.decode p bs = _ :=
      (congrArg _ (List.take_append_drop Delivery.readSize bs).symm).trans (Text.decode_append p _ _)
    rw [Delivery.portions, List.map_cons, List.cons_append, contents_bytes p hne, ih _ hle hlt, hdec,
      List.append_assoc]

theorem contents_split (p : Option Text.Partial) (ds : List Delivery) :
    contents p (ds.flatMap Delivery.split) = contents p ds := by
  fun_induction contents p ds with
  | case1 p => rfl
  | case2 p ds ih => exact ih
  | case3 => rfl
  | case4 => rfl
  | case5 p bs ds hne ih =>
    have hpos : 0 < bs.length := List.length_pos_iff.mpr hne
    rw [List.flatMap_cons, Delivery.split, contents_portions, ih]
    all_goals
      rw [Delivery.readSize]
      omega

variable {s : Stream} {text : List Char} {unread : List Delivery}

def toCome (s : Stream) : List Char := if s.ended then [] else contents s.unfinished s.unread

structure Has (text : List Char) (s : Stream) : Prop where
  base_le : s.base ≤ text.length
  rest_eq : s.buffer.toList ++ s.toCome = text.drop s.base
  bounded : text.length ≤ s.bound

namespace Has

theorem get?_eq (h : s.Has text) {i : Nat} (hi : s.base ≤ i) (hread : i < s.base + s.buffered ∨ s.toCome = []) :
    s.buffer.get? (i - s.base) = text[i]? := by
  have hget : (text.drop s.base)[i - s.base]? = text[i]? := by rw [List.getElem?_drop, Nat.add_sub_cancel' hi]
  rw [← CharQueue.getElem?_toList, ← hget, ← h.rest_eq]
  rcases hread with hread | hread
  · rw [List.getElem?_append_left]
    rw [CharQueue.length_toList]
    rw [buffered] at hread
    omega
  · rw [hread, List.append_nil]

theorem read {t : Stream} (h : s.Has text) (hb : t.base = s.base) (hbound : t.bound = s.bound)
    (hrest : t.buffer.toList ++ t.toCome = s.buffer.toList ++ s.toCome) : t.Has text :=
  ⟨hb ▸ h.base_le, by rw [hrest, h.rest_eq, hb], hbound ▸ h.bounded⟩

theorem fillTo (offset : Nat) (unread : List Delivery) (h : ({ s with unread } : Stream).Has text) :
    (Stream.fillTo offset unread s).Has text ∧ (Stream.fillTo offset unread s).base = s.base ∧
      (offset < s.base + (Stream.fillTo offset unread s).buffered ∨ (Stream.fillTo offset unread s).toCome = []) := by
  have hended {s : Stream} (hf : ¬ (s.ended || decide (offset < s.base + s.buffered)) = true) : s.ended = false :=
    (Bool.or_eq_false_iff.mp (Bool.not_eq_true _ ▸ hf)).1
  fun_induction Stream.fillTo offset unread s with
  | case1 unread s hf =>
    refine ⟨h, rfl, ?_⟩
    rcases Bool.or_eq_true_iff.mp hf with he | hi
    · exact .inr (if_pos he)
    · exact .inl (of_decide_eq_true hi)
  | case2 s hf => exact ⟨h.read rfl rfl (by simp [toCome, contents, hended hf]), rfl, .inr rfl⟩
  | case3 s hf rest ih => exact ih (h.read rfl rfl (by simp [toCome, contents, hended hf]))
  | case4 s hf e rest => exact ⟨h.read rfl rfl (by simp [toCome, contents, hended hf]), rfl, .inr rfl⟩
  | case5 s hf rest => exact ⟨h.read rfl rfl (by simp [toCome, contents, hended hf]), rfl, .inr rfl⟩
  | case6 s hf part rest hne cs unfinished hdec ih =>
    apply ih
    refine h.read rfl rfl ?_
    have he := hended hf
    simp only [toCome, he, Bool.false_eq_true, if_false, contents_bytes s.unfinished hne, hdec, CharQueue.toList_append,
      List.append_assoc]

theorem charAt (h : s.Has text) (i : Nat) : (s.charAt i).2.Has text ∧
    ((s.charAt i).1 = .ok text[i]? ∨ (s.charAt i).1 = .error ⟨i, s.base⟩) := by
  rw [Stream.charAt]
  split
  · exact ⟨h, .inr rfl⟩
  · next hi =>
    obtain ⟨hfill, hbase, hread⟩ := fillTo i s.unread h
    rw [← hbase] at hread
    refine ⟨hfill, .inl ?_⟩
    exact congrArg Except.ok (hfill.get?_eq (by rw [hbase]; exact Nat.le_of_not_lt hi) hread)

theorem buffered_add (h : s.Has text) : s.base + s.buffered + s.toCome.length = text.length := by
  have hlen := congrArg List.length h.rest_eq
  have hbase := h.base_le
  rw [List.length_append, CharQueue.length_toList, List.length_drop] at hlen
  rw [buffered]
  omega

theorem release (h : s.Has text) (i : Nat) : (s.release i).Has text := by
  have hlen := h.buffered_add
  refine ⟨?_, ?_, h.bounded⟩
  · rw [base_release]
    omega
  · change (s.release i).buffer.toList ++ s.toCome = _
    rw [base_release, buffer_release, CharQueue.toList_drop, ← List.drop_append_of_le_length, h.rest_eq, List.drop_drop]
    rw [CharQueue.length_toList]
    exact Nat.min_le_right _ _

end Has

theorem has_ofDeliveries (ds : List Delivery) : (ofDeliveries ds).Has (contents none ds) where
  base_le := Nat.zero_le _
  rest_eq := contents_split none ds
  bounded := by
    have := length_contents_le none ds
    change (contents none ds).length ≤ byteCount ds + 1
    have hflush : (Text.flush none).length = 0 := rfl
    omega

end Stream

end DialectRegex
