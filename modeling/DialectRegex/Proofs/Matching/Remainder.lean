import DialectRegex.Dialect.Named
import DialectRegex.Proofs.Matching.Likeness

namespace DialectRegex

variable {u h : List Char}

theorem Setting.like_remainder (u h : List Char) (notBol notEol : Bool) :
    Setting.Like Eq u.length ⟨h, ⟨notBol, notEol, false⟩, 0⟩ ⟨u ++ h, ⟨notBol, notEol, true⟩, u.length⟩ where
  char i := by
    rw [Nat.add_comm, List.getElem?_append_right (Nat.le_add_right _ _), Nat.add_sub_cancel_left]
    generalize h[i]? = x
    cases x with
    | none => exact .none
    | some a => exact .some rfl
  notBol := rfl
  notEol := rfl
  begins i := by simp [begins]
  outset _ := rfl

theorem getElem?_before (hu : u ≠ []) : (u ++ h)[u.length - 1]? = u.getLast? := by
  have hlt : u.length - 1 < u.length := Nat.sub_one_lt (by simpa using hu)
  rw [List.getElem?_append_left hlt, List.getLast?_eq_getElem?]

namespace Regex

/-- A search that begins between two parts of a text, with the anchors there, finds what a search of the second part
alone finds, groups included, unless a bound of a word is looked for and the first part ends in a word character. -/
theorem middle_eq_rest (r : Regex) (u h : String)
    (hu : (∀ a ∈ u.toList.getLast?, isWordChar a = false) ∨ r.body.EveryTest fun t => ∀ b, t ≠ .boundary b)
    (notBol notEol : Bool) :
    r.findAt ⟨notBol, notEol, true⟩ (Haystack.ofString (u ++ h)).input u.length =
        (r.findAt ⟨notBol, notEol, false⟩ (Haystack.ofString h).input 0 : Option Match).map (.shift u.length) ∧
      r.matchAt ⟨notBol, notEol, true⟩ (Haystack.ofString (u ++ h)).input u.length =
        (r.matchAt ⟨notBol, notEol, false⟩ (Haystack.ofString h).input 0 : Option Match).map (.shift u.length) := by
  have hread := Haystack.input_reads h
  have hread' := Haystack.input_reads (u ++ h)
  rw [String.toList_append] at hread'
  have hword : r.body.EveryTest fun t =>
      ∀ b, t = .boundary b → 0 < u.toList.length → (u.toList ++ h.toList)[u.toList.length - 1]?.any isWordChar = false := by
    rcases hu with hu | hu
    · apply Pattern.everyTest
      intro t b _ hpos
      rw [getElem?_before (List.ne_nil_of_length_pos hpos)]
      cases hlast : u.toList.getLast? with
      | none => rfl
      | some a => exact hu a hlast
    · exact hu.mono fun t ht b hb => absurd hb (ht b)
  have htests : r.body.EveryTest fun t => ∀ i, t.Shifts u.toList.length (0 + u.toList.length)
      (r.search ⟨notBol, notEol, false⟩ (Haystack.ofString h).input)
      (r.search ⟨notBol, notEol, true⟩ (Haystack.ofString (u ++ h)).input)
      ⟨h.toList, ⟨notBol, notEol, false⟩, 0⟩ i := by
    apply hword.mono
    intro t ht i
    rw [Nat.zero_add]
    exact Test.shifts_of_like (search_sees r _ hread 0) (search_sees r _ hread' u.toList.length)
      (Setting.like_remainder u.toList h.toList notBol notEol) t.respects_eq ht
  have hl : (u.toList ++ h.toList).length = h.toList.length + u.toList.length := by
    rw [List.length_append, Nat.add_comm]
  have hfind := findAt_shift hread hread' hl htests
  have hmatch := matchAt_shift hread hread' hl htests
  rw [Nat.zero_add, String.length_toList] at hfind hmatch
  exact ⟨hfind, hmatch⟩

theorem middle_eq_rest_multiline :
    ∃ r : Regex, compile "\\b^(?=(a+))(a)\\2" .perl5 { multiline := true } = .ok r ∧
      (∀ a ∈ "aa.".toList.getLast?, isWordChar a = false) ∧
      (r.findAt ⟨false, true, true⟩ (Haystack.ofString ("aa." ++ "b\naaa")).input 3 : Option Match) =
        some ⟨5, 7, [some (5, 7), some (5, 8), some (5, 6)]⟩ := by
  let word (cs : List Char) : Pattern := .test (.literal cs false)
  let ahead : Pattern := .look false (.group (some 1) (.repeated (word ['a']) 1 none true))
  let body : Pattern := .seq (.test (.boundary .either)) (.seq (.test (.anchor .start true))
    (.seq ahead (.seq (.group (some 2) (word ['a'])) (.test (.backref 2 false)))))
  let r : Regex := ⟨"\\b^(?=(a+))(a)\\2", .perl5, { multiline := true }, body, 3, false, rfl⟩
  have hr : compile "\\b^(?=(a+))(a)\\2" .perl5 { multiline := true } = .ok r := by cbv
  have hword : isWordChar '.' = false := by decide +kernel
  have hu : ∀ a ∈ "aa.".toList.getLast?, isWordChar a = false := by simp [hword]
  have hrest : @Eq (Option Match) (r.findAt ⟨false, true, false⟩ (Haystack.ofString "b\naaa").input 0)
      (some ⟨2, 4, [some (2, 4), some (2, 5), some (2, 3)]⟩) := by decide +kernel
  obtain ⟨hmiddle, _⟩ := middle_eq_rest r "aa." "b\naaa" (.inl hu) false true
  rw [hrest] at hmiddle
  exact ⟨r, hr, hu, hmiddle⟩

end Regex

end DialectRegex
