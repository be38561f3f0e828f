import DialectRegex.Proofs.Text.CaseMappings
import DialectRegex.Unicode.CaseMapping
import Mathlib.Data.List.Forall2
import Mathlib.Data.List.Nodup

namespace DialectRegex.Unicode

variable {a b c e : Char}

def foldCase (c : Char) : Char := toUpper (toLower c)

/-- The capital letters that are not the upper case of their lower case: I with a dot, the Theta symbol, sharp S, and the
signs for Ohm, Kelvin and Ångström. -/
def lone : List Char := ['\u0130', '\u03f4', '\u1e9e', '\u2126', '\u212a', '\u212b']

/-- A lone letter, and a character that has the upper case of its lower case but another lower case: dotless i, the other
small theta, the letters and ligatures with the upper case S, and those with the upper case Omega. The signs for Kelvin and
Ångström have no such character. -/
def parted : List (Char × Char) :=
  [('\u0130', '\u0131'), ('\u03f4', '\u03d1'), ('\u1e9e', 'S'), ('\u1e9e', 's'), ('\u1e9e', '\u017f'),
    ('\u1e9e', '\ufb05'), ('\u1e9e', '\ufb06'), ('\u2126', '\u1ff3'), ('\u2126', '\u1ff6'), ('\u2126', '\u1ff7'),
    ('\u2126', '\u1ffc')]

def Parted (a b : Char) : Prop := (a, b) ∈ parted ∨ (b, a) ∈ parted

instance : Decidable (Parted a b) := inferInstanceAs (Decidable (_ ∨ _))

theorem Parted.symm (h : Parted a b) : Parted b a := Or.symm h

theorem toUpper_foldCase (c : Char) : toUpper (foldCase c) = foldCase c := (settles_toUpper (toLower c)).again

theorem foldCase_or_lone (c : Char) : foldCase c = toUpper c ∨ c ∈ lone := by
  have h : foldCase c = c ∨ foldCase c = toUpper c ∨ c ∈ lone :=
    forall_of_entries (f := toLower) (P := fun c d => toUpper d = c ∨ toUpper d = toUpper c ∨ c ∈ lone)
      (fun _ h => if_neg h) (fun _ _ => .inr (.inl rfl)) (by decide +kernel) (by decide +kernel) c
  rcases h with hback | h
  · left
    calc foldCase c = toUpper (foldCase c) := (toUpper_foldCase c).symm
      _ = toUpper c := by rw [hback]
  · exact h

theorem eq_of_toUpper_eq (he : e ∈ lone) (h : toUpper c = toUpper e) : c = e := by
  have hself : ∀ e ∈ lone, toUpper e = e := List.forall_iff_forall_mem.mp (by decide +kernel)
  -- nothing else has a lone letter as its upper case
  have hlone : toUpper c ∈ lone → toUpper c = c :=
    forall_of_entries (P := fun c d => d ∈ lone → d = c) (fun _ h => if_neg h) (fun _ _ _ => rfl) (by decide +kernel)
      (by decide +kernel) c
  rw [hself e he] at h
  rw [← hlone (h ▸ he), h]

theorem eq_of_foldCase_eq (ha : a ∈ lone) (hb : b ∈ lone) (h : foldCase a = foldCase b) : a = b := by
  have hnodup : (lone.map foldCase).Nodup := by decide +kernel
  exact List.inj_on_of_nodup_map hnodup ha hb h

theorem toLower_eq_or_parted (he : e ∈ lone) (h : toUpper c = foldCase e) :
    toLower c = toLower e ∨ (e, c) ∈ parted := by
  have hsame : ∀ e ∈ lone, toLower (foldCase e) = toLower e ∨ (e, foldCase e) ∈ parted :=
    List.forall_iff_forall_mem.mp (by decide +kernel)
  have hall : lone.Forall fun e => toUpper c = foldCase e → toLower c = toLower e ∨ (e, c) ∈ parted := by
    refine forall_of_entries (P := fun c d => lone.Forall fun e => d = foldCase e → toLower c = toLower e ∨ (e, c) ∈ parted)
      (fun _ h => if_neg h) (fun c _ => List.forall_iff_forall_mem.mpr ?_) (by decide +kernel) (by decide +kernel) c
    rintro e he rfl
    exact hsame e he
  exact List.forall_iff_forall_mem.mp hall e he h

end DialectRegex.Unicode

namespace DialectRegex.Text

open Unicode

section Characters

variable {a b : Char}

theorem eqIgnoringCase_eq_true : eqIgnoringCase a b = true ↔ toLower a = toLower b ∨ toUpper a = toUpper b := by
  rw [eqIgnoringCase, Bool.or_eq_true, Bool.or_eq_true, beq_iff_eq, beq_iff_eq, beq_iff_eq]
  constructor
  · rintro ((rfl | hlower) | hupper)
    · exact .inl rfl
    · exact .inl hlower
    · exact .inr hupper
  · rintro (hlower | hupper)
    · exact .inl (.inr hlower)
    · exact .inr hupper

theorem eqIgnoringCase_comm (a b : Char) : eqIgnoringCase a b = eqIgnoringCase b a := by
  rw [Bool.eq_iff_iff, eqIgnoringCase_eq_true, eqIgnoringCase_eq_true, eq_comm, eq_comm (a := toUpper a)]

theorem foldCase_eq (h : eqIgnoringCase a b = true) : foldCase a = foldCase b := by
  rcases eqIgnoringCase_eq_true.mp h with hlower | hupper
  · exact congrArg toUpper hlower
  -- an upper case that is not the folded one is that of a lone letter, which shares it with nothing
  rcases foldCase_or_lone a with ha | ha
  · rcases foldCase_or_lone b with hb | hb
    · rw [ha, hupper, hb]
    · rw [eq_of_toUpper_eq hb hupper]
  · rw [eq_of_toUpper_eq ha hupper.symm]

theorem not_parted (h : eqIgnoringCase a b = true) : ¬ Parted a b := by
  have hparted : ∀ p ∈ parted, eqIgnoringCase p.1 p.2 = false := by decide +kernel
  rintro (hab | hba)
  · rw [hparted _ hab] at h
    cases h
  · rw [eqIgnoringCase_comm, hparted _ hba] at h
    cases h

theorem eqIgnoringCase_of_lone (ha : a ∈ lone) (h : foldCase a = foldCase b) (hp : ¬ Parted a b) :
    eqIgnoringCase a b = true := by
  rw [eqIgnoringCase_eq_true]
  rcases foldCase_or_lone b with hb | hb
  · rcases toLower_eq_or_parted ha (hb ▸ h.symm) with hlower | hparted
    · exact .inl hlower.symm
    · exact absurd (.inl hparted) hp
  · exact .inl (congrArg toLower (eq_of_foldCase_eq ha hb h))

theorem eqIgnoringCase_iff : eqIgnoringCase a b = true ↔ foldCase a = foldCase b ∧ ¬ Parted a b := by
  refine ⟨fun h => ⟨foldCase_eq h, not_parted h⟩, ?_⟩
  rintro ⟨h, hp⟩
  rcases foldCase_or_lone a with ha | ha
  · rcases foldCase_or_lone b with hb | hb
    · exact eqIgnoringCase_eq_true.mpr (.inr (by rw [← ha, h, hb]))
    · rw [eqIgnoringCase_comm]
      exact eqIgnoringCase_of_lone hb h.symm fun hba => hp hba.symm
  · exact eqIgnoringCase_of_lone ha h hp

end Characters

theorem sameIgnoringCase_iff_forall₂ {a b : List Char} :
    sameIgnoringCase a b = true ↔ List.Forall₂ (fun x y => eqIgnoringCase x y = true) a b := by
  induction a generalizing b with
  | nil => cases b <;> simp [sameIgnoringCase]
  | cons x a ih =>
    cases b with
    | nil => simp [sameIgnoringCase]
    | cons y b => rw [sameIgnoringCase, Bool.and_eq_true, ih, List.forall₂_cons]

theorem map_eq_map_iff_forall₂ {a b : List Char} (f : Char → Char) :
    a.map f = b.map f ↔ List.Forall₂ (fun x y => f x = f y) a b := by
  rw [← List.forall₂_eq_eq_eq, List.forall₂_map_left_iff, List.forall₂_map_right_iff]

theorem sameIgnoringCase_iff {a b : List Char} :
    sameIgnoringCase a b = true ↔ a.map foldCase = b.map foldCase ∧ ∀ p ∈ a.zip b, ¬ Parted p.1 p.2 := by
  rw [sameIgnoringCase_iff_forall₂, map_eq_map_iff_forall₂, List.forall₂_iff_zip, List.forall₂_iff_zip, and_assoc]
  refine and_congr_right fun _ => ?_
  simp only [eqIgnoringCase_iff, Prod.forall]
  constructor
  · intro h
    exact ⟨fun hp => (h hp).1, fun x y hp => (h hp).2⟩
  · rintro ⟨hfold, hparted⟩ x y hp
    exact ⟨hfold hp, hparted x y hp⟩

/-- Equality up to case is reflexive and symmetric, holds between texts of one length only, and holds if the lower cases are
equal. The ends of a chain of two equalities are equal exactly if they have no parted characters at the same place; so the
equality is transitive on all texts without one of the four capital letters. -/
theorem equivalence_unless_parted (a b c : List Char) :
    sameIgnoringCase a a = true ∧
    sameIgnoringCase a b = sameIgnoringCase b a ∧
    (sameIgnoringCase a b = true → a.length = b.length) ∧
    (lowercase a = lowercase b → sameIgnoringCase a b = true) ∧
    (sameIgnoringCase a b = true → sameIgnoringCase b c = true →
      (sameIgnoringCase a c = true ↔ ∀ p ∈ a.zip c, ¬ Parted p.1 p.2)) := by
  have hlower {a b : List Char} (h : lowercase a = lowercase b) : sameIgnoringCase a b = true :=
    sameIgnoringCase_iff_forall₂.mpr <|
      ((map_eq_map_iff_forall₂ toLower).mp h).imp fun x y hxy => eqIgnoringCase_eq_true.mpr (.inl hxy)
  have hsymm {a b : List Char} (h : sameIgnoringCase a b = true) : sameIgnoringCase b a = true := by
    rw [sameIgnoringCase_iff_forall₂] at h ⊢
    exact (h.imp fun x y hxy => (eqIgnoringCase_comm y x).trans hxy).flip
  refine ⟨hlower rfl, Bool.eq_iff_iff.mpr ⟨hsymm, hsymm⟩, fun h => ?_, hlower, fun hab hbc => ?_⟩
  · exact (sameIgnoringCase_iff_forall₂.mp h).length_eq
  · have hfold : a.map foldCase = c.map foldCase :=
      (sameIgnoringCase_iff.mp hab).1.trans (sameIgnoringCase_iff.mp hbc).1
    rw [sameIgnoringCase_iff, and_iff_right hfold]

theorem equivalence_unless_parted_mixed :
    sameIgnoringCase "ß\u017f\u212a".toList "SSk".toList = true ∧
      sameIgnoringCase "SSk".toList "s\ufb05K".toList = true ∧
      lowercase "\u212a".toList = lowercase "K".toList ∧
      sameIgnoringCase "ß\u017f\u212a".toList "s\ufb05K".toList = true ∧
      sameIgnoringCase "\u212a".toList "K".toList = true ∧
      "ß\u017f\u212a".toList.length = "SSk".toList.length := by
  obtain ⟨_, _, hlength, _, htrans⟩ :=
    equivalence_unless_parted "ß\u017f\u212a".toList "SSk".toList "s\ufb05K".toList
  obtain ⟨_, _, _, hlower, _⟩ := equivalence_unless_parted "\u212a".toList "K".toList []
  have hab : sameIgnoringCase "ß\u017f\u212a".toList "SSk".toList = true := by decide +kernel
  have hbc : sameIgnoringCase "SSk".toList "s\ufb05K".toList = true := by decide +kernel
  have hk : lowercase "\u212a".toList = lowercase "K".toList := by decide +kernel
  exact ⟨hab, hbc, hk, (htrans hab hbc).mpr (by decide +kernel), hlower hk, hlength hab⟩

/-- Capital sharp S meets the small one in lower case, and that meets s in upper case, but capital sharp S and s do not
meet. -/
theorem sharp_s_between :
    sameIgnoringCase "\u1e9e".toList "ß".toList = true ∧ sameIgnoringCase "ß".toList "s".toList = true ∧
      sameIgnoringCase "\u1e9e".toList "s".toList = false := by
  decide +kernel

end DialectRegex.Text
