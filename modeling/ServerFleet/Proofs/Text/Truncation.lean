import Mathlib.Tactic.Lemma
import ServerFleet.Text.Layout

/-!
Cutting a text to a width. No cut text is wider than that. A text that fits is kept as it is,
except where the width leaves no room beside the mark: there even a text that fits gives way to
dots.
-/

namespace ServerFleet.Text

variable {s r : String} {width : Nat}

@[simp] lemma length_ellipsis : ellipsis.length = 3 := rfl

@[simp] lemma length_dots (n : Nat) : (dots n).length = n := by
  simp [dots]

@[simp] lemma dots_inj {m n : Nat} : dots m = dots n ↔ m = n := by
  constructor
  · intro h
    rw [← length_dots m, h, length_dots]
  · rintro rfl
    rfl

lemma truncate_of_le_three (h : width ≤ 3) : truncate s width = dots width :=
  if_pos h

lemma truncate_of_fits (h : 3 < width) (hs : s.length ≤ width) : truncate s width = s := by
  rw [truncate, if_neg (by omega), if_pos hs]

lemma truncate_of_exceeds (h : 3 < width) (hs : width < s.length) :
    truncate s width = String.ofList (s.toList.take (width - 3)) ++ ellipsis := by
  rw [truncate, if_neg (by omega), if_neg (by omega)]

/-- The beginning of a text that is too long fills the width together with the mark. -/
theorem length_take_ellipsis (h : 3 ≤ width) (hs : width < s.length) :
    (String.ofList (s.toList.take (width - 3)) ++ ellipsis).length = width := by
  have hlist : s.toList.length = s.length := String.length_toList
  rw [String.length_append, String.length_ofList, List.length_take, length_ellipsis, hlist]
  omega

lemma length_truncate_le (s : String) (width : Nat) : (truncate s width).length ≤ width := by
  rcases Nat.lt_or_ge 3 width with h | h
  · rcases Nat.lt_or_ge width s.length with hs | hs
    · have hlength : (truncate s width).length = width := by
        rw [truncate_of_exceeds h hs, length_take_ellipsis (Nat.le_of_lt h) hs]
      exact Nat.le_of_eq hlength
    · rw [truncate_of_fits h hs]
      exact hs
  · have hlength : (truncate s width).length = width := by
      rw [truncate_of_le_three h, length_dots]
    exact Nat.le_of_eq hlength

/-- What a text becomes at a width: itself if it fits, or else its beginning with the mark, or dots
alone if there is no room for the mark. -/
structure Cuts (s : String) (width : Nat) (r : String) : Prop where
  length_le : r.length ≤ width
  kept : s.length ≤ width → r = s
  marked : width < s.length → 3 ≤ width → r = String.ofList (s.toList.take (width - 3)) ++ ellipsis
  dotted : width < s.length → width < 3 → r = dots width

/-- A text that is too long is cut as it should be at every width. -/
theorem cuts_of_exceeds (hs : width < s.length) : Cuts s width (truncate s width) where
  length_le := length_truncate_le s width
  kept h := absurd hs (by omega)
  marked _ h := by
    rcases Nat.eq_or_lt_of_le h with rfl | h
    · -- three dots are the mark with nothing in front of it
      rfl
    · exact truncate_of_exceeds h hs
  dotted _ h := truncate_of_le_three (by omega)

lemma cuts_of_fits (h : 3 < width) (hs : s.length ≤ width) :
    Cuts s width (truncate s width) where
  length_le := length_truncate_le s width
  kept _ := truncate_of_fits h hs
  marked h' := absurd hs (by omega)
  dotted h' := absurd hs (by omega)

lemma Cuts.eq_dots (h : Cuts s width (truncate s width)) (hw : width ≤ 3)
    (hs : s.length ≤ width) : s = dots width := by
  rw [← h.kept hs, truncate_of_le_three hw]

lemma truncate_dots_self (width : Nat) : truncate (dots width) width = dots width := by
  rcases Nat.lt_or_ge 3 width with h | h
  · exact truncate_of_fits h (Nat.le_of_eq (length_dots width))
  · exact truncate_of_le_three h

/-- Dots up to the width are what the dots in their place would be. -/
theorem cuts_dots (width : Nat) : Cuts (dots width) width (truncate (dots width) width) where
  length_le := length_truncate_le (dots width) width
  kept _ := truncate_dots_self width
  marked h := absurd h (by simp)
  dotted h := absurd h (by simp)

lemma truncate_truncate_iff (s : String) (width more : Nat) :
    truncate (truncate s width) (width + more) = truncate s width ↔
      more = 0 ∨ 3 < width + more := by
  rcases Nat.lt_or_ge 3 (width + more) with h | h
  · have hfits : (truncate s width).length ≤ width + more :=
      Nat.le_trans (length_truncate_le s width) (by omega)
    exact iff_of_true (truncate_of_fits h hfits) (.inr h)
  · rw [truncate_of_le_three h, truncate_of_le_three (by omega), dots_inj]
    omega

/-- Cutting never gives more than the width. It is as it should be exactly if there is room beside
the mark, the text is too long, or the text is nothing but dots up to the width. A cut text is left
alone by a further cut to the same width, and by one to a greater width exactly if that has room
beside the mark. -/
theorem truncate_cuts_iff (s : String) (width : Nat) :
    (truncate s width).length ≤ width ∧
      (Cuts s width (truncate s width) ↔ 3 < width ∨ width < s.length ∨ s = dots width) ∧
      ∀ more, truncate (truncate s width) (width + more) = truncate s width ↔
        more = 0 ∨ 3 < width + more := by
  refine ⟨length_truncate_le s width, ⟨fun h => ?_, ?_⟩, truncate_truncate_iff s width⟩
  · rcases Nat.lt_or_ge 3 width with hw | hw
    · exact .inl hw
    rcases Nat.lt_or_ge width s.length with hs | hs
    · exact .inr (.inl hs)
    · exact .inr (.inr (h.eq_dots hw hs))
  · rintro (hw | hs | rfl)
    · rcases Nat.lt_or_ge width s.length with hs | hs
      · exact cuts_of_exceeds hs
      · exact cuts_of_fits hw hs
    · exact cuts_of_exceeds hs
    · exact cuts_dots width

/-- A text of one character fits a width of three, and becomes three dots all the same. A cut text
changes again at a greater width that has no room either. -/
theorem truncate_fitting_dotted :
    "a".length ≤ 3 ∧ truncate "a" 3 = "..." ∧ ¬ Cuts "a" 3 (truncate "a" 3) ∧
      truncate (truncate "ab" 1) 2 ≠ truncate "ab" 1 := by
  refine ⟨by decide, by decide, fun h => ?_, by decide⟩
  have hkept := h.kept (by decide)
  exact absurd hkept (by decide)

end ServerFleet.Text
