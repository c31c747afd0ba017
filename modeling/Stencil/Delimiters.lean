import Stencil.Text.Search

/-! # Delimiters

One token fixes the two delimiters of a template's markers: a token of even length is cut in the
middle, a token of odd length serves on both sides. -/

namespace Stencil

/-- The tokens that open and close a marker. -/
structure Delimiters where
  opening : Text
  closing : Text
deriving DecidableEq, Repr

namespace Delimiters

/-- The token in use where none is chosen. -/
def defaultToken : Text := ['&', '&']

/-- The delimiters that a token stands for. -/
def ofToken (token : Text) : Delimiters :=
  if token.length % 2 = 0 then
    ⟨token.take (token.length / 2), token.drop (token.length / 2)⟩
  else ⟨token, token⟩

/-- Whether the delimiters can bracket a marker: neither is empty. -/
def usable (d : Delimiters) : Bool := !d.opening.isEmpty && !d.closing.isEmpty

theorem usable_iff {d : Delimiters} : d.usable = true ↔ d.opening ≠ [] ∧ d.closing ≠ [] := by
  simp [usable]

theorem length_pos_of_usable {d : Delimiters} (h : d.usable = true) :
    0 < d.opening.length ∧ 0 < d.closing.length := by
  obtain ⟨ho, hc⟩ := usable_iff.mp h
  exact ⟨List.length_pos_iff.mpr ho, List.length_pos_iff.mpr hc⟩

/-- Only the empty token stands for delimiters that bracket nothing. -/
theorem usable_ofToken_iff (token : Text) : (ofToken token).usable = true ↔ token ≠ [] := by
  rw [usable_iff, ofToken]
  split
  · constructor
    · rintro ⟨h, -⟩ rfl
      simp at h
    · intro h
      have := List.length_pos_iff.mpr h
      constructor <;> (apply List.length_pos_iff.mp; simp; omega)
  · simp

end Delimiters
end Stencil
