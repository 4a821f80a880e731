import Mathlib.Data.List.Basic
import StoreBench.Text.Pieces

/-!
# `StoreBench.Proofs.Text.Pieces`: the pieces of a text

A text without the separator is one piece (`pieces_of_not_mem`). Every text has a first
piece, which goes as far as the first separator (`exists_pieces`).
-/

set_option autoImplicit false

namespace StoreBench.Text

variable {c : Char} {cs : List Char}

/-- A text without a separator is one piece, the text itself. -/
theorem pieces_of_not_mem (h : c ∉ cs) : pieces c cs = [cs] := by
  induction cs with
  | nil => rfl
  | cons d ds ih =>
      rw [List.mem_cons, not_or] at h
      rw [pieces, if_neg (Ne.symm h.1), ih h.2]

/-- The first piece goes as far as the first separator, or is all of the text. Splitting
never leaves out a piece, so there is always a first one. -/
theorem exists_pieces (c : Char) (cs : List Char) :
    ∃ piece rest, pieces c cs = piece :: rest ∧ c ∉ piece := by
  induction cs with
  | nil => exact ⟨[], [], rfl, List.not_mem_nil⟩
  | cons d ds ih =>
      obtain ⟨piece, rest, hpieces, hpiece⟩ := ih
      rw [pieces, hpieces]
      by_cases hsep : d = c
      · exact ⟨[], piece :: rest, if_pos hsep, List.not_mem_nil⟩
      · refine ⟨d :: piece, rest, if_neg hsep, ?_⟩
        rw [List.mem_cons, not_or]
        exact ⟨Ne.symm hsep, hpiece⟩

end StoreBench.Text
