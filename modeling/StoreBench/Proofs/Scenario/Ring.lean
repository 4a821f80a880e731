import Mathlib.Data.List.Nodup
import StoreBench.Proofs.Text.Digits
import StoreBench.Scenario.Network

/-!
# `StoreBench.Proofs.Scenario.Ring`: users who follow each other

The users of a network are named by their numbers, and each follows the next one.
The edges of this ring are put into an order of their own, and each is there once
(`followEdges_perm`). In a document store a follow has a key that is made of two
names. It still tells who follows (`followId_ringEdge_injective`), since the digits
of a number end before the arrow.
-/

set_option autoImplicit false

namespace StoreBench.Scenario.Network

/-- The text of a user of a number. -/
theorem toList_userId (i : Nat) : (userId i).toList = "user".toList ++ digitsOf i := by
  exact String.toList_append.trans (congrArg ("user".toList ++ ·) (Text.toList_toString i))

/-- Users have names of their own. -/
theorem userId_injective {i j : Nat} (h : userId i = userId j) : i = j := by
  have htext := congrArg String.toList h
  rw [toList_userId, toList_userId] at htext
  exact Text.digitsOf_injective (List.append_cancel_left htext)

/-- The user of a number and the user that it follows. -/
def ringEdge (users i : Nat) : String × String := (userId i, userId ((i + 1) % users))

/-- The key of a follow. -/
def followId (edge : String × String) : String := s!"{edge.1}->{edge.2}"

/-- The key of a follow tells who follows. -/
theorem followId_ringEdge_injective {users i j : Nat}
    (h : followId (ringEdge users i) = followId (ringEdge users j)) : i = j := by
  -- The arrow ends the digits of the follower.
  have htext (k : Nat) : ∃ rest, (followId (ringEdge users k)).toList
      = "user".toList ++ (digitsOf k ++ '-' :: rest) := by
    refine ⟨'>' :: (userId ((k + 1) % users)).toList, ?_⟩
    rw [← List.append_assoc, ← toList_userId]
    simp only [followId, ringEdge, String.toList_append, List.append_assoc]
    rfl
  have hdigits (k : Nat) (rest : List Char) :
      (digitsOf k ++ '-' :: rest).takeWhile Text.isDigit = digitsOf k :=
    Text.takeWhile_digits (fun _ => Text.isDigit_of_mem_digitsOf) (Text.noDigit_cons rfl)
  obtain ⟨rest, hrest⟩ := htext i
  obtain ⟨rest', hrest'⟩ := htext j
  rw [h, hrest'] at hrest
  have hsame := congrArg (List.takeWhile Text.isDigit) (List.append_cancel_left hrest)
  rw [hdigits, hdigits] at hsame
  exact Text.digitsOf_injective hsame.symm

/-- An edge that is new is put among the others. -/
theorem insertEdge_perm {edge : String × String} {edges : List (String × String)}
    (h : edge ∉ edges) : (insertEdge edge edges).Perm (edge :: edges) := by
  induction edges with
  | nil => exact .refl _
  | cons other rest ih =>
      rw [List.mem_cons, not_or] at h
      simp only [insertEdge]
      split
      · exact .refl _
      · rw [if_neg h.1]
        exact ((ih h.2).cons other).trans (.swap edge other rest)

/-- Edges that are all new are put among the others one after the other. -/
theorem foldl_insertEdge_perm {users : Nat} {steps : List Nat} {edges : List (String × String)}
    (hnodup : (steps.map (ringEdge users) ++ edges).Nodup) :
    (steps.foldl (fun edges i => insertEdge (ringEdge users i) edges) edges).Perm
      (steps.map (ringEdge users) ++ edges) := by
  induction steps generalizing edges with
  | nil => exact .refl _
  | cons i rest ih =>
      have hnew : ringEdge users i ∉ edges := fun hmem =>
        (List.nodup_cons.mp hnodup).1 (List.mem_append_right _ hmem)
      have hmoved : (rest.map (ringEdge users) ++ insertEdge (ringEdge users i) edges).Perm
          ((i :: rest).map (ringEdge users) ++ edges) :=
        ((insertEdge_perm hnew).append_left _).trans List.perm_middle
      exact (ih (hmoved.nodup_iff.mpr hnodup)).trans hmoved

/-- The edges of the ring, in some order. -/
theorem followEdges_perm (users follows : Nat) :
    (followEdges users follows).Perm ((List.range (min users follows)).map (ringEdge users)) := by
  have hnodup : ((List.range (min users follows)).map (ringEdge users)).Nodup :=
    List.Nodup.map (fun i j h => userId_injective (congrArg Prod.fst h)) List.nodup_range
  unfold followEdges
  split
  · rename_i hnone
    rw [hnone, Nat.zero_min]
    exact .refl _
  · rw [← List.append_nil (List.map _ _)] at hnodup ⊢
    exact foldl_insertEdge_perm hnodup

end StoreBench.Scenario.Network
