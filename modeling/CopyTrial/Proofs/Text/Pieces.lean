import CopyTrial.Proofs.Text.Lines

/-!
# The number of pieces

The pairs of colons in a text are found from left to right, so a colon that is put in front may
move all pairs after it. Still it brings at most one piece more, and none less. So a text has at
least the pieces of its parts, whatever pairs come about where the parts meet.

## Main results

* `Text.length_splitPairsFrom_add_le` — the pieces of two texts that are put together.
* `Text.length_splitPairsFrom_pair_le` — the same with a pair of colons between them.
* `Text.length_splitPairsFrom_eq_one_iff` — there is one piece exactly if there is no pair.
-/

set_option autoImplicit false

namespace CopyTrial.Text

/-- A further character in front brings at most one piece more, and none less. -/
theorem length_splitPairsFrom_cons_bounds (c : Char) (cs : List Char) :
    (splitPairsFrom [] cs).length ≤ (splitPairsFrom [] (c :: cs)).length ∧
      (splitPairsFrom [] (c :: cs)).length ≤ (splitPairsFrom [] cs).length + 1 := by
  induction cs generalizing c with
  | nil =>
    rw [splitPairsFrom_cons [] (by simp), length_splitPairsFrom [c]]
    exact ⟨Nat.le_refl _, Nat.le_succ _⟩
  | cons d cs ih =>
    by_cases h : c = ':' ∧ (d :: cs).head? = some ':'
    · obtain ⟨rfl, hhead⟩ := h
      obtain rfl : d = ':' := Option.some.inj hhead
      obtain ⟨hlower, hupper⟩ := ih ':'
      rw [splitPairsFrom_pair, List.length_cons]
      omega
    · rw [splitPairsFrom_cons [] h, length_splitPairsFrom [c]]
      exact ⟨Nat.le_refl _, Nat.le_succ _⟩

/-- There is always a piece. -/
theorem length_splitPairsFrom_pos (cs : List Char) : 0 < (splitPairsFrom [] cs).length := by
  induction cs with
  | nil => exact Nat.one_pos
  | cons c cs ih => exact Nat.lt_of_lt_of_le ih (length_splitPairsFrom_cons_bounds c cs).1

/-- **Two texts that are put together have no fewer pieces than both of them**, where the last
piece of the first text and the first piece of the second one become one.

**Proof sketch.** Induction on the first text, as it is split. A pair in it ends a piece either way.
A character at which no pair starts is of no account in the first text, and can only bring a piece
more in the whole. -/
theorem length_splitPairsFrom_add_le (piece cs ds : List Char) :
    (splitPairsFrom piece cs).length + (splitPairsFrom [] ds).length ≤
      (splitPairsFrom piece (cs ++ ds)).length + 1 := by
  fun_induction splitPairsFrom piece cs with
  | case1 piece =>
    rw [List.nil_append, length_splitPairsFrom piece, List.length_singleton]
    exact Nat.le_of_eq (Nat.add_comm _ _)
  | case2 piece rest ih =>
    rw [List.cons_append, List.cons_append, splitPairsFrom_pair, List.length_cons,
      List.length_cons]
    omega
  | case3 piece c rest hne ih =>
    have hbounds := length_splitPairsFrom_cons_bounds c (rest ++ ds)
    rw [length_splitPairsFrom (c :: piece) (rest ++ ds)] at ih
    rw [List.cons_append, length_splitPairsFrom piece (c :: (rest ++ ds))]
    omega

/-- A pair of colons between two texts ends a piece. -/
theorem length_splitPairsFrom_pair_le (cs ds : List Char) :
    (splitPairsFrom [] cs).length + (splitPairsFrom [] ds).length ≤
      (splitPairsFrom [] (cs ++ ':' :: ':' :: ds)).length := by
  have hparts := length_splitPairsFrom_add_le [] cs (':' :: ':' :: ds)
  rw [splitPairsFrom_pair, List.length_cons] at hparts
  omega

/-- **There is one piece exactly if there is no pair.** -/
theorem length_splitPairsFrom_eq_one_iff (cs : List Char) :
    (splitPairsFrom [] cs).length = 1 ↔ ¬ HasPair cs := by
  refine ⟨fun hone hpair => ?_, length_splitPairsFrom_of_not_hasPair []⟩
  obtain ⟨before, after, rfl⟩ := hpair
  have hbefore := length_splitPairsFrom_pos before
  have hafter := length_splitPairsFrom_pos after
  have hpieces := length_splitPairsFrom_pair_le before after
  rw [List.append_assoc] at hone
  rw [show before ++ ':' :: ':' :: after = before ++ ([':', ':'] ++ after) from rfl] at hpieces
  omega

end CopyTrial.Text
