import Mathlib.Data.List.Forall2

/-!
# Steps that may fail

## Main results

* `bind_eq_ok_iff` — when two steps succeed one after the other.
* `mapM_eq_ok_iff`, `mapM_eq_error_iff` — when a step succeeds on all members of a list, and on
  which of them it fails first.
-/

set_option autoImplicit false

namespace CopyTrial

/-- Two steps succeed together if the second one does on what the first one gives. -/
theorem bind_eq_ok_iff {ε α β : Type} {x : Except ε α} {next : α → Except ε β} {b : β} :
    x >>= next = .ok b ↔ ∃ a, x = .ok a ∧ next a = .ok b := by
  cases x <;> simp [bind, Except.bind]

section

variable {ε α β : Type} {f : α → Except ε β}

/-- All members of a list have an answer if each of them has. -/
theorem mapM_eq_ok_iff (as : List α) (bs : List β) :
    as.mapM f = .ok bs ↔ List.Forall₂ (fun a b => f a = .ok b) as bs := by
  induction as generalizing bs with
  | nil =>
    rw [List.mapM_nil, List.forall₂_nil_left_iff]
    exact ⟨fun h => (Except.ok.inj h).symm, fun h => congrArg _ h.symm⟩
  | cons a as ih =>
    rw [List.mapM_cons, List.forall₂_cons_left_iff, bind_eq_ok_iff]
    refine exists_congr fun b => ?_
    rw [bind_eq_ok_iff]
    constructor
    · rintro ⟨hb, bs', hbs', h⟩
      exact ⟨bs', hb, (ih bs').1 hbs', (Except.ok.inj h).symm⟩
    · rintro ⟨bs', hb, hbs', rfl⟩
      exact ⟨hb, bs', (ih bs').2 hbs', rfl⟩

/-- Where all members of a list have an answer, one of the answers is that of a given member. -/
theorem exists_mem_of_mapM_eq_ok {as : List α} {bs : List β} (h : as.mapM f = .ok bs) {a : α}
    (ha : a ∈ as) : ∃ b ∈ bs, f a = .ok b := by
  replace h := (mapM_eq_ok_iff as bs).1 h
  induction h with
  | nil => cases ha
  | cons hfirst _ ih =>
    rcases List.mem_cons.1 ha with rfl | ha
    · exact ⟨_, List.mem_cons_self, hfirst⟩
    · obtain ⟨b, hb, heq⟩ := ih ha
      exact ⟨b, List.mem_cons_of_mem _ hb, heq⟩

/-- The first member of a list that has no answer tells why there is none. -/
theorem mapM_eq_error_iff (as : List α) (e : ε) :
    as.mapM f = .error e ↔
      ∃ before a after, as = before ++ a :: after ∧ (∀ other ∈ before, ∃ b, f other = .ok b) ∧
        f a = .error e := by
  induction as with
  | nil => simp [pure, Except.pure]
  | cons a as ih =>
    rw [List.mapM_cons]
    cases ha : f a with
    | error e' =>
      constructor
      · intro h
        obtain rfl := Except.error.inj h
        exact ⟨[], a, as, rfl, by simp, ha⟩
      · rintro ⟨before, a', after, heq, hbefore, ha'⟩
        obtain _ | ⟨first, before⟩ := before
        · obtain ⟨rfl, -⟩ := List.cons.inj heq
          rw [ha] at ha'
          obtain rfl := Except.error.inj ha'
          rfl
        · obtain ⟨rfl, -⟩ := List.cons.inj heq
          obtain ⟨b, hb⟩ := hbefore a List.mem_cons_self
          rw [ha] at hb
          cases hb
    | ok b =>
      have hrest : (do
          let bs ← as.mapM f
          pure (b :: bs) : Except ε (List β)) = .error e ↔ as.mapM f = .error e := by
        cases as.mapM f <;> simp [bind, Except.bind, pure, Except.pure]
      refine hrest.trans (ih.trans ?_)
      constructor
      · rintro ⟨before, a', after, rfl, hbefore, ha'⟩
        exact ⟨a :: before, a', after, rfl, List.forall_mem_cons.2 ⟨⟨b, ha⟩, hbefore⟩, ha'⟩
      · rintro ⟨before, a', after, heq, hbefore, ha'⟩
        obtain _ | ⟨first, before⟩ := before
        · obtain ⟨rfl, -⟩ := List.cons.inj heq
          rw [ha] at ha'
          cases ha'
        · obtain ⟨rfl, rfl⟩ := List.cons.inj heq
          exact ⟨before, a', after, rfl, (List.forall_mem_cons.1 hbefore).2, ha'⟩

end

end CopyTrial
