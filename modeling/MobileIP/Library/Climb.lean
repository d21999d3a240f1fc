import Mathlib.Data.List.Basic
import Mathlib.Tactic.Common

/-! A loop that keeps the best candidate seen so far: a candidate replaces the one that is
held if it qualifies and is at least as good. No order between the candidates is assumed to
be total, so the loop ends at a maximal candidate and not in general at the greatest. -/
namespace Climb

variable {ι : Type*} (hit : ι → Bool) (le : ι → ι → Bool)

def climb (js : List ι) (i : ι) : ι :=
  js.foldl (fun found j => if hit j && le found j then j else found) i

theorem climb_cons (j : ι) (js : List ι) (i : ι) :
    climb hit le (j :: js) i = climb hit le js (if hit j && le i j then j else i) := rfl

theorem climb_mem (js : List ι) (i : ι) :
    climb hit le js i = i ∨ climb hit le js i ∈ js ∧ hit (climb hit le js i) = true := by
  induction js generalizing i with
  | nil => exact Or.inl rfl
  | cons j js ih =>
    rw [climb_cons]
    rcases ih (if hit j && le i j then j else i) with heq | ⟨hmem, hhit⟩
    · rw [heq]
      split_ifs with hj
      · have hboth := Bool.and_eq_true_iff.mp hj
        exact Or.inr ⟨List.mem_cons_self, hboth.1⟩
      · exact Or.inl rfl
    · exact Or.inr ⟨List.mem_cons_of_mem j hmem, hhit⟩

variable (hrefl : ∀ i, le i i = true) (htrans : ∀ i j k, le i j = true → le j k = true → le i k = true)

include hrefl htrans

/-- The candidate that is held only gets better. -/
theorem le_climb (js : List ι) (i : ι) : le i (climb hit le js i) = true := by
  induction js generalizing i with
  | nil => exact hrefl i
  | cons j js ih =>
    rw [climb_cons]
    apply htrans _ _ _ ?_ (ih _)
    split_ifs with hj
    · exact (Bool.and_eq_true_iff.mp hj).2
    · exact hrefl i

/-- No qualified candidate that the loop has met is strictly better than its result. -/
theorem climb_maximal (js : List ι) (i j : ι) (hj : j ∈ js) (hhit : hit j = true)
    (hle : le (climb hit le js i) j = true) : le j (climb hit le js i) = true := by
  induction js generalizing i with
  | nil => cases hj
  | cons k js ih =>
    rw [climb_cons] at hle ⊢
    rcases List.mem_cons.mp hj with rfl | hj
    · -- what is held when `j` comes up is no better than the result, so `j` is taken
      have hheld : le i j = true := by
        apply htrans _ _ _ ?_ hle
        apply htrans _ _ _ ?_ (le_climb hit le hrefl htrans js _)
        split_ifs with hk
        · exact (Bool.and_eq_true_iff.mp hk).2
        · exact hrefl i
      rw [if_pos (Bool.and_eq_true_iff.mpr ⟨hhit, hheld⟩)]
      exact le_climb hit le hrefl htrans js j
    · exact ih _ hj hle

end Climb
